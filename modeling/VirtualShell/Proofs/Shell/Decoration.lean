import Mathlib.Data.List.Forall2
import VirtualShell.Shell.Palette

/-!
# Colours as decoration

A palette puts codes into a text: one that sets a colour, and one that goes back to the terminal's
own.  All of them start with a character that a text need not have otherwise, and where it has not,
the text is what is left when the codes are dropped.
-/

namespace VirtualShell
namespace Text

/-- The codes that set one of the colours, and the one that goes back to the terminal's own. -/
def colourCodes : List String :=
  ["\x1b[31m", "\x1b[32m", "\x1b[33m", "\x1b[34m", "\x1b[36m", "\x1b[39m"]

/-- Drops all codes, from the left to the right, after some characters that belong to one. -/
def dropCodes : Nat → List Char → List Char
  | _, [] => []
  | skipped + 1, _ :: rest => dropCodes skipped rest
  | 0, c :: rest =>
    match colourCodes.find? fun code => code.toList.isPrefixOf (c :: rest) with
    | some code => dropCodes (code.length - 1) rest
    | none => c :: dropCodes 0 rest

/-- A text without its colour codes. -/
def unpainted (s : String) : String :=
  String.ofList (dropCodes 0 s.toList)

/-- A code is dropped as a whole. -/
theorem dropCodes_code {code : String} (hcode : code ∈ colourCodes) (rest : List Char) :
    dropCodes 0 (code.toList ++ rest) = dropCodes 0 rest := by
  -- all codes have the same length, so it does not matter which one is found
  simp only [colourCodes, List.mem_cons, List.not_mem_nil, or_false] at hcode
  rcases hcode with rfl | rfl | rfl | rfl | rfl | rfl <;> rfl

theorem head?_of_mem_colourCodes : ∀ code ∈ colourCodes, code.toList.head? = some '\x1b' := by
  decide

/-- A character that starts no code stays. -/
theorem dropCodes_cons {c : Char} (hc : c ≠ '\x1b') (rest : List Char) :
    dropCodes 0 (c :: rest) = c :: dropCodes 0 rest := by
  have hnone : colourCodes.find? (fun code => code.toList.isPrefixOf (c :: rest)) = none := by
    refine List.find?_eq_none.mpr fun code hcode hstarts => hc ?_
    obtain ⟨cs, hcs⟩ := List.head?_eq_some_iff.mp (head?_of_mem_colourCodes code hcode)
    rw [hcs, List.isPrefixOf_iff_prefix, List.cons_prefix_cons] at hstarts
    exact hstarts.1.symm
  rw [dropCodes, hnone]

/-! ### Texts with codes put into them -/

/-- The first text is the second one with codes put between its characters, all of which are
allowed. -/
inductive Decorates (allowed : Char → Prop) : List Char → List Char → Prop
  | nil : Decorates allowed [] []
  | char {c : Char} {s t : List Char} (hc : allowed c) (hrest : Decorates allowed s t) :
    Decorates allowed (c :: s) (c :: t)
  | code {code : String} {s t : List Char} (hcode : code ∈ colourCodes)
    (hrest : Decorates allowed s t) : Decorates allowed (code.toList ++ s) t

theorem Decorates.append {allowed : Char → Prop} {s s' t t' : List Char}
    (h : Decorates allowed s t) (h' : Decorates allowed s' t') :
    Decorates allowed (s ++ s') (t ++ t') := by
  induction h with
  | nil => exact h'
  | char hc _ ih => exact .char hc ih
  | code hcode _ ih =>
      rw [List.append_assoc]
      exact .code hcode ih

theorem decorates_refl {allowed : Char → Prop} {s : List Char} (hs : ∀ c ∈ s, allowed c) :
    Decorates allowed s s := by
  induction s with
  | nil => exact .nil
  | cons c s ih =>
      rw [List.forall_mem_cons] at hs
      exact .char hs.1 (ih hs.2)

/-- Without the codes, a decorated text is what it was. -/
theorem Decorates.dropCodes_eq {s t : List Char} (h : Decorates (· ≠ '\x1b') s t) :
    dropCodes 0 s = t := by
  induction h with
  | nil => rfl
  | char hc _ ih => rw [dropCodes_cons hc, ih]
  | code hcode _ ih => rw [dropCodes_code hcode, ih]

/-- The first text is the second one with codes in it. -/
def Painted (allowed : Char → Prop) (s t : String) : Prop :=
  Decorates allowed s.toList t.toList

variable {allowed : Char → Prop} {s s' t t' : String}

theorem Painted.unpainted_eq (h : Painted (· ≠ '\x1b') s t) : unpainted s = t := by
  rw [unpainted, Decorates.dropCodes_eq h, String.ofList_toList]

theorem painted_refl (hs : ∀ c ∈ s.toList, allowed c) : Painted allowed s s :=
  decorates_refl hs

theorem painted_code {code : String} (hcode : code ∈ colourCodes) : Painted allowed code "" := by
  have h : Decorates allowed (code.toList ++ []) [] := .code hcode .nil
  rwa [List.append_nil] at h

theorem Painted.append (h : Painted allowed s t) (h' : Painted allowed s' t') :
    Painted allowed (s ++ s') (t ++ t') := by
  rw [Painted, String.toList_append, String.toList_append]
  exact Decorates.append h h'

theorem painted_intercalate {gap : String} (hgap : ∀ c ∈ gap.toList, allowed c)
    {ss ts : List String} (h : List.Forall₂ (Painted allowed) ss ts) :
    Painted allowed (gap.intercalate ss) (gap.intercalate ts) := by
  induction h with
  | nil => exact painted_refl (by simp)
  | cons hfirst hrest ih =>
      cases hrest with
      | nil => rwa [String.intercalate_singleton, String.intercalate_singleton]
      | cons _ _ =>
          rw [String.intercalate_cons_cons, String.intercalate_cons_cons]
          exact (hfirst.append (painted_refl hgap)).append ih

end Text

/-- Colours only put codes around a text. -/
theorem Palette.painted_paint {allowed : Char → Prop} (role : Role) {s t : String}
    (h : Text.Painted allowed s t) :
    Text.Painted allowed (paint ⟨true⟩ role s) (paint ⟨false⟩ role t) := by
  have hstart : Text.Painted allowed ("\x1b[" ++ role.colour ++ "m") "" :=
    Text.painted_code (by cases role <;> decide)
  have hstop : Text.Painted allowed "\x1b[39m" "" := Text.painted_code (by decide)
  have hpainted := (hstart.append h).append hstop
  rwa [String.empty_append, String.append_empty] at hpainted

end VirtualShell
