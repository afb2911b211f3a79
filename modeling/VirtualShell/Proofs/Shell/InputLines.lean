import Mathlib.Data.List.Forall2
import VirtualShell.Proofs.Shell.Words
import VirtualShell.Proofs.Text.Decoding
import VirtualShell.Shell.Interactive

/-!
# The lines of an input

An input is cut at its line feeds, and a carriage return before a line feed goes with it;
`map_dropLineEnd_rawLines` says that this is what the loop reads.  Whether the return is there makes
no difference to what a line asks for, because a return that stays is a blank at the end.
-/

namespace VirtualShell
namespace Interactive

/-- A line without one carriage return at its end. -/
def dropReturn (line : List UInt8) : List UInt8 :=
  if line.getLast? = some 0x0D then line.dropLast else line

/-- The lines of an input: what stands before each line feed, without one carriage return at its
end, and what stands after the last line feed, if that is anything. -/
def lines (input : List UInt8) : List (List UInt8) :=
  (input.splitOn 0x0A).dropLast.map dropReturn ++
    (input.splitOn 0x0A).getLast?.toList.filter (· ≠ [])

theorem dropLineEnd_concat (line : List UInt8) :
    dropLineEnd (line ++ [0x0A]) = dropReturn line := by
  rcases List.eq_nil_or_concat line with rfl | ⟨line, b, rfl⟩
  · rfl
  · rw [List.concat_eq_append, dropReturn, List.getLast?_concat, List.dropLast_concat, dropLineEnd]
    simp only [List.reverse_append, List.reverse_singleton, List.singleton_append]
    by_cases hb : b = 0x0D
    · subst hb
      simp
    · simp [hb]

theorem dropLineEnd_of_getLast? {line : List UInt8} (hline : line.getLast? ≠ some 0x0A) :
    dropLineEnd line = line := by
  rcases List.eq_nil_or_concat line with rfl | ⟨line, b, rfl⟩
  · rfl
  · have hb : b ≠ 0x0A := by simpa using hline
    rw [dropLineEnd]
    simp [hb]

/-- The raw lines are the parts between line feeds with the line feeds put back. -/
theorem rawLines_eq (input : List UInt8) :
    rawLines input = (input.splitOn 0x0A).dropLast.map (· ++ [0x0A]) ++
      (input.splitOn 0x0A).getLast?.toList.filter (· ≠ []) := by
  induction input with
  | nil => rfl
  | cons b rest ih =>
      obtain ⟨part, parts, hparts⟩ := List.exists_cons_of_ne_nil (List.splitOn_ne_nil 0x0A rest)
      rw [rawLines, List.splitOn_cons_eq_if_modifyHead, ih, hparts]
      by_cases hb : b = 0x0A
      · simp [hb]
      · cases parts with
        | nil => by_cases hpart : part = [] <;> simp [hb, hpart]
        | cons next parts => simp [hb]

/-- Without their ends the raw lines are the lines. -/
theorem map_dropLineEnd_rawLines (input : List UInt8) :
    (rawLines input).map dropLineEnd = lines input := by
  have hended : dropLineEnd ∘ (· ++ [0x0A]) = dropReturn := funext dropLineEnd_concat
  rw [rawLines_eq, lines, List.map_append, List.map_map, hended]
  congr 1
  -- what stands after the last line feed has none at its end
  refine (List.map_congr_left fun part hpart => ?_).trans (List.map_id _)
  have hlast := (List.mem_filter.mp hpart).1
  have hmem := List.mem_of_getLast? (Option.mem_toList.mp hlast)
  exact dropLineEnd_of_getLast? fun hfeed =>
    (of_mem_splitOn hmem).1 (List.mem_of_getLast? hfeed)

/-- A carriage return that no line feed follows belongs to the line. -/
example : lines [0x61, 0x0D, 0x0A, 0x0A, 0x62, 0x0D] = [[0x61], [], [0x62, 0x0D]] := by decide

end Interactive

/-! ### Carriage returns -/

section Blank

variable {c : Char} (hblank : Text.isBlank c = true)
include hblank

/-- A blank at the end of a line belongs to none of its words. -/
theorem Line.parse_append_blank (s : String) :
    Line.parse (s ++ String.ofList [c]) = Line.parse s := by
  have hblanks : Text.AllBlank (String.ofList [c]) := by
    rw [Text.AllBlank, String.toList_ofList]
    exact List.forall_mem_singleton.mpr hblank
  exact parse_congr (words_append_allBlank s hblanks)

theorem Text.trimBlanks_concat (cs : List Char) :
    Text.trimBlanks (cs ++ [c]) = Text.trimBlanks cs := by
  rw [Text.trimBlanks, Text.trimBlanks, List.dropWhile_append]
  split
  · rename_i hempty
    rw [List.isEmpty_iff.mp hempty, List.dropWhile_cons_of_pos hblank]
    rfl
  · simp [hblank]

theorem Text.trim_append_blank (s : String) :
    Text.trim (s ++ String.ofList [c]) = Text.trim s := by
  rw [Text.trim, Text.trim, String.toList_append, String.toList_ofList,
    Text.trimBlanks_concat hblank]

end Blank

namespace Interactive

/-! ### Two ways to end a line -/

/-- Lines that differ at most in the way they end. -/
def Alike (raw raw' : List UInt8) : Prop :=
  raw = raw' ∨ ∃ line, raw = line ++ [0x0A] ∧ raw' = line ++ [0x0D, 0x0A]

theorem forall₂_alike_refl (raws : List (List UInt8)) : List.Forall₂ Alike raws raws :=
  List.forall₂_same.mpr fun _ _ => .inl rfl

theorem Alike.cons {raw raw' : List UInt8} (b : UInt8) (halike : Alike raw raw') :
    Alike (b :: raw) (b :: raw') := by
  rcases halike with rfl | ⟨line, rfl, rfl⟩
  · exact .inl rfl
  · exact .inr ⟨b :: line, rfl, rfl⟩

theorem forall₂_alike_rawLines {rest rest' : List UInt8}
    (hrest : List.Forall₂ Alike (rawLines rest) (rawLines rest')) (line : List UInt8) :
    List.Forall₂ Alike (rawLines (line ++ [0x0A] ++ rest))
      (rawLines (line ++ [0x0D, 0x0A] ++ rest')) := by
  -- the line may hold line feeds of its own, which cut both inputs alike
  induction line with
  | nil => exact .cons (.inr ⟨[], rfl, rfl⟩) hrest
  | cons b line ih =>
      rw [List.cons_append, List.cons_append, List.cons_append, List.cons_append, rawLines,
        rawLines]
      by_cases hb : b = 0x0A
      · rw [if_pos hb, if_pos hb]
        exact .cons (.inl rfl) ih
      · rw [if_neg hb, if_neg hb]
        generalize rawLines (line ++ [0x0A] ++ rest) = raws,
          rawLines (line ++ [0x0D, 0x0A] ++ rest') = raws' at ih
        cases ih with
        | nil => exact forall₂_alike_refl _
        | cons hfirst hlater => exact .cons (hfirst.cons b) hlater

/-- Ending the same lines in the two ways gives lines that are alike. -/
theorem forall₂_alike_flatMap (lines : List (List UInt8)) (tail : List UInt8) :
    List.Forall₂ Alike (rawLines (lines.flatMap (· ++ [0x0A]) ++ tail))
      (rawLines (lines.flatMap (· ++ [0x0D, 0x0A]) ++ tail)) := by
  induction lines with
  | nil => exact forall₂_alike_refl _
  | cons line lines ih =>
      rw [List.flatMap_cons, List.flatMap_cons, List.append_assoc (line ++ [0x0A]),
        List.append_assoc (line ++ [0x0D, 0x0A])]
      exact forall₂_alike_rawLines ih line

theorem dropReturn_concat (line : List UInt8) : dropReturn (line ++ [0x0D]) = line := by
  rw [dropReturn, if_pos List.getLast?_concat, List.dropLast_concat]

/-- The loop makes the same of the two lines: they have no text, or texts that it cannot tell
apart. -/
def SameRequest (line line' : Except InputError String) : Prop :=
  (∃ e e', line = .error e ∧ line' = .error e') ∨
    ∃ text text', line = .ok text ∧ line' = .ok text' ∧ Line.parse text = Line.parse text' ∧
      Text.trim text = Text.trim text'

theorem sameRequest_refl (line : Except InputError String) : SameRequest line line := by
  cases line with
  | error e => exact .inl ⟨e, e, rfl, rfl⟩
  | ok text => exact .inr ⟨text, text, rfl, rfl, rfl, rfl⟩

theorem lineText_feed (line : List UInt8) :
    lineText (line ++ [0x0A]) = (Text.Utf8.decode (dropReturn line)).mapError .notText := by
  rw [lineText, dropLineEnd_concat]

theorem lineText_return_feed (line : List UInt8) :
    lineText (line ++ [0x0D, 0x0A]) = (Text.Utf8.decode line).mapError .notText := by
  have hsplit : line ++ [0x0D, 0x0A] = line ++ [0x0D] ++ [0x0A] := by simp
  rw [hsplit, lineText_feed, dropReturn_concat]

/-- A carriage return that belongs to a line is a blank at its end. -/
theorem sameRequest_return (line : List UInt8) :
    SameRequest ((Text.Utf8.decode line).mapError .notText)
      ((Text.Utf8.decode (line ++ [0x0D])).mapError .notText) := by
  have hreturn : Text.Utf8.encode (String.ofList [Char.ofNat (13 : UInt8).toNat]) = [0x0D] := by
    decide
  cases hdecode : Text.Utf8.decode (line ++ [0x0D]) with
  | ok text =>
      have hbytes := (Text.Utf8.decode_eq_ok_iff.mp hdecode).symm
      obtain ⟨t, rfl, rfl⟩ := Text.Utf8.exists_of_encode_concat (by decide) hbytes
      rw [Text.Utf8.decode_encode]
      have hblank : Text.isBlank (Char.ofNat (13 : UInt8).toNat) = true := by decide
      exact .inr ⟨t, _, rfl, rfl, (Line.parse_append_blank hblank t).symm,
        (Text.trim_append_blank hblank t).symm⟩
  | error fault =>
      cases hshort : Text.Utf8.decode line with
      | error fault' => exact .inl ⟨_, _, rfl, rfl⟩
      | ok t =>
          rw [Text.Utf8.decode_eq_ok_iff.mp hshort, ← hreturn, ← Text.Utf8.encode_append,
            Text.Utf8.decode_encode] at hdecode
          cases hdecode

theorem Alike.sameRequest {raw raw' : List UInt8} (halike : Alike raw raw') :
    SameRequest (lineText raw) (lineText raw') := by
  rcases halike with rfl | ⟨line, rfl, rfl⟩
  · exact sameRequest_refl _
  · rw [lineText_feed, lineText_return_feed]
    rcases List.eq_nil_or_concat line with rfl | ⟨line, b, rfl⟩
    · exact sameRequest_refl _
    · rw [List.concat_eq_append]
      by_cases hb : b = 0x0D
      · rw [hb, dropReturn_concat]
        exact sameRequest_return line
      · have hkept : dropReturn (line ++ [b]) = line ++ [b] := by simp [dropReturn, hb]
        rw [hkept]
        exact sameRequest_refl _

end Interactive
end VirtualShell
