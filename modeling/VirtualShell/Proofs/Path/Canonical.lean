import Mathlib.Data.List.Induction
import VirtualShell.Proofs.Path.Components

/-!
# Canonical paths

A canonical path is the root, or a canonical path with one more component.  Resolution always ends
in one, whatever was typed, provided that it started in one; and it leaves canonical paths alone.
-/

namespace VirtualShell
namespace Path

/-- The root, or a component below a canonical path. -/
inductive Canonical : String → Prop
  | atRoot : Canonical root
  | beneath {directory name : String} (hdirectory : Canonical directory)
      (hname : IsComponent name.toList) : Canonical (join directory name)

theorem canonical_ofComponents {parts : List (List Char)}
    (hparts : ∀ part ∈ parts, IsComponent part) : Canonical (ofComponents parts) := by
  induction parts using List.reverseRecOn with
  | nil => simpa using Canonical.atRoot
  | append_singleton parts part ih =>
      rw [List.forall_mem_append, List.forall_mem_singleton] at hparts
      rw [ofComponents_append]
      exact .beneath (ih hparts.1) (by simpa using hparts.2)

/-- A canonical path is written from components. -/
theorem Canonical.exists_components {path : String} (hpath : Canonical path) :
    ∃ parts, (∀ part ∈ parts, IsComponent part) ∧ path = ofComponents parts := by
  induction hpath with
  | atRoot => exact ⟨[], by simp⟩
  | @beneath directory name _ hname ih =>
      obtain ⟨parts, hparts, rfl⟩ := ih
      refine ⟨parts ++ [name.toList], ?_, ?_⟩
      · rw [List.forall_mem_append, List.forall_mem_singleton]
        exact ⟨hparts, hname⟩
      · rw [ofComponents_append, String.ofList_toList]

theorem Canonical.isComponent_of_mem {path : String} (hpath : Canonical path)
    {part : List Char} (hpart : part ∈ components path) : IsComponent part := by
  obtain ⟨parts, hparts, rfl⟩ := hpath.exists_components
  exact hparts part (components_ofComponents hparts ▸ hpart)

theorem Canonical.ofComponents_components {path : String} (hpath : Canonical path) :
    ofComponents (components path) = path := by
  obtain ⟨parts, hparts, rfl⟩ := hpath.exists_components
  rw [components_ofComponents hparts]

theorem Canonical.noControl {path : String} (hpath : Canonical path) :
    ∀ c ∈ path.toList, Text.isControl c = false := by
  intro c hc
  induction hpath with
  | atRoot =>
      rw [toList_root, List.mem_singleton] at hc
      subst hc
      decide
  | beneath _ hname ih =>
      rw [toList_join, List.mem_append, List.mem_cons] at hc
      rcases hc with hc | rfl | hc
      · exact ih hc
      · decide
      · exact hname.noControl c hc

/-! ### Following segments -/

/-- What a segment adds to a position is the segment, and no sign for staying or going up. -/
theorem of_mem_follow {position : List (List Char)} {segment part : List Char}
    (hpart : part ∈ follow position segment) :
    part ∈ position ∨ part = segment ∧ part ≠ [] ∧ part ≠ ['.'] ∧ part ≠ ['.', '.'] := by
  rw [follow] at hpart
  split at hpart
  · exact .inl hpart
  · rename_i hstay
    rw [not_or] at hstay
    split at hpart
    · exact .inl (List.dropLast_subset position hpart)
    · rename_i hup
      rcases List.mem_append.mp hpart with hpart | hpart
      · exact .inl hpart
      · obtain rfl : part = segment := List.mem_singleton.mp hpart
        exact .inr ⟨rfl, hstay.1, hstay.2, hup⟩

theorem of_mem_foldl_follow {segments position : List (List Char)} {part : List Char}
    (hpart : part ∈ segments.foldl follow position) :
    part ∈ position ∨ part ∈ segments ∧ part ≠ [] ∧ part ≠ ['.'] ∧ part ≠ ['.', '.'] := by
  induction segments generalizing position with
  | nil => exact .inl hpart
  | cons segment segments ih =>
      rcases ih hpart with hfollow | ⟨hlater, hsigns⟩
      · rcases of_mem_follow hfollow with hposition | ⟨rfl, hsigns⟩
        · exact .inl hposition
        · exact .inr ⟨List.mem_cons_self, hsigns⟩
      · exact .inr ⟨List.mem_cons_of_mem _ hlater, hsigns⟩

theorem isComponent_of_mem_foldl_follow {segments position : List (List Char)} {part : List Char}
    (hposition : ∀ p ∈ position, IsComponent p)
    (hsegments : ∀ s ∈ segments, separator ∉ s ∧ ∀ c ∈ s, Text.isControl c = false)
    (hpart : part ∈ segments.foldl follow position) : IsComponent part := by
  rcases of_mem_foldl_follow hpart with hmem | ⟨hmem, hne, hdot, hdots⟩
  · exact hposition part hmem
  · exact ⟨hne, hdot, hdots, (hsegments part hmem).1, (hsegments part hmem).2⟩

/-- Components are followed downwards. -/
theorem foldl_follow {parts : List (List Char)} (hparts : ∀ part ∈ parts, IsComponent part)
    (position : List (List Char)) : parts.foldl follow position = position ++ parts := by
  induction parts generalizing position with
  | nil => simp
  | cons part parts ih =>
      rw [List.forall_mem_cons] at hparts
      have hpart : follow position part = position ++ [part] := by
        simp [follow, hparts.1.ne_nil, hparts.1.ne_dot, hparts.1.ne_dots]
      rw [List.foldl_cons, hpart, ih hparts.2, List.append_assoc, List.singleton_append]

/-! ### Resolution -/

theorem start_spec (raw : String) {cwd : String} (hcwd : Canonical cwd) :
    (∀ part ∈ (start raw cwd).1, IsComponent part) ∧
      ∀ c ∈ (start raw cwd).2, c ∈ raw.toList := by
  rw [start]
  split
  · rename_i hraw
    exact ⟨by simp, fun c hc => by simp [hraw, hc]⟩
  · rename_i hraw
    exact ⟨by simp, fun c hc => by simp [hraw, hc]⟩
  · exact ⟨fun part hpart => hcwd.isComponent_of_mem hpart, fun c hc => hc⟩

/-- Whatever was typed, resolution ends in a canonical path. -/
theorem Canonical.of_resolve {raw cwd path : String} (hcwd : Canonical cwd)
    (hresolve : resolve raw cwd = .ok path) : Canonical path := by
  rw [resolve] at hresolve
  split at hresolve
  · cases hresolve
  · rename_i hcontrol
    split at hresolve
    · cases hresolve
      exact .atRoot
    · cases hresolve
      obtain ⟨hposition, hrest⟩ := start_spec raw hcwd
      refine canonical_ofComponents fun part hpart => ?_
      refine isComponent_of_mem_foldl_follow hposition (fun segment hsegment => ?_) hpart
      obtain ⟨hseparator, hsubset⟩ := of_mem_split hsegment
      refine ⟨hseparator, fun c hc => ?_⟩
      -- a segment has no characters but those of the text
      have hnone : ∀ d ∈ raw.toList, Text.isControl d = false := by simpa using hcontrol
      exact hnone c (hrest c (hsubset c hc))

/-- Only control characters are refused. -/
theorem resolve_eq_error_iff {raw cwd : String} {e : PathError} :
    resolve raw cwd = .error e ↔
      raw.toList.any Text.isControl = true ∧ e = .controlCharacter raw := by
  rw [resolve]
  split
  · rename_i hcontrol
    simp only [hcontrol, Except.error.injEq, true_and]
    exact eq_comm
  · rename_i hcontrol
    split <;> simp [hcontrol]

/-- Canonical paths mean themselves, from everywhere. -/
theorem Canonical.resolve_self {path : String} (hpath : Canonical path) (cwd : String) :
    resolve path cwd = .ok path := by
  have hcontrol : ¬ path.toList.any Text.isControl = true := by
    simpa using hpath.noControl
  obtain ⟨parts, hparts, rfl⟩ := hpath.exists_components
  rw [resolve, if_neg hcontrol]
  split
  · rename_i hroot
    rcases hroot with hroot | hroot
    · have := congrArg String.toList hroot
      simp [toList_ofComponents] at this
    · rw [hroot]
  · rename_i hroot
    cases parts with
    | nil => simp at hroot
    | cons part parts =>
        -- below the root everything is followed from the root
        have hstart : start (ofComponents (part :: parts)) cwd =
            ([], part ++ parts.flatMap fun p => separator :: p) := by
          simp [start, toList_ofComponents, separator]
        have hnone : ∀ p ∈ part :: parts, separator ∉ p := fun p hp => (hparts p hp).noSeparator
        rw [List.forall_mem_cons] at hnone
        rw [hstart]
        simp only [split_append_flatMap hnone.1 hnone.2, foldl_follow hparts, List.nil_append]

/-- Canonical paths are the texts that mean themselves. -/
theorem canonical_iff_resolve {path : String} :
    Canonical path ↔ resolve path root = .ok path :=
  ⟨fun hpath => hpath.resolve_self root, fun hresolve => .of_resolve .atRoot hresolve⟩

instance (path : String) : Decidable (Canonical path) :=
  decidable_of_iff _ canonical_iff_resolve.symm

/-- Canonical paths are the root and whatever is written below it from components. -/
theorem canonical_iff_components {path : String} :
    Canonical path ↔ ∃ parts : List (List Char), (∀ part ∈ parts, IsComponent part) ∧
      path.toList = '~' :: parts.flatMap fun part => separator :: part := by
  constructor
  · intro hpath
    obtain ⟨parts, hparts, rfl⟩ := hpath.exists_components
    exact ⟨parts, hparts, toList_ofComponents parts⟩
  · rintro ⟨parts, hparts, hpath⟩
    have heq : path = ofComponents parts := by
      apply String.toList_inj.mp
      rw [hpath, toList_ofComponents]
    exact heq ▸ canonical_ofComponents hparts

/-- A single point means the working directory. -/
theorem Canonical.resolve_dot {cwd : String} (hcwd : Canonical cwd) :
    resolve "." cwd = .ok cwd := by
  have hstart : start "." cwd = (components cwd, ['.']) := rfl
  have hstay : (split ['.']).foldl follow (components cwd) = components cwd := by
    simp [split, follow, separator]
  rw [resolve, if_neg (by decide), if_neg (by decide), hstart]
  simp only [hstay, hcwd.ofComponents_components]

/-- From a canonical working directory, what is typed is refused if it holds a control character,
and otherwise means a canonical path, which is written from components and means itself from
everywhere.  So resolving once more, from any working directory, changes nothing. -/
theorem resolve_settles {cwd : String} (hcwd : Canonical cwd) (raw : String) :
    (∀ e, resolve raw cwd = .error e ↔
      (∃ c ∈ raw.toList, Text.isControl c = true) ∧ e = .controlCharacter raw) ∧
    ((∀ c ∈ raw.toList, Text.isControl c = false) →
      ∃ path, resolve raw cwd = .ok path ∧ Canonical path) ∧
    (∀ path, Canonical path ↔ ∃ parts : List (List Char), (∀ part ∈ parts, IsComponent part) ∧
      path.toList = '~' :: parts.flatMap fun part => separator :: part) ∧
    (∀ path, Canonical path → ∀ cwd', resolve path cwd' = .ok path) ∧
    ∀ cwd', (do resolve (← resolve raw cwd) cwd') = resolve raw cwd := by
  refine ⟨fun e => ?_, fun hnone => ?_, fun _ => canonical_iff_components,
    fun path hpath => hpath.resolve_self, fun cwd' => ?_⟩
  · rw [resolve_eq_error_iff, List.any_eq_true]
  · cases hresolve : resolve raw cwd with
    | error e =>
        obtain ⟨c, hc, hcontrol⟩ := List.any_eq_true.mp (resolve_eq_error_iff.mp hresolve).1
        rw [hnone c hc] at hcontrol
        cases hcontrol
    | ok path => exact ⟨path, rfl, hcwd.of_resolve hresolve⟩
  · cases hresolve : resolve raw cwd with
    | error e => rfl
    | ok path => exact (hcwd.of_resolve hresolve).resolve_self cwd'

/-- A component may be named like the root. -/
theorem resolve_settles_tilde :
    Canonical "~/home/~" ∧ resolve "../~/./x//" "~/home/~" = .ok "~/home/~/x" ∧
      Canonical "~/home/~/x" ∧
      (do resolve (← resolve "../~/./x//" "~/home/~") "~") =
        resolve "../~/./x//" "~/home/~" := by
  have hcwd : Canonical "~/home/~" := by decide +kernel
  obtain ⟨-, hmeans, -, -, hagain⟩ := resolve_settles hcwd "../~/./x//"
  have hresolve : resolve "../~/./x//" "~/home/~" = .ok "~/home/~/x" := by decide +kernel
  obtain ⟨path, hpath, hcanonical⟩ := hmeans (by simp [Text.isControl])
  rw [hresolve, Except.ok.injEq] at hpath
  exact ⟨hcwd, hresolve, hpath ▸ hcanonical, hagain "~"⟩

end Path
end VirtualShell
