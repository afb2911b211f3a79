import VirtualShell.Proofs.History.Deed

/-!
# Reading a history

What a history says of a path: whether it is alive, since when, as what, and with which content.
Everything is said in terms of the last deed of some sort, so one lemma tells what becomes of it
when one more deed is done.
-/

namespace VirtualShell
namespace Deed

/-- The deed writes the file under a path. -/
def Writes (path : String) : Deed → Prop
  | .wrote own _ _ _ => own = path
  | _ => False

/-- What the deed brings into being, if it brings something into being. -/
def kind? : Deed → Option NodeKind
  | .wrote _ _ _ _ => some .file
  | .made _ _ => some .directory
  | .deleted _ => none

/-- The content that the deed writes. -/
def content? : Deed → Option String
  | .wrote _ content _ _ => some content
  | _ => none

/-- When the deed writes. -/
def time? : Deed → Option Timestamp
  | .wrote _ _ time _ => some time
  | _ => none

end Deed

namespace History

/-- There is a deed of some sort at a place in a history. -/
def OccursAt (h : List Deed) (p : Deed → Prop) (i : Nat) : Prop :=
  ∃ deed, h[i]? = some deed ∧ p deed

/-- The last deed of some sort is at a place in a history. -/
def LastAt (h : List Deed) (p : Deed → Prop) (i : Nat) : Prop :=
  OccursAt h p i ∧ ∀ j, i < j → ¬ OccursAt h p j

/-- Something is under a path: the root, or what was born and neither it nor anything above it was
deleted since. -/
def Alive (h : List Deed) (path : String) : Prop :=
  path = Path.root ∨ ∃ i, OccursAt h (Deed.Births path) i ∧
    ∀ j, i < j → ¬ OccursAt h (Deed.Removes path) j

/-- What is under a path was born as a directory or as a file when it was last born. The root is a
directory. -/
def AliveAs (h : List Deed) (path : String) (kind : NodeKind) : Prop :=
  path = Path.root ∧ kind = .directory ∨
    path ≠ Path.root ∧ Alive h path ∧ ∃ i, LastAt h (Deed.Births path) i ∧
      OccursAt h (fun deed => deed.kind? = some kind) i

/-- A file is alive, and the last write since it was last born wrote some content. -/
def HasContent (h : List Deed) (path content : String) : Prop :=
  AliveAs h path .file ∧ ∃ i j, LastAt h (Deed.Births path) i ∧ i ≤ j ∧
    LastAt h (Deed.Writes path) j ∧ OccursAt h (fun deed => deed.content? = some content) j

/-- One path was last born before the other. -/
def BornBefore (h : List Deed) (path other : String) : Prop :=
  ∃ i j, LastAt h (Deed.Births path) i ∧ LastAt h (Deed.Births other) j ∧ i < j

/-! ### One more deed -/

section

variable {h : List Deed} {deed : Deed} {p : Deed → Prop} {i j : Nat}

theorem OccursAt.lt_length (hi : OccursAt h p i) : i < h.length := by
  obtain ⟨deed, hdeed, -⟩ := hi
  exact (List.getElem?_eq_some_iff.mp hdeed).1

theorem occursAt_append_singleton :
    OccursAt (h ++ [deed]) p i ↔ OccursAt h p i ∨ i = h.length ∧ p deed := by
  rcases Nat.lt_trichotomy i h.length with hlt | rfl | hgt
  · have hne : i ≠ h.length := by omega
    simp [OccursAt, List.getElem?_append_left hlt, hne]
  · have hnone : ¬ OccursAt h p h.length := fun hi => Nat.lt_irrefl _ hi.lt_length
    rw [or_iff_right hnone]
    simp [OccursAt]
  · have hne : i ≠ h.length := by omega
    have hbefore : ¬ OccursAt h p i := fun hi => Nat.lt_asymm hgt hi.lt_length
    have hafter : ¬ OccursAt (h ++ [deed]) p i := fun hi => by
      have := hi.lt_length
      rw [List.length_append, List.length_singleton] at this
      omega
    simp [hne, hbefore, hafter]

theorem OccursAt.append (hi : OccursAt h p i) (deed : Deed) : OccursAt (h ++ [deed]) p i :=
  occursAt_append_singleton.mpr (.inl hi)

theorem occursAt_length (hdeed : p deed) : OccursAt (h ++ [deed]) p h.length :=
  occursAt_append_singleton.mpr (.inr ⟨rfl, hdeed⟩)

/-- A deed of the sort is the last one from then on. -/
theorem lastAt_append_of (hdeed : p deed) : LastAt (h ++ [deed]) p i ↔ i = h.length := by
  constructor
  · rintro ⟨hi, hlater⟩
    rcases occursAt_append_singleton.mp hi with hi | ⟨rfl, -⟩
    · exact absurd (occursAt_length hdeed) (hlater _ hi.lt_length)
    · rfl
  · rintro rfl
    refine ⟨occursAt_length hdeed, fun j hj hoccurs => ?_⟩
    have := hoccurs.lt_length
    rw [List.length_append, List.length_singleton] at this
    omega

/-- A deed of another sort does not count. -/
theorem lastAt_append_of_not (hdeed : ¬ p deed) :
    LastAt (h ++ [deed]) p i ↔ LastAt h p i := by
  have hsame : ∀ j, OccursAt (h ++ [deed]) p j ↔ OccursAt h p j := by
    intro j
    rw [occursAt_append_singleton, or_iff_left fun hj => hdeed hj.2]
  simp only [LastAt, hsame]

theorem LastAt.unique (hi : LastAt h p i) (hj : LastAt h p j) : i = j := by
  rcases Nat.lt_trichotomy i j with hlt | heq | hgt
  · exact absurd hj.1 (hi.2 j hlt)
  · exact heq
  · exact absurd hi.1 (hj.2 i hgt)

variable {path other : String}

/-- A path is alive after a deed that bears it, or when it was alive and the deed does not remove
it. -/
theorem alive_append_singleton (hroot : ¬ deed.Removes Path.root) :
    Alive (h ++ [deed]) path ↔
      deed.Births path ∨ Alive h path ∧ ¬ deed.Removes path := by
  constructor
  -- the root is never removed, and any other path was born before or is born now
  · rintro (rfl | ⟨i, hborn, hlater⟩)
    · exact .inr ⟨.inl rfl, hroot⟩
    · rcases occursAt_append_singleton.mp hborn with hborn | ⟨-, hborn⟩
      · refine .inr ⟨.inr ⟨i, hborn, fun j hj hoccurs => ?_⟩, fun hremoves => ?_⟩
        · exact hlater j hj (hoccurs.append deed)
        · exact hlater _ hborn.lt_length (occursAt_length hremoves)
      · exact .inl hborn
  · rintro (hborn | ⟨rfl | ⟨i, hborn, hlater⟩, hspared⟩)
    · refine .inr ⟨h.length, occursAt_length hborn, fun j hj hoccurs => ?_⟩
      have := hoccurs.lt_length
      rw [List.length_append, List.length_singleton] at this
      omega
    · exact .inl rfl
    · refine .inr ⟨i, hborn.append deed, fun j hj hoccurs => ?_⟩
      rcases occursAt_append_singleton.mp hoccurs with hoccurs | ⟨-, hremoves⟩
      · exact hlater j hj hoccurs
      · exact hspared hremoves

theorem BornBefore.append (hborn : BornBefore h path other) (hpath : ¬ deed.Births path)
    (hother : ¬ deed.Births other) : BornBefore (h ++ [deed]) path other := by
  obtain ⟨i, j, hi, hj, hlt⟩ := hborn
  exact ⟨i, j, (lastAt_append_of_not hpath).mpr hi, (lastAt_append_of_not hother).mpr hj, hlt⟩

/-- Whoever was born at all was born before the one that is born now. -/
theorem bornBefore_append (hi : LastAt h (Deed.Births path) i) (hpath : ¬ deed.Births path)
    (hother : deed.Births other) : BornBefore (h ++ [deed]) path other :=
  ⟨i, h.length, (lastAt_append_of_not hpath).mpr hi, (lastAt_append_of hother).mpr rfl,
    hi.1.lt_length⟩

end

end History
end VirtualShell
