import Mathlib.Data.List.Basic
import Mathlib.Data.List.TakeWhile

/-!
# Runs between separators

`List.splitOnP` cuts a list at its separators.  Some of the pieces may be empty; the others are the
runs of the list, the stretches without separators that nothing could be added to at either end.
`runs_splitOnP` says that there are no other runs and that the pieces come in their order.
-/

namespace VirtualShell

variable {α : Type} {p : α → Bool}

/-- A list without separators, or such a list with a separator and one more list behind it. -/
theorem splitOnP_induction {motive : List α → Prop}
    (whole : ∀ part, (∀ x ∈ part, p x = false) → motive part)
    (cut : ∀ part sep rest, (∀ x ∈ part, p x = false) → p sep = true → motive rest →
      motive (part ++ sep :: rest)) (xs : List α) : motive xs := by
  induction hlength : xs.length using Nat.strongRecOn generalizing xs with
  | ind n ih =>
      have hfree : ∀ x ∈ xs.takeWhile (! p ·), p x = false := fun x hx => by
        simpa using List.mem_takeWhile_imp hx
      have hsplit := List.takeWhile_append_dropWhile (p := (! p ·)) (l := xs)
      cases hdrop : xs.dropWhile (! p ·) with
      | nil =>
          rw [hdrop, List.append_nil] at hsplit
          exact hsplit ▸ whole _ hfree
      | cons sep rest =>
          have hsep : p sep = true := by
            have hhead := List.head?_dropWhile_not (! p ·) xs
            rw [hdrop] at hhead
            simpa using hhead
          rw [hdrop] at hsplit
          rw [← hsplit] at hlength ⊢
          refine cut _ sep rest hfree hsep (ih rest.length ?_ rest rfl)
          rw [List.length_append, List.length_cons] at hlength
          omega

/-- The members of the pieces are those of the list, without the separators. -/
theorem exists_mem_splitOnP_iff {xs : List α} {x : α} :
    (∃ part ∈ xs.splitOnP p, x ∈ part) ↔ x ∈ xs ∧ p x = false := by
  induction xs using splitOnP_induction (p := p) with
  | whole part hpart =>
      rw [List.splitOnP_eq_singleton hpart]
      simpa using hpart x
  | cut part sep rest hpart hsep ih =>
      have hhead : x ∈ part ↔ x ∈ part ∧ p x = false :=
        ⟨fun hx => ⟨hx, hpart x hx⟩, And.left⟩
      have hnot : ¬(x = sep ∧ p x = false) := by
        rintro ⟨rfl, hx⟩
        rw [hsep] at hx
        cases hx
      rw [List.splitOnP_append_cons_of_forall_mem hpart sep hsep, List.exists_mem_cons_iff, ih,
        List.mem_append, List.mem_cons, or_and_right, or_and_right, ← hhead, or_iff_right hnot]

/-- The pieces hold no separator, and nothing that the list does not hold. -/
theorem of_mem_splitOn [BEq α] [LawfulBEq α] {sep : α} {xs part : List α}
    (hpart : part ∈ xs.splitOn sep) : sep ∉ part ∧ ∀ x ∈ part, x ∈ xs := by
  rw [List.splitOn_eq_splitOnP] at hpart
  refine ⟨fun hsep => ?_, fun x hx => (exists_mem_splitOnP_iff.mp ⟨part, hpart, hx⟩).1⟩
  exact absurd (exists_mem_splitOnP_iff.mp ⟨part, hpart, hsep⟩).2 (by simp)

/-! ### Runs -/

/-- The members from `start` up to `stop` are a run: there are some, none of them is a separator,
and there is no member before them or behind them that could be added. -/
structure IsRun (p : α → Bool) (xs : List α) (start stop : Nat) : Prop where
  lt : start < stop
  inside {k : Nat} (hstart : start ≤ k) (hstop : k < stop) : xs[k]?.map p = some false
  before {k : Nat} (hk : k + 1 = start) : xs[k]?.map p = some true
  after : xs[stop]?.map p ≠ some false

/-- The places of all runs of a list, from the first one to the last one. -/
structure Runs (p : α → Bool) (xs : List α) (places : List (Nat × Nat)) : Prop where
  ordered : places.Pairwise fun earlier later => earlier.2 < later.1
  mem_iff (start stop : Nat) : (start, stop) ∈ places ↔ IsRun p xs start stop

/-- A list has its runs in one way only. -/
theorem Runs.unique {xs : List α} {places places' : List (Nat × Nat)} (hruns : Runs p xs places)
    (hruns' : Runs p xs places') : places = places' := by
  have hlt {places : List (Nat × Nat)} (hruns : Runs p xs places) :
      ∀ place ∈ places, place.1 < place.2 := fun place hplace =>
    ((hruns.mem_iff place.1 place.2).mp hplace).lt
  have hnodup {places : List (Nat × Nat)} (hruns : Runs p xs places) : places.Nodup :=
    hruns.ordered.imp_of_mem fun {place later} hplace _ horder heq => by
      have := hlt hruns place hplace
      subst heq
      omega
  have hperm : places.Perm places' :=
    (List.perm_ext_iff_of_nodup (hnodup hruns) (hnodup hruns')).mpr fun place =>
      (hruns.mem_iff place.1 place.2).trans (hruns'.mem_iff place.1 place.2).symm
  refine hperm.eq_of_pairwise ?_ hruns.ordered hruns'.ordered
  intro place later hplace hlater horder hreverse
  have := hlt hruns place hplace
  have := hlt hruns' later hlater
  omega

/-- The members at a place. -/
def stretch (xs : List α) (place : Nat × Nat) : List α :=
  (xs.drop place.1).take (place.2 - place.1)

section First

variable {xs : List α} {n : Nat} (hfree : ∀ k < n, xs[k]?.map p = some false)
  (hend : xs[n]?.map p ≠ some false)

include hfree hend

/-- What stands before the first separator is a run if it is anything, and all other runs stand
behind the separator. -/
theorem isRun_cases {start stop : Nat} (hrun : IsRun p xs start stop) :
    (start = 0 ∧ stop = n) ∨ n < start := by
  by_cases hn : n < start
  · exact .inr hn
  · have hstart : start < n := by
      refine Nat.lt_of_le_of_ne (Nat.le_of_not_lt hn) fun heq => ?_
      exact hend (heq ▸ hrun.inside (Nat.le_refl _) hrun.lt)
    refine .inl ⟨?_, Nat.le_antisymm (Nat.le_of_not_lt fun hlong => ?_)
      (Nat.le_of_not_lt fun hshort => hrun.after (hfree stop hshort))⟩
    · cases start with
      | zero => rfl
      | succ k =>
          have hbefore := hrun.before rfl
          rw [hfree k (by omega)] at hbefore
          cases hbefore
    · exact hend (hrun.inside (by omega) hlong)

theorem isRun_first (hn : 0 < n) : IsRun p xs 0 n where
  lt := hn
  inside _ hk := hfree _ hk
  before hk := by omega
  after := hend

end First

section Cut

variable {part : List α} (hpart : ∀ x ∈ part, p x = false)

include hpart

theorem isRun_whole {start stop : Nat} :
    IsRun p part start stop ↔ part ≠ [] ∧ start = 0 ∧ stop = part.length := by
  have hfree : ∀ k < part.length, part[k]?.map p = some false := by
    intro k hk
    rw [List.getElem?_eq_getElem hk, Option.map_some, hpart _ (List.getElem_mem hk)]
  have hend : part[part.length]?.map p ≠ some false := by simp
  constructor
  · intro hrun
    rcases isRun_cases hfree hend hrun with ⟨rfl, rfl⟩ | hlate
    · exact ⟨List.ne_nil_of_length_pos hrun.lt, rfl, rfl⟩
    · have hinside := hrun.inside (Nat.le_refl _) hrun.lt
      rw [List.getElem?_eq_none (Nat.le_of_lt hlate)] at hinside
      cases hinside
  · rintro ⟨hne, rfl, rfl⟩
    exact isRun_first hfree hend (List.length_pos_iff.mpr hne)

variable {sep : α} (hsep : p sep = true) (rest : List α)

include hsep

theorem isRun_cut {start stop : Nat} :
    IsRun p (part ++ sep :: rest) start stop ↔
      (part ≠ [] ∧ start = 0 ∧ stop = part.length) ∨
        ∃ start' stop', IsRun p rest start' stop' ∧
          start = start' + (part.length + 1) ∧ stop = stop' + (part.length + 1) := by
  have hfree : ∀ k < part.length, (part ++ sep :: rest)[k]?.map p = some false := by
    intro k hk
    rw [List.getElem?_append_left hk, List.getElem?_eq_getElem hk, Option.map_some,
      hpart _ (List.getElem_mem hk)]
  have hcut : (part ++ sep :: rest)[part.length]?.map p = some true := by simp [hsep]
  have hrest (k : Nat) : (part ++ sep :: rest)[k + (part.length + 1)]? = rest[k]? := by
    rw [List.getElem?_append_right (by omega)]
    have hk : k + (part.length + 1) - part.length = k + 1 := by omega
    rw [hk, List.getElem?_cons_succ]
  have hend : (part ++ sep :: rest)[part.length]?.map p ≠ some false := by
    rw [hcut]
    simp
  constructor
  · intro hrun
    rcases isRun_cases hfree hend hrun with ⟨rfl, rfl⟩ | hlate
    · exact .inl ⟨List.ne_nil_of_length_pos hrun.lt, rfl, rfl⟩
    · obtain ⟨start', rfl⟩ : ∃ start', start = start' + (part.length + 1) :=
        ⟨start - (part.length + 1), by omega⟩
      obtain ⟨stop', rfl⟩ : ∃ stop', stop = stop' + (part.length + 1) :=
        ⟨stop - (part.length + 1), by have := hrun.lt; omega⟩
      refine .inr ⟨start', stop', ⟨?_, fun hstart hstop => ?_, fun hk => ?_, ?_⟩, rfl, rfl⟩
      · have := hrun.lt
        omega
      · rw [← hrest]
        exact hrun.inside (by omega) (by omega)
      · rw [← hrest]
        exact hrun.before (by omega)
      · rw [← hrest]
        exact hrun.after
  · rintro (⟨hne, rfl, rfl⟩ | ⟨start', stop', hrun, rfl, rfl⟩)
    · exact isRun_first hfree hend (List.length_pos_iff.mpr hne)
    · refine ⟨by have := hrun.lt; omega, fun {k} hstart hstop => ?_, fun {k} hk => ?_, ?_⟩
      · obtain ⟨k', rfl⟩ : ∃ k', k = k' + (part.length + 1) := ⟨k - (part.length + 1), by omega⟩
        rw [hrest]
        exact hrun.inside (by omega) (by omega)
      · -- before the first run behind the separator there may be the separator itself
        cases start' with
        | zero =>
            obtain rfl : k = part.length := by omega
            exact hcut
        | succ k' =>
            obtain rfl : k = k' + (part.length + 1) := by omega
            rw [hrest]
            exact hrun.before rfl
      · rw [hrest]
        exact hrun.after

end Cut

theorem Runs.whole {part : List α} (hpart : ∀ x ∈ part, p x = false) :
    Runs p part (if part.isEmpty then [] else [(0, part.length)]) where
  ordered := by split <;> simp
  mem_iff start stop := by
    rw [isRun_whole hpart]
    cases part <;> simp

/-- The place that stands later by so many members. -/
def behind (n : Nat) (place : Nat × Nat) : Nat × Nat :=
  (place.1 + n, place.2 + n)

/-- The runs behind a separator stand as much later as what is before them is long. -/
theorem Runs.cut {part rest : List α} {sep : α} {places : List (Nat × Nat)}
    (hpart : ∀ x ∈ part, p x = false) (hsep : p sep = true) (hruns : Runs p rest places) :
    Runs p (part ++ sep :: rest)
      ((if part.isEmpty then [] else [(0, part.length)]) ++
        places.map (behind (part.length + 1))) where
  ordered := by
    have hlater : (places.map (behind (part.length + 1))).Pairwise fun earlier later =>
        earlier.2 < later.1 :=
      List.pairwise_map.mpr (hruns.ordered.imp fun hlt => Nat.add_lt_add_right hlt _)
    split
    · exact hlater
    · refine List.pairwise_cons.mpr ⟨fun place hplace => ?_, hlater⟩
      obtain ⟨place, -, rfl⟩ := List.mem_map.mp hplace
      rw [behind]
      omega
  mem_iff start stop := by
    have hfirst : (start, stop) ∈ (if part.isEmpty then [] else [(0, part.length)]) ↔
        part ≠ [] ∧ start = 0 ∧ stop = part.length := by
      cases part <;> simp
    have hlater : (start, stop) ∈ places.map (behind (part.length + 1)) ↔
        ∃ start' stop', IsRun p rest start' stop' ∧
          start = start' + (part.length + 1) ∧ stop = stop' + (part.length + 1) := by
      simp only [List.mem_map, Prod.exists, behind, Prod.mk.injEq, hruns.mem_iff, eq_comm]
    rw [isRun_cut hpart hsep, List.mem_append, hfirst, hlater]

/-- What stands behind a separator is found as much later as what is before it is long. -/
theorem stretch_behind (part : List α) (sep : α) (rest : List α) (place : Nat × Nat) :
    stretch (part ++ sep :: rest) (behind (part.length + 1) place) = stretch rest place := by
  have hlength : place.2 + (part.length + 1) - (place.1 + (part.length + 1)) =
      place.2 - place.1 := by omega
  rw [stretch, stretch, behind]
  dsimp only
  rw [hlength, Nat.add_comm place.1, Nat.add_comm part.length 1, Nat.add_comm 1, ← List.drop_drop]
  simp

/-- The pieces that are not empty are the runs, from the first one to the last one. -/
theorem runs_splitOnP (p : α → Bool) (xs : List α) :
    ∃ places, Runs p xs places ∧
      ((xs.splitOnP p).filter fun part => !part.isEmpty) = places.map (stretch xs) := by
  induction xs using splitOnP_induction (p := p) with
  | whole part hpart =>
      refine ⟨_, .whole hpart, ?_⟩
      rw [List.splitOnP_eq_singleton hpart]
      cases part <;> simp [stretch]
  | cut part sep rest hpart hsep ih =>
      obtain ⟨places, hruns, hplaces⟩ := ih
      have hlater : places.map (stretch (part ++ sep :: rest) ∘ behind (part.length + 1)) =
          places.map (stretch rest) :=
        List.map_congr_left fun place _ => stretch_behind part sep rest place
      refine ⟨_, hruns.cut hpart hsep, ?_⟩
      rw [List.splitOnP_append_cons_of_forall_mem hpart sep hsep, List.map_append, List.map_map,
        hlater, ← hplaces]
      cases part <;> simp [stretch]

end VirtualShell
