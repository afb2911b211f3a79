import Mathlib.Data.List.Nodup
import VirtualShell.SortedMap

/-!
# Looking up in sorted maps

`find?` is the view of a sorted map: every operation is described by what it does to it, and
two maps with the same view are equal.  The order of the entries is used only for the latter and
for the keys, which come in strictly increasing order.
-/

namespace VirtualShell

theorem lookup_cons_ite {κ ν : Type} [DecidableEq κ] (key first : κ) (value : ν)
    (entries : List (κ × ν)) :
    ((first, value) :: entries).lookup key =
      if key = first then some value else entries.lookup key := by
  by_cases hkey : key = first
  · rw [hkey, List.lookup_cons_self, if_pos rfl]
  · rw [List.lookup_cons, beq_eq_false_iff_ne.mpr hkey, if_neg hkey]

namespace SortedMap

variable {κ ν : Type} [LT κ] [DecidableEq κ]

@[simp]
theorem find?_empty (key : κ) : (empty : SortedMap κ ν).find? key = none := rfl

theorem mem_keys_of_find? {m : SortedMap κ ν} {key : κ} {value : ν}
    (hfind : m.find? key = some value) : key ∈ m.keys := by
  obtain ⟨entry, hentry, -⟩ := Option.map_eq_some_iff.mp hfind
  have hkey : entry.1 = key := by simpa using List.find?_some hentry
  exact hkey ▸ List.mem_map_of_mem (List.mem_of_find?_eq_some hentry)

/-- A key is listed exactly if it has a value. -/
theorem mem_keys_iff {m : SortedMap κ ν} {key : κ} :
    key ∈ m.keys ↔ ∃ value, m.find? key = some value := by
  constructor
  · intro hmem
    obtain ⟨entry, hentry, hkey⟩ := List.mem_map.mp hmem
    have hsome : (m.entries.find? fun e => e.1 = key).isSome := by
      rw [List.find?_isSome]
      exact ⟨entry, hentry, by simpa using hkey⟩
    obtain ⟨found, hfound⟩ := Option.isSome_iff_exists.mp hsome
    exact ⟨found.2, by simp [find?, hfound]⟩
  · rintro ⟨value, hfind⟩
    exact mem_keys_of_find? hfind

theorem find?_eq_none_iff {m : SortedMap κ ν} {key : κ} :
    m.find? key = none ↔ key ∉ m.keys := by
  rw [mem_keys_iff]
  cases m.find? key <;> simp

theorem mem_entries_of_find? {m : SortedMap κ ν} {key : κ} {value : ν}
    (hfind : m.find? key = some value) : (key, value) ∈ m.entries := by
  obtain ⟨entry, hentry, hvalue⟩ := Option.map_eq_some_iff.mp hfind
  have hkey : entry.1 = key := by simpa using List.find?_some hentry
  have hpair : entry = (key, value) := Prod.ext hkey hvalue
  exact hpair ▸ List.mem_of_find?_eq_some hentry

/-! ### The operations -/

theorem find?_insertEntry [DecidableLT κ] (key other : κ) (value : ν) (entries : List (κ × ν)) :
    ((insertEntry key value entries).find? fun entry => entry.1 = other).map (·.2) =
      if other = key then some value
      else (entries.find? fun entry => entry.1 = other).map (·.2) := by
  induction entries with
  | nil => by_cases hother : other = key <;> simp [insertEntry, hother, Ne.symm]
  | cons first rest ih =>
      rw [insertEntry]
      by_cases hother : other = key
      · subst hother
        split
        · simp
        · split
          · simp
          · rename_i hne
            simpa [List.find?_cons, Ne.symm hne] using ih
      · split
        · simp [Ne.symm hother]
        · split
          · rename_i heq
            simp [Ne.symm hother, ← heq]
          · by_cases hfirst : first.1 = other
            · simp [hfirst]
            · simpa [hother, hfirst] using ih

@[simp]
theorem find?_insert [DecidableLT κ] [SortKey κ] (m : SortedMap κ ν) (key other : κ) (value : ν) :
    (m.insert key value).find? other = if other = key then some value else m.find? other :=
  find?_insertEntry key other value m.entries

@[simp]
theorem find?_erase (m : SortedMap κ ν) (key other : κ) :
    (m.erase key).find? other = if other = key then none else m.find? other := by
  simp only [find?, erase, List.find?_filter]
  by_cases hother : other = key
  · simp [hother]
  · rw [if_neg hother]
    congr 2
    funext entry
    by_cases hentry : entry.1 = other <;> simp [hentry, hother]

/-! ### Keys in order -/

omit [DecidableEq κ] in
theorem pairwise_keys (m : SortedMap κ ν) : m.keys.Pairwise (· < ·) :=
  List.pairwise_map.mpr m.ordered

section Ordered

variable [Std.Irrefl fun a b : κ => a < b]

omit [DecidableEq κ] in
theorem nodup_keys (m : SortedMap κ ν) : m.keys.Nodup := by
  refine (pairwise_keys m).imp ?_
  rintro a b hlt rfl
  exact Std.Irrefl.irrefl _ hlt

theorem find?_of_mem_entries {m : SortedMap κ ν} {key : κ} {value : ν}
    (hmem : (key, value) ∈ m.entries) : m.find? key = some value := by
  obtain ⟨found, hfound⟩ := mem_keys_iff.mp (List.mem_map_of_mem (f := (·.1)) hmem)
  have hnodup : (m.entries.map (·.1)).Nodup := nodup_keys m
  have hentry : (key, found) = (key, value) :=
    List.inj_on_of_nodup_map hnodup (mem_entries_of_find? hfound) hmem rfl
  exact hfound.trans (congrArg (fun entry => some entry.2) hentry)

theorem find?_eq_some_iff {m : SortedMap κ ν} {key : κ} {value : ν} :
    m.find? key = some value ↔ (key, value) ∈ m.entries :=
  ⟨mem_entries_of_find?, find?_of_mem_entries⟩

end Ordered

omit [DecidableEq κ] in
/-- Two lists in strictly increasing order with the same members are the same. -/
theorem entries_eq_of_mem_iff [Std.Asymm fun a b : κ => a < b] {xs ys : List (κ × ν)}
    (hxs : xs.Pairwise fun a b => a.1 < b.1) (hys : ys.Pairwise fun a b => a.1 < b.1)
    (hmem : ∀ entry, entry ∈ xs ↔ entry ∈ ys) : xs = ys := by
  have hirrefl : ∀ a b : κ × ν, a.1 < b.1 → a ≠ b := by
    rintro a b hlt rfl
    exact Std.Asymm.asymm _ _ hlt hlt
  have hperm : xs.Perm ys :=
    (List.perm_ext_iff_of_nodup (hxs.imp (hirrefl _ _)) (hys.imp (hirrefl _ _))).mpr hmem
  exact hperm.eq_of_pairwise (fun a b _ _ hab hba => absurd hba (Std.Asymm.asymm _ _ hab)) hxs hys

/-- A sorted map is determined by what is found in it. -/
theorem ext_find? [Std.Asymm fun a b : κ => a < b] {m m' : SortedMap κ ν}
    (hfind : ∀ key, m.find? key = m'.find? key) : m = m' := by
  have hentries : m.entries = m'.entries := by
    refine entries_eq_of_mem_iff m.ordered m'.ordered fun entry => ?_
    rw [← find?_eq_some_iff (m := m), ← find?_eq_some_iff (m := m'), hfind]
  cases m
  cases m'
  simp_all

end SortedMap
end VirtualShell
