import VirtualShell.Proofs.Path.Containment
import VirtualShell.Proofs.SortedMap
import VirtualShell.Proofs.Text.Utf8
import VirtualShell.Store.Memory

/-!
# What a memory store answers

The children of a path are found by scanning a stretch of the sorted keys.  The stretch misses
nothing: the keys with a given stem stand together, and the first of them is not before the stem.
So the scan finds exactly the stored paths with one more component.
-/

namespace VirtualShell
namespace MemoryStore

/-! ### Keys with a stem stand together -/

theorem not_lt_of_prefix {stem key : List Char} (hstem : stem <+: key) : ¬ key < stem := by
  obtain ⟨rest, rfl⟩ := hstem
  induction stem with
  | nil => simp
  | cons c stem ih =>
      rw [List.cons_append, List.cons_lt_cons_iff]
      rintro (hlt | ⟨-, hlt⟩)
      · exact Std.Irrefl.irrefl _ hlt
      · exact ih hlt

/-- What lies between a stem and a key with that stem has the stem too. -/
theorem prefix_of_lt_of_prefix {stem key later : List Char} (hkey : ¬ key < stem)
    (hlater : key < later) (hstem : stem <+: later) : stem <+: key := by
  induction stem generalizing key later with
  | nil => exact List.nil_prefix
  | cons c stem ih =>
      obtain ⟨rest, rfl⟩ := hstem
      cases key with
      | nil => exact absurd (List.nil_lt_cons c stem) hkey
      | cons d key =>
          rw [List.cons_append, List.cons_lt_cons_iff] at hlater
          rw [List.cons_lt_cons_iff, not_or] at hkey
          rcases hlater with hlt | ⟨rfl, hlater⟩
          · exact absurd hlt hkey.1
          · have hrest : ¬ key < stem := fun hlt => hkey.2 ⟨rfl, hlt⟩
            exact List.cons_prefix_cons.mpr ⟨rfl, ih hrest hlater (List.prefix_append _ _)⟩

theorem takeWhile_eq_filter {α : Type} {p : α → Bool} {xs : List α}
    (hxs : xs.Pairwise fun a b => p b = true → p a = true) : xs.takeWhile p = xs.filter p := by
  induction xs with
  | nil => rfl
  | cons x xs ih =>
      obtain ⟨hx, hxs⟩ := List.pairwise_cons.mp hxs
      cases hp : p x with
      | true => simp [hp, ih hxs]
      | false =>
          have hnone : ∀ y ∈ xs, ¬ p y = true := fun y hy hpy => by simp [hx y hy hpy] at hp
          simp [hp, List.filter_eq_nil_iff.mpr hnone]

theorem filter_dropWhile {α : Type} {p q : α → Bool} {xs : List α}
    (hpq : ∀ x, q x = true → ¬ p x = true) : (xs.dropWhile q).filter p = xs.filter p := by
  induction xs with
  | nil => rfl
  | cons x xs ih =>
      cases hq : q x with
      | true => simp [hq, hpq x hq, ih]
      | false => simp [hq]

theorem not_of_mem_dropWhile {α : Type} {q : α → Bool} {xs : List α}
    (hxs : xs.Pairwise fun a b => q b = true → q a = true) {x : α} (hx : x ∈ xs.dropWhile q) :
    ¬ q x = true := by
  induction xs with
  | nil => simp at hx
  | cons y ys ih =>
      obtain ⟨hy, hys⟩ := List.pairwise_cons.mp hxs
      cases hq : q y with
      | true => exact ih hys (by simpa [hq] using hx)
      | false =>
          have hmem : x ∈ y :: ys := by simpa [hq] using hx
          rcases List.mem_cons.mp hmem with rfl | hmem
          · simp [hq]
          · intro hqx
            simp [hy x hmem hqx] at hq

/-- The scan finds what a look at every key would find. -/
theorem children_eq_filter (s : MemoryStore) (path : String) :
    s.children path =
      s.nodes.keys.filter fun key => Path.isDirectChild key (Path.childStem path) := by
  have hkeys := SortedMap.pairwise_keys s.nodes
  -- what is dropped stands before what is kept, and what has the stem stands together after it
  have hdrop : s.nodes.keys.Pairwise fun a b =>
      decide (b < Path.childStem path) = true → decide (a < Path.childStem path) = true :=
    hkeys.imp fun hlt hb => decide_eq_true (SortKey.lt_trans hlt (of_decide_eq_true hb))
  have hstretch : (s.nodes.keys.dropWhile (· < Path.childStem path)).Pairwise fun a b =>
      (Path.childStem path).toList.isPrefixOf b.toList = true →
        (Path.childStem path).toList.isPrefixOf a.toList = true := by
    refine (hkeys.sublist (List.dropWhile_sublist _)).imp_of_mem fun ha _ hlt hb => ?_
    have hfirst := not_of_mem_dropWhile hdrop ha
    rw [decide_eq_true_eq, String.lt_iff] at hfirst
    rw [List.isPrefixOf_iff_prefix] at hb ⊢
    exact prefix_of_lt_of_prefix hfirst (String.lt_iff.mp hlt) hb
  have hbefore : ∀ key : String, decide (key < Path.childStem path) = true →
      ¬ Path.isDirectChild key (Path.childStem path) = true := by
    intro key hlt hchild
    rw [Path.isDirectChild, Bool.and_eq_true, List.isPrefixOf_iff_prefix] at hchild
    exact not_lt_of_prefix hchild.1 (String.lt_iff.mp (of_decide_eq_true hlt))
  rw [children, takeWhile_eq_filter hstretch, List.filter_filter, ← filter_dropWhile hbefore]
  congr 1
  funext key
  cases hstem : (Path.childStem path).toList.isPrefixOf key.toList <;>
    simp [Path.isDirectChild, hstem]

/-- Whatever is stored, the children of a path are what a look at every key finds: the keys that
are the path, a separator and a name that is not empty and has no separator.  They come in the
order of their bytes, each of them once. -/
theorem children_exact (s : MemoryStore) (path : String) :
    (s.children path =
      s.nodes.keys.filter fun key => Path.isDirectChild key (Path.childStem path)) ∧
    (∀ key, key ∈ s.children path ↔ (s.nodes.find? key).isSome ∧
      ∃ name, name ≠ "" ∧ Path.separator ∉ name.toList ∧ key = path ++ "/" ++ name) ∧
    (s.children path).Pairwise (fun a b => Text.Utf8.encode a < Text.Utf8.encode b) ∧
    (s.children path).Nodup := by
  have hscan := children_eq_filter s path
  refine ⟨hscan, fun key => ?_, ?_, ?_⟩
  · rw [hscan, List.mem_filter, SortedMap.mem_keys_iff, ← Option.isSome_iff_exists,
      Path.isDirectChild_iff]
    rfl
  · rw [hscan]
    exact ((SortedMap.pairwise_keys s.nodes).imp Text.Utf8.encode_lt).filter _
  · rw [hscan]
    exact (SortedMap.nodup_keys s.nodes).filter _

/-- What sorts around the children is not among them: a longer name, an empty one, what is deeper,
and what only begins with the same letters. -/
example :
    children
      { nodes := ["~/a!x", "~/a", "~/a/", "~/a/b/c", "~/a/é", "~/a/b", "~/a0"].foldl
          (fun nodes path => nodes.insert path (.file path "" 0 0)) .empty
        refusesWrites := false } "~/a" = ["~/a/b", "~/a/é"] := by
  decide +kernel

end MemoryStore
end VirtualShell
