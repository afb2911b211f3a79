import VirtualShell.Store.Durable
import VirtualShell.Store.Memory
import VirtualShell.Total

/-!
# Stores

A store keeps nodes in memory or durably. Both kinds answer the same questions and take the same
changes. The subtree below a path is walked with a list of the paths still to be looked at; every
child's path is longer than its parent's and there are only finitely many keys, so the walk ends.
-/

namespace VirtualShell

/-- A store of either kind. -/
inductive Store where
  | memory (s : MemoryStore)
  | durable (s : DurableStore)

namespace Store

/-- The node under a path. -/
def get : Store → String → Except StorageError (Option Node)
  | .memory s, path => .ok (s.get path)
  | .durable s, path => s.get path

/-- The paths one component below a path, in increasing order. -/
def children : Store → String → List String
  | .memory s, path => s.children path
  | .durable s, path => s.children path

/-- The store after some changes, which take effect together or not at all. -/
def commit : Store → List Change → Except StorageError Store
  | .memory s, changes => (s.commit changes).map .memory
  | .durable s, changes => .ok (.durable (s.commit changes))

/-- The bytes that the store uses. -/
def usage : Store → Nat
  | .memory s => s.usage
  | .durable s => s.usage

/-- The number of keys. -/
def size : Store → Nat
  | .memory s => s.nodes.size
  | .durable s => s.entries.size

/-- The length of the longest key. -/
def extent : Store → Nat
  | .memory s => s.extent
  | .durable s => s.extent

/-! ### The walk below a path -/

theorem le_foldl_max (xs : List Nat) (start : Nat) : start ≤ xs.foldl max start := by
  induction xs generalizing start with
  | nil => exact Nat.le_refl _
  | cons x xs ih => exact Nat.le_trans (Nat.le_max_left _ _) (ih _)

theorem le_foldl_max_of_mem {xs : List Nat} {x : Nat} (h : x ∈ xs) (start : Nat) :
    x ≤ xs.foldl max start := by
  induction xs generalizing start with
  | nil => cases h
  | cons y xs ih =>
    rcases List.mem_cons.1 h with rfl | h
    · exact Nat.le_trans (Nat.le_max_right _ _) (le_foldl_max _ _)
    · exact ih h _

theorem length_childStem (path : String) : (Path.childStem path).length = path.length + 1 := by
  rw [Path.childStem, String.length_append]
  rfl

theorem length_lt_of_isDirectChild {key path : String}
    (h : Path.isDirectChild key (Path.childStem path) = true) : path.length < key.length := by
  simp only [Path.isDirectChild, Bool.and_eq_true, Bool.not_eq_true',
    List.isEmpty_eq_false_iff] at h
  have hdrop := List.length_pos_iff.2 h.2.1
  rw [List.length_drop, length_childStem] at hdrop
  have : key.toList.length = key.length := String.length_toList
  omega

theorem length_le_length_encodeChars (cs : List Char) :
    cs.length ≤ (Text.Utf8.encodeChars cs).length := by
  induction cs with
  | nil => simp
  | cons c cs ih =>
    have : 0 < (String.utf8EncodeChar c).length := by
      rw [String.length_utf8EncodeChar]; exact c.utf8Size_pos
    simp only [Text.Utf8.encodeChars, List.flatMap_cons, List.length_append,
      List.length_cons] at ih ⊢
    omega

theorem length_lt_of_mem_children {s : Store} {path child : String}
    (h : child ∈ s.children path) : path.length < child.length := by
  cases s with
  | memory s => exact length_lt_of_isDirectChild (List.mem_filter.1 h).2
  | durable s => exact length_lt_of_isDirectChild (List.mem_filter.1 h).2

theorem length_children_le_size (s : Store) (path : String) :
    (s.children path).length ≤ s.size := by
  cases s with
  | memory s =>
    refine Nat.le_trans (List.length_filter_le _ _) ?_
    refine Nat.le_trans (List.takeWhile_sublist _).length_le ?_
    refine Nat.le_trans (List.dropWhile_sublist _).length_le ?_
    simp [size, SortedMap.keys, SortedMap.size]
  | durable s =>
    refine Nat.le_trans (List.length_filter_le _ _) ?_
    rw [List.length_map]
    refine Nat.le_trans (List.length_filter_le _ _) ?_
    simp [size, SortedMap.keys, SortedMap.size]

theorem length_lt_extent_of_mem_children {s : Store} {path child : String}
    (h : child ∈ s.children path) : path.length < s.extent := by
  cases s with
  | memory s =>
    have hmem : child ∈ s.nodes.keys :=
      (List.dropWhile_sublist _).subset
        ((List.takeWhile_sublist _).subset (List.mem_filter.1 h).1)
    have := le_foldl_max_of_mem (List.mem_map_of_mem (f := String.length) hmem) 0
    exact Nat.lt_of_lt_of_le (length_lt_of_mem_children (s := .memory s) h) this
  | durable s =>
    obtain ⟨key, hkey, _⟩ := List.mem_map.1 (List.mem_filter.1 h).1
    have hfilter := List.mem_filter.1 hkey
    have hstem := (List.isPrefixOf_iff_prefix.1 hfilter.2).length_le
    have := le_foldl_max_of_mem (List.mem_map_of_mem (f := List.length) hfilter.1) 0
    have hchars := length_le_length_encodeChars (Path.childStem path).toList
    rw [String.length_toList, length_childStem] at hchars
    simp only [extent, DurableStore.extent, Text.Utf8.encode] at hstem ⊢
    omega

/-- How much a path to be looked at adds to what is left of a walk: more than all of its children
together. -/
def weight (s : Store) (path : String) : Nat :=
  Nat.pow (s.size + 1) (s.extent + 1 - path.length)

theorem sum_weight_le {s : Store} {bound : Nat} {paths : List String}
    (h : ∀ path ∈ paths, s.weight path ≤ bound) :
    total (paths.map s.weight) ≤ paths.length * bound := by
  induction paths with
  | nil => exact Nat.zero_le _
  | cons path paths ih =>
    have hfirst := h path List.mem_cons_self
    have hrest := ih fun p hp => h p (List.mem_cons_of_mem _ hp)
    simp only [List.map_cons, total, List.sum_cons, List.length_cons, Nat.add_mul] at hrest ⊢
    omega

theorem sum_weight_children_lt (s : Store) (path : String) :
    total ((s.children path).map s.weight) < s.weight path := by
  rcases hc : s.children path with _ | ⟨child, rest⟩
  · exact Nat.pow_pos (Nat.succ_pos _)
  · rw [← hc]
    have hmem : child ∈ s.children path := hc ▸ List.mem_cons_self
    have hext := length_lt_extent_of_mem_children hmem
    have hle : ∀ c ∈ s.children path,
        s.weight c ≤ Nat.pow (s.size + 1) (s.extent - path.length) := by
      intro c hcm
      have := length_lt_of_mem_children hcm
      exact Nat.pow_le_pow_right (Nat.succ_pos _) (by omega)
    refine Nat.lt_of_le_of_lt (sum_weight_le hle) ?_
    refine Nat.lt_of_le_of_lt (Nat.mul_le_mul_right _ (length_children_le_size s path)) ?_
    have hexp : s.extent + 1 - path.length = (s.extent - path.length) + 1 := by omega
    rw [weight, hexp]
    show _ < Nat.pow (s.size + 1) (s.extent - path.length) * (s.size + 1)
    rw [Nat.mul_comm]
    exact Nat.mul_lt_mul_of_pos_left (Nat.lt_succ_self _) (Nat.pow_pos (Nat.succ_pos _))

/-- Looks at the pending paths, the children of each before the ones that were pending already and
the last of them first. What was looked at is put in front of `found`, so that everything stands
before what it lies below. -/
def walk (s : Store) (pending found : List String) : List String :=
  match pending with
  | [] => found
  | path :: rest => s.walk ((s.children path).reverse ++ rest) (path :: found)
termination_by total (pending.map s.weight)
decreasing_by
  simp only [List.map_append, List.map_reverse, total, List.sum_append_nat, List.sum_reverse_nat,
    List.map_cons, List.sum_cons]
  exact Nat.add_lt_add_right (sum_weight_children_lt s path) _

end Store
end VirtualShell
