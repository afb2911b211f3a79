import Mathlib.Data.List.Perm.Subperm
import VirtualShell.Proofs.Routine.Steps
import VirtualShell.Proofs.Store.Memory
import VirtualShell.Proofs.Store.Walk

/-!
# The order of a walk

A walk over a store in memory meets every path once, and what lies below a path before the path.
While it goes on, no pending path lies within another one, and nothing that was found lies within a
pending path; so what is found next lies above nothing that comes later.  Keys may be any texts: the
paths above them may be missing, and components may be empty.
-/

namespace VirtualShell

namespace Path

/-- Neither path lies within the other. -/
def Apart (path other : String) : Prop :=
  ¬ isWithin path other = true ∧ ¬ isWithin other path = true

theorem Apart.symm {path other : String} (hapart : Apart path other) : Apart other path :=
  ⟨hapart.2, hapart.1⟩

variable {directory name other : String}

/-- Siblings lie apart. -/
theorem apart_join_join {name' : String} (hname : separator ∉ name.toList)
    (hname' : separator ∉ name'.toList) (hne : join directory name ≠ join directory name') :
    Apart (join directory name) (join directory name') := by
  constructor
  · rw [isWithin_join_iff hname, not_or]
    exact ⟨hne, not_isWithin_join⟩
  · rw [isWithin_join_iff hname', not_or]
    exact ⟨hne.symm, not_isWithin_join⟩

/-- What lies apart from a directory lies apart from its entries. -/
theorem Apart.join (hname : separator ∉ name.toList) (hapart : Apart directory other) :
    Apart (Path.join directory name) other := by
  constructor
  · rw [isWithin_join_iff hname, not_or]
    refine ⟨?_, hapart.1⟩
    rintro rfl
    exact hapart.2 (isWithin_join_self hname)
  · intro hwithin
    exact hapart.2 (isWithin_trans hwithin (isWithin_join_self hname))

end Path

namespace MemoryStore

variable (s : MemoryStore) {path child other : String}

theorem exists_of_mem_children (hchild : child ∈ s.children path) :
    ∃ name : String, Path.separator ∉ name.toList ∧ child = Path.join path name := by
  rw [children_eq_filter, List.mem_filter] at hchild
  obtain ⟨name, -, hname, hjoin⟩ := Path.isDirectChild_iff.mp hchild.2
  exact ⟨name, hname, hjoin⟩

theorem isSome_of_mem_children (hchild : child ∈ s.children path) : (s.get child).isSome := by
  rw [children_eq_filter, List.mem_filter, SortedMap.mem_keys_iff] at hchild
  exact Option.isSome_iff_exists.mpr hchild.1

/-- Children are different, and so they lie apart. -/
theorem pairwise_apart_children (path : String) : (s.children path).Pairwise Path.Apart := by
  have hnodup : (s.children path).Nodup := by
    rw [children_eq_filter]
    exact (SortedMap.nodup_keys s.nodes).filter _
  refine hnodup.imp_of_mem fun hfirst hsecond hne => ?_
  obtain ⟨name, hname, rfl⟩ := s.exists_of_mem_children hfirst
  obtain ⟨name', hname', rfl⟩ := s.exists_of_mem_children hsecond
  exact Path.apart_join_join hname hname' hne

theorem isWithin_of_mem_children (hchild : child ∈ s.children path) :
    Path.isWithin child path = true := by
  obtain ⟨name, hname, rfl⟩ := s.exists_of_mem_children hchild
  exact Path.isWithin_join_self hname

theorem not_isWithin_of_mem_children (hchild : child ∈ s.children path) :
    ¬ Path.isWithin path child = true := by
  obtain ⟨name, -, rfl⟩ := s.exists_of_mem_children hchild
  exact Path.not_isWithin_join

theorem apart_of_mem_children (hchild : child ∈ s.children path)
    (hapart : Path.Apart path other) : Path.Apart child other := by
  obtain ⟨name, hname, rfl⟩ := s.exists_of_mem_children hchild
  exact hapart.join hname

/-! ### One path after the other -/

/-- How a walk stands: what is pending lies apart, nothing that was found lies within it, and of
what was found nothing lies within what stands before it. -/
structure InOrder (pending found : List String) : Prop where
  apart : pending.Pairwise Path.Apart
  fresh : ∀ path ∈ pending, ∀ other ∈ found, ¬ Path.isWithin other path = true
  sorted : found.Pairwise fun earlier later => ¬ Path.isWithin later earlier = true

/-- Looking at a path keeps the walk in order. -/
theorem InOrder.step {path : String} {rest found : List String}
    (horder : InOrder (path :: rest) found) :
    InOrder ((s.children path).reverse ++ rest) (path :: found) := by
  obtain ⟨hpath, hrest⟩ := List.pairwise_cons.mp horder.apart
  refine ⟨?_, ?_, ?_⟩
  · rw [List.pairwise_append, List.pairwise_reverse]
    refine ⟨(s.pairwise_apart_children path).imp Path.Apart.symm, hrest, ?_⟩
    intro child hchild other hother
    exact s.apart_of_mem_children (List.mem_reverse.mp hchild) (hpath other hother)
  · intro pending hpending other hother
    rcases List.mem_append.mp hpending with hchild | hwaiting
    · have hchild := List.mem_reverse.mp hchild
      rcases List.mem_cons.mp hother with rfl | hfound
      · exact s.not_isWithin_of_mem_children hchild
      · intro hwithin
        exact horder.fresh path List.mem_cons_self other hfound
          (Path.isWithin_trans hwithin (s.isWithin_of_mem_children hchild))
    · rcases List.mem_cons.mp hother with rfl | hfound
      · exact (hpath pending hwaiting).1
      · exact horder.fresh pending (List.mem_cons_of_mem _ hwaiting) other hfound
  · exact List.pairwise_cons.mpr ⟨horder.fresh path List.mem_cons_self, horder.sorted⟩

/-- A walk that is in order ends with a list in which nothing lies within what stands before it. -/
theorem InOrder.pairwise_walk {pending found : List String} (horder : InOrder pending found) :
    ((Store.memory s).walk pending found).Pairwise fun earlier later =>
      ¬ Path.isWithin later earlier = true := by
  induction pending, found using Store.walk.induct (.memory s) with
  | case1 found =>
      rw [Store.walk]
      exact horder.sorted
  | case2 found path rest ih =>
      rw [Store.walk]
      exact ih (horder.step s)

theorem inOrder_start (path : String) : InOrder [path] [] where
  apart := List.pairwise_singleton _ _
  fresh _ _ _ hother := absurd hother List.not_mem_nil
  sorted := List.Pairwise.nil

/-! ### The whole walk -/

variable (start : String)

theorem nodup_walk : ((Store.memory s).walk [start] []).Nodup := by
  refine ((inOrder_start start).pairwise_walk s).imp ?_
  rintro earlier later hwithin rfl
  exact hwithin (Path.isWithin_self _)

/-- A walk finds the path it starts from, and the keys that are reached from there. -/
theorem mem_walk_start (key : String) :
    key ∈ (Store.memory s).walk [start] [] ↔
      key = start ∨ (s.get key).isSome ∧ (Store.memory s).Reaches start key := by
  have hfound : key ∈ (Store.memory s).walk [start] [] ↔ (Store.memory s).Reaches start key := by
    simp [Store.mem_walk]
  rw [hfound]
  constructor
  · intro hreaches
    -- the last step of the way leads to a child, and children are stored
    rcases Relation.ReflTransGen.cases_tail hreaches with heq | ⟨above, -, hchild⟩
    · exact .inl heq
    · exact .inr ⟨s.isSome_of_mem_children hchild, hreaches⟩
  · rintro (rfl | ⟨-, hreaches⟩)
    · exact .refl
    · exact hreaches

theorem length_walk_le : ((Store.memory s).walk [start] []).length ≤ s.nodes.size + 1 := by
  have hsubset : (Store.memory s).walk [start] [] ⊆ start :: s.nodes.keys := by
    intro key hkey
    rcases (s.mem_walk_start start key).mp hkey with rfl | ⟨hstored, -⟩
    · exact List.mem_cons_self
    · exact List.mem_cons_of_mem _
        (SortedMap.mem_keys_iff.mpr (Option.isSome_iff_exists.mp hstored))
  have hlength := ((s.nodup_walk start).subperm hsubset).length_le
  simpa [SortedMap.keys, SortedMap.size] using hlength

/-- What lies below a path stands before it. -/
theorem idxOf_walk_lt {path ancestor : String} (hpath : path ∈ (Store.memory s).walk [start] [])
    (hne : path ≠ ancestor) (hwithin : Path.isWithin path ancestor = true) :
    ((Store.memory s).walk [start] []).idxOf path <
      ((Store.memory s).walk [start] []).idxOf ancestor := by
  have hsorted := (inOrder_start start).pairwise_walk s
  generalize (Store.memory s).walk [start] [] = listed at hpath hsorted
  rcases Nat.lt_trichotomy (listed.idxOf path) (listed.idxOf ancestor) with hlt | heq | hgt
  · exact hlt
  · exact absurd ((List.idxOf_inj hpath).mp heq) hne
  · have hlater : listed.idxOf path < listed.length := List.idxOf_lt_length_of_mem hpath
    have hbetween := List.pairwise_iff_getElem.mp hsorted _ _ (hgt.trans hlater) hlater hgt
    rw [List.getElem_idxOf, List.getElem_idxOf] at hbetween
    exact absurd hwithin hbetween

/-- Whatever a store in memory holds, collecting what lies at and below a path comes to an end,
after at most two steps more than there are keys, and changes nothing.  What is collected is the path
itself and the keys that are reached from it by going from a path to one of its children, each of
them once, and everything stands before what it lies below. -/
theorem subtree_childrenFirst (s : MemoryStore) (start : String) {w : World}
    (hstore : w.store = .memory s) :
    ∃ listed,
      (Action.subtree start).run w = (.ok listed, w) ∧
      (∃ count ≤ s.nodes.size + 2,
        Routine.advance^[count] (ExceptT.run (Action.subtree start), w) =
          (.done (.ok listed), w)) ∧
      listed.Nodup ∧
      (∀ key, key ∈ listed ↔
        key = start ∨ (s.get key).isSome ∧ (Store.memory s).Reaches start key) ∧
      ∀ path ∈ listed, ∀ ancestor ∈ listed, path ≠ ancestor →
        Path.isWithin path ancestor = true → listed.idxOf path < listed.idxOf ancestor := by
  have hrun : (Action.subtree start).run w = (.ok ((Store.memory s).walk [start] []), w) := by
    rw [← hstore]
    rfl
  refine ⟨(Store.memory s).walk [start] [], hrun, ?_, s.nodup_walk start, s.mem_walk_start start,
    fun path hpath ancestor _ => s.idxOf_walk_lt start hpath⟩
  have heffort : (ExceptT.run (Action.subtree start)).effort w =
      ((Store.memory s).walk [start] []).length + 1 := by
    have hcounted : (ExceptT.run (Action.subtree start)).effort w =
        0 + (w.store.walk [start] []).length + 1 := rfl
    rw [hcounted, hstore, Nat.zero_add]
  have hend := Routine.iterate_advance (ExceptT.run (Action.subtree start)) w
  rw [heffort, show Routine.run _ w = _ from hrun] at hend
  exact ⟨_, Nat.succ_le_succ (s.length_walk_le start), hend⟩

/-- Keys below a path under which nothing is stored: a child whose node names another path, a child
of that child, and two keys with an empty component. -/
def unrooted : MemoryStore where
  nodes := (((SortedMap.empty.insert "~/x/y" (Node.directory "~/é" "é" ["ghost"])).insert
    "~/x/y/z" (.file "~/x/y/z" "" 1 1)).insert "~/x/" (.emptyDirectory "~/x/" "")).insert
    "~/x//z" (.file "~/x//z" "" 1 1)
  refusesWrites := false

/-- The path itself is collected, though nothing is stored under it. -/
theorem subtree_childrenFirst_unrooted :
    ∃ listed,
      (Action.subtree "~/x").run ⟨.memory unrooted, "~", 0, []⟩ =
        (.ok listed, ⟨.memory unrooted, "~", 0, []⟩) ∧
      listed.Nodup ∧ unrooted.get "~/x" = none ∧
      listed.idxOf "~/x/y/z" < listed.idxOf "~/x/y" ∧
      listed.idxOf "~/x/y" < listed.idxOf "~/x" := by
  obtain ⟨listed, hrun, -, hnodup, hmem, hsorted⟩ := subtree_childrenFirst unrooted "~/x"
    (w := ⟨.memory unrooted, "~", 0, []⟩) rfl
  have hchild : (Store.memory unrooted).Reaches "~/x" "~/x/y" := .single (by decide +kernel)
  have hdeep : (Store.memory unrooted).Reaches "~/x" "~/x/y/z" := hchild.tail (by decide +kernel)
  have hstart := (hmem "~/x").mpr (.inl rfl)
  have hmiddle := (hmem "~/x/y").mpr (.inr ⟨by decide +kernel, hchild⟩)
  have hend := (hmem "~/x/y/z").mpr (.inr ⟨by decide +kernel, hdeep⟩)
  exact ⟨listed, hrun, hnodup, by decide +kernel,
    hsorted _ hend _ hmiddle (by decide) (by decide +kernel),
    hsorted _ hmiddle _ hstart (by decide) (by decide +kernel)⟩

end MemoryStore
end VirtualShell
