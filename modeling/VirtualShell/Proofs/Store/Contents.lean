import VirtualShell.Proofs.Store.Durable
import VirtualShell.Proofs.Store.Memory
import VirtualShell.Store

/-!
# The contents of a store

A commit either is refused and changes nothing, or makes its changes one after the other; this holds
of every store, whatever bytes it keeps.  `Holds` says that a store of either kind keeps some nodes
and nothing else.  Everything that is asked of such a store is answered from the nodes.
-/

namespace VirtualShell

/-- The path whose entry a change touches. -/
def Change.path : Change → String
  | .put node => node.path
  | .remove path => path

/-- What a change leaves under its path. -/
def Change.result : Change → Option Node
  | .put node => some node
  | .remove _ => none

@[simp]
theorem Node.path_directory (path name : String) (children : List String) :
    (Node.directory path name children).path = path := rfl

@[simp]
theorem Node.path_file (path content : String) (created modified : Timestamp) :
    (Node.file path content created modified).path = path := rfl

namespace MemoryStore

@[simp]
theorem find?_put (nodes : SortedMap String Node) (node : Node) (path : String) :
    (applyChange nodes (.put node)).find? path =
      if path = node.path then some node else nodes.find? path :=
  SortedMap.find?_insert nodes node.path path node

@[simp]
theorem find?_remove (nodes : SortedMap String Node) (other path : String) :
    (applyChange nodes (.remove other)).find? path =
      if path = other then none else nodes.find? path :=
  SortedMap.find?_erase nodes other path

theorem find?_applyChange (nodes : SortedMap String Node) (change : Change) (path : String) :
    (applyChange nodes change).find? path =
      if path = change.path then change.result else nodes.find? path := by
  cases change with
  | put node => exact find?_put nodes node path
  | remove other => exact find?_remove nodes other path

/-! ### What commits can write -/

/-- Every node is under the path that it knows. -/
def Keyed (nodes : SortedMap String Node) : Prop :=
  ∀ {key : String} {node : Node}, nodes.find? key = some node → node.path = key

theorem keyed_empty : Keyed .empty := by
  intro key node hfind
  cases hfind

theorem Keyed.applyChange {nodes : SortedMap String Node} (hkeyed : Keyed nodes)
    (change : Change) : Keyed (applyChange nodes change) := by
  intro key node hfind
  rw [find?_applyChange] at hfind
  split at hfind
  · rename_i hkey
    cases change with
    | put put =>
        obtain rfl := Option.some.inj hfind
        exact hkey.symm
    | remove path => cases hfind
  · exact hkeyed hfind

theorem Keyed.foldl_applyChange {nodes : SortedMap String Node} (hkeyed : Keyed nodes)
    (changes : List Change) : Keyed (changes.foldl MemoryStore.applyChange nodes) := by
  induction changes generalizing nodes with
  | nil => exact hkeyed
  | cons change changes ih => exact ih (hkeyed.applyChange change)

theorem find?_foldl_put {entries : List (String × Node)}
    (hpaths : ∀ entry ∈ entries, entry.2.path = entry.1) (hnodup : (entries.map (·.1)).Nodup)
    (nodes : SortedMap String Node) (key : String) :
    ((entries.map fun entry => Change.put entry.2).foldl applyChange nodes).find? key =
      ((entries.find? fun entry => entry.1 = key).map (·.2)).or (nodes.find? key) := by
  induction entries generalizing nodes with
  | nil => rfl
  | cons entry entries ih =>
      rw [List.forall_mem_cons] at hpaths
      rw [List.map_cons, List.nodup_cons] at hnodup
      rw [List.map_cons, List.foldl_cons, ih hpaths.2 hnodup.2, find?_put, hpaths.1]
      by_cases hkey : key = entry.1
      · subst hkey
        -- no later entry has the same key
        have hlater : entries.find? (fun later => later.1 = entry.1) = none := by
          rw [List.find?_eq_none]
          intro later hmem hlater
          rw [decide_eq_true_eq] at hlater
          exact hnodup.1 (hlater ▸ List.mem_map_of_mem hmem)
        simp [hlater]
      · simp [hkey, Ne.symm hkey]

/-- What commits can write is what has every node under the path that it knows. -/
theorem exists_commit_iff {s : MemoryStore} :
    (∃ changes, empty.commit changes = .ok s) ↔ s.refusesWrites = false ∧ Keyed s.nodes := by
  constructor
  · rintro ⟨changes, hcommit⟩
    obtain rfl := Except.ok.inj hcommit
    exact ⟨rfl, keyed_empty.foldl_applyChange changes⟩
  · rintro ⟨hwrites, hkeyed⟩
    refine ⟨s.nodes.entries.map fun entry => .put entry.2, congrArg Except.ok ?_⟩
    have hpaths : ∀ entry ∈ s.nodes.entries, entry.2.path = entry.1 := fun entry hentry =>
      hkeyed (SortedMap.find?_of_mem_entries hentry)
    have hnodes : (s.nodes.entries.map fun entry => Change.put entry.2).foldl applyChange .empty =
        s.nodes := by
      refine SortedMap.ext_find? fun key => ?_
      rw [find?_foldl_put hpaths (SortedMap.nodup_keys s.nodes), SortedMap.find?_empty,
        Option.or_none]
      rfl
    cases s
    cases hwrites
    exact congrArg (MemoryStore.mk · false) hnodes

end MemoryStore

namespace Store

/-- The store after one change, which nothing refuses. -/
def apply : Store → Change → Store
  | .memory s, change => .memory { s with nodes := MemoryStore.applyChange s.nodes change }
  | .durable s, change =>
    .durable ⟨DurableStore.applyEntry s.entries (DurableStore.actionOf change)⟩

/-- Whether commits fail. -/
def refuses : Store → Bool
  | .memory s => s.refusesWrites
  | .durable _ => false

theorem foldl_apply_memory (s : MemoryStore) (changes : List Change) :
    changes.foldl apply (.memory s) =
      .memory { s with nodes := changes.foldl MemoryStore.applyChange s.nodes } := by
  induction changes generalizing s with
  | nil => rfl
  | cons change changes ih => exact ih _

theorem foldl_apply_durable (s : DurableStore) (changes : List Change) :
    changes.foldl apply (.durable s) = .durable (s.commit changes) := by
  rw [DurableStore.commit_eq_foldl]
  induction changes generalizing s with
  | nil => rfl
  | cons change changes ih => exact ih _

/-- A commit is refused, or makes its changes one after the other. -/
theorem commit_eq (s : Store) (changes : List Change) :
    s.commit changes =
      if s.refuses then .error (.system .simulatedWriteFailure)
      else .ok (changes.foldl apply s) := by
  cases s with
  | memory s =>
      rw [foldl_apply_memory, commit, MemoryStore.commit, refuses]
      split <;> rfl
  | durable s => rw [foldl_apply_durable, commit, refuses, if_neg Bool.false_ne_true]

/-- A change is seen under its path and nowhere else, whatever else the store keeps. -/
theorem get_apply (s : Store) (change : Change) (path : String) :
    (s.apply change).get path =
      if path = change.path then .ok change.result else s.get path := by
  cases s with
  | memory s =>
      simp only [apply, get, MemoryStore.get, MemoryStore.find?_applyChange]
      split <;> rfl
  | durable s =>
      simp only [apply, get, DurableStore.get, DurableStore.find?_applyEntry]
      cases change with
      | put node =>
          by_cases hpath : path = node.path <;>
            simp [DurableStore.actionOf, Change.path, Change.result, Text.Utf8.encode_inj, hpath,
              Node.decode_encodeBytes]
      | remove other =>
          by_cases hpath : path = other <;>
            simp [DurableStore.actionOf, Change.path, Change.result, Text.Utf8.encode_inj, hpath]

/-- Nodes that were put stay until they are removed. -/
theorem get_foldl_put {nodes : List Node} {path : String} (s : Store)
    (hput : (∃ node, s.get path = .ok (some node)) ∨ ∃ node ∈ nodes, node.path = path) :
    ∃ node, ((nodes.map .put).foldl apply s).get path = .ok (some node) := by
  induction nodes generalizing s with
  | nil => simpa using hput
  | cons first nodes ih =>
      refine ih (s.apply (.put first)) ?_
      rw [get_apply, Change.path, Change.result]
      -- the first node is there now, and what was there or is still to come is no worse off
      by_cases hpath : path = first.path
      · exact .inl ⟨first, if_pos hpath⟩
      · rcases hput with hput | ⟨node, hnode, heq⟩
        · exact .inl (by rwa [if_neg hpath])
        · rcases List.mem_cons.mp hnode with rfl | hnode
          · exact absurd heq.symm hpath
          · exact .inr ⟨node, hnode, heq⟩

/-! ### Stores of nodes -/

/-- The store keeps these nodes and nothing else. -/
def Holds : Store → SortedMap String Node → Prop
  | .memory s, nodes => s.nodes = nodes
  | .durable s, nodes => s = DurableStore.ofNodes nodes

section Holds

variable {s : Store} {nodes : SortedMap String Node}

theorem Holds.get (hs : s.Holds nodes) (path : String) : s.get path = .ok (nodes.find? path) := by
  cases s with
  | memory s => rw [Store.get, MemoryStore.get, show s.nodes = nodes from hs]
  | durable s => rw [Store.get, show s = _ from hs, DurableStore.get_ofNodes]

/-- A store keeps one set of nodes only. -/
theorem Holds.unique {nodes' : SortedMap String Node} (hs : s.Holds nodes)
    (hs' : s.Holds nodes') : nodes = nodes' := by
  refine SortedMap.ext_find? fun path => ?_
  have hget := hs.get path
  rw [hs'.get] at hget
  exact (Except.ok.inj hget).symm

theorem Holds.children (hs : s.Holds nodes) (path : String) :
    s.children path =
      nodes.keys.filter fun key => Path.isDirectChild key (Path.childStem path) := by
  cases s with
  | memory s => rw [Store.children, MemoryStore.children_eq_filter, show s.nodes = nodes from hs]
  | durable s => rw [Store.children, show s = _ from hs, DurableStore.children_ofNodes]

/-- The children of a path are what is stored one component below it. -/
theorem Holds.mem_children (hs : s.Holds nodes) {path child : String} :
    child ∈ s.children path ↔
      (∃ node, nodes.find? child = some node) ∧
        ∃ name, name ≠ "" ∧ Path.separator ∉ name.toList ∧ child = Path.join path name := by
  rw [hs.children, List.mem_filter, SortedMap.mem_keys_iff, Path.isDirectChild_iff]

theorem Holds.nodup_children (hs : s.Holds nodes) (path : String) : (s.children path).Nodup := by
  rw [hs.children]
  exact (SortedMap.nodup_keys nodes).filter _

theorem Holds.apply (hs : s.Holds nodes) (change : Change) :
    (s.apply change).Holds (MemoryStore.applyChange nodes change) := by
  cases s with
  | memory s => rw [Store.apply, show s.nodes = nodes from hs]; rfl
  | durable s =>
      rw [Store.apply, show s = _ from hs, DurableStore.applyEntry_ofNodes]
      rfl

theorem Holds.foldl_apply (hs : s.Holds nodes) (changes : List Change) :
    (changes.foldl Store.apply s).Holds (changes.foldl MemoryStore.applyChange nodes) := by
  induction changes generalizing s nodes with
  | nil => exact hs
  | cons change changes ih => exact ih (hs.apply change)

end Holds

end Store
end VirtualShell
