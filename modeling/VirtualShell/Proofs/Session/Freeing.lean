import VirtualShell.Proofs.Path.Composition
import VirtualShell.Proofs.Session.Deletion
import VirtualShell.Proofs.Store.Usage

/-!
# What a deletion frees

A deletion takes entries out of a store, and writes one directory again with no more names than it
had.  So the bytes in use go down by no less than what the entries took that are gone.  Nothing is
assumed of the tree: the names that directories list may be any, and paths may be out of order.
-/

namespace VirtualShell
namespace Contents

/-- The bytes of the entries under paths where nothing is found any more. -/
def lostSize (nodes nodes' : Contents) : Nat :=
  total ((nodes.entries.filter fun entry => (nodes'.find? entry.1).isNone).map fun entry =>
    MemoryStore.entrySize entry.1 entry.2)

theorem entrySize_le_lostSize {nodes nodes' : Contents} {path : String} {node : Node}
    (hfind : nodes.find? path = some node) (hgone : nodes'.find? path = none) :
    MemoryStore.entrySize path node ≤ nodes.lostSize nodes' := by
  refine List.le_sum_of_mem (List.mem_map.mpr ⟨(path, node), ?_, rfl⟩)
  rw [List.mem_filter, hgone]
  exact ⟨SortedMap.mem_entries_of_find? hfind, rfl⟩

/-- The contents without some paths. -/
def without (nodes : Contents) (doomed : List String) : Contents :=
  (doomed.map Change.remove).foldl MemoryStore.applyChange nodes

/-- The contents after the changes that remove some paths, and a name from a directory. -/
def cleared (nodes : Contents) (doomed : List String) (name parent : String) : Contents :=
  (Session.removal doomed name (nodes.find? parent)).foldl MemoryStore.applyChange nodes

variable {nodes : Contents} {doomed : List String} {name parent : String}

theorem entries_without (nodes : Contents) (doomed : List String) :
    (nodes.without doomed).entries =
      nodes.entries.filter fun entry => ! decide (entry.1 ∈ doomed) := by
  rw [without]
  induction doomed generalizing nodes with
  | nil => simp
  | cons path doomed ih =>
      rw [List.map_cons, List.foldl_cons, ih, MemoryStore.applyChange, SortedMap.erase,
        List.filter_filter]
      congr 1
      funext entry
      simp [Bool.and_comm]

/-- What removals give back is what the removed entries took. -/
theorem usage_without (nodes : Contents) (doomed : List String) :
    (nodes.without doomed).usage +
        total ((nodes.entries.filter fun entry => decide (entry.1 ∈ doomed)).map fun entry =>
          MemoryStore.entrySize entry.1 entry.2) =
      nodes.usage := by
  rw [usage, entries_without, Nat.add_comm]
  have hparts := List.sum_map_filter_add_sum_map_filter_not
    (fun entry : String × Node => entry.1 ∈ doomed)
    (fun entry => MemoryStore.entrySize entry.1 entry.2) nodes.entries
  simp only [decide_not] at hparts
  exact hparts

section Cleared

variable (hkeyed : MemoryStore.Keyed nodes)

include hkeyed

/-- After some paths were removed, the directory above is written again if there is one. -/
theorem cleared_cases (doomed : List String) (name parent : String) :
    nodes.cleared doomed name parent = nodes.without doomed ∨
      ∃ title children, nodes.find? parent = some (.directory parent title children) ∧
        nodes.cleared doomed name parent = MemoryStore.applyChange (nodes.without doomed)
          (.put (.directory parent title (children.filter (· ≠ name)))) := by
  rw [cleared]
  cases hfind : nodes.find? parent with
  | none => exact .inl (congrArg _ (List.append_nil _))
  | some above =>
      cases above with
      | file own content created modified => exact .inl (congrArg _ (List.append_nil _))
      | directory own title children =>
          obtain rfl : own = parent := hkeyed hfind
          exact .inr ⟨title, children, rfl, List.foldl_append⟩

variable (houtside : parent ∉ doomed)

include houtside

/-- There is what was there, but for the removed paths. -/
theorem isSome_find?_cleared (key : String) :
    ((nodes.cleared doomed name parent).find? key).isSome ↔
      (nodes.find? key).isSome ∧ key ∉ doomed := by
  have hwithout : ((nodes.without doomed).find? key).isSome ↔
      (nodes.find? key).isSome ∧ key ∉ doomed := by
    rw [without, find?_foldl_remove]
    split <;> simp [*]
  rcases cleared_cases hkeyed doomed name parent with hcleared | ⟨title, children, hfind, hcleared⟩
  · rwa [hcleared]
  · rw [hcleared, MemoryStore.find?_put, Node.path_directory]
    by_cases hkey : key = parent
    · rw [if_pos hkey, hkey, hfind]
      simp [houtside]
    · rwa [if_neg hkey]

theorem lostSize_cleared :
    nodes.lostSize (nodes.cleared doomed name parent) =
      total ((nodes.entries.filter fun entry => decide (entry.1 ∈ doomed)).map fun entry =>
        MemoryStore.entrySize entry.1 entry.2) := by
  rw [lostSize]
  congr 2
  refine List.filter_congr fun entry hentry => ?_
  have hstored : (nodes.find? entry.1).isSome := by
    rw [SortedMap.find?_of_mem_entries hentry]
    rfl
  have hstays : ((nodes.cleared doomed name parent).find? entry.1).isSome ↔ entry.1 ∉ doomed := by
    rw [isSome_find?_cleared hkeyed houtside, and_iff_right hstored]
  rw [Bool.eq_iff_iff, decide_eq_true_iff, Option.isNone_iff_eq_none,
    ← Option.not_isSome_iff_eq_none, hstays, not_not]

/-- At least what the removed entries took is free afterwards. -/
theorem usage_cleared_le :
    (nodes.cleared doomed name parent).usage +
        nodes.lostSize (nodes.cleared doomed name parent) ≤ nodes.usage := by
  have hwithout := usage_without nodes doomed
  rw [lostSize_cleared hkeyed houtside]
  rcases cleared_cases hkeyed doomed name parent with hcleared | ⟨title, children, hfind, hcleared⟩
  · rw [hcleared, hwithout]
  · have hstays : (nodes.without doomed).find? parent =
        some (.directory parent title children) := by
      rw [without, find?_foldl_remove, if_neg houtside, hfind]
    have hput : (nodes.cleared doomed name parent).usage +
          (Node.directory parent title children).encode.utf8ByteSize =
        (nodes.without doomed).usage +
          (Node.directory parent title (children.filter (· ≠ name))).encode.utf8ByteSize := by
      rw [hcleared]
      exact usage_put_of_some hstays
    have hshorter := Node.utf8ByteSize_encode_filter_le parent title (· ≠ name) children
    omega

end Cleared

end Contents

namespace Session

theorem length_le_of_mem_doomed {s : Store} {path key : String} {kind : NodeKind}
    (hkey : key ∈ doomed s path kind) : path.length ≤ key.length := by
  cases kind with
  | directory =>
      obtain ⟨_, hpath, hreaches⟩ :=
        ((Store.mem_walk s [path] [] key).mp hkey).resolve_left List.not_mem_nil
      rw [List.mem_singleton.mp hpath] at hreaches
      exact hreaches.length_le
  | file => rw [List.mem_singleton.mp hkey]

theorem mem_doomed_self (s : Store) (path : String) (kind : NodeKind) :
    path ∈ doomed s path kind := by
  cases kind with
  | directory =>
      rw [doomed, Store.mem_walk]
      exact .inr ⟨path, List.mem_singleton_self path, .refl⟩
  | file => exact List.mem_singleton_self _

/-- What a deletion does to a store in memory: the directory above is not among what goes. -/
theorem run_delete {s : MemoryStore} (hwrites : s.refusesWrites = false) {w : World}
    (hstore : w.store = .memory s) (options : SessionOptions) {raw path : String}
    (hresolve : Path.resolve raw w.cursor = .ok path) (hroot : path ≠ Path.root) {node : Node}
    (hfind : s.nodes.find? path = some node) :
    ∃ parent, parent ∉ doomed (.memory s) path node.kind ∧
      ((delete options raw).run w).1 = .ok true ∧
      ((delete options raw).run w).2.store = .memory { s with
        nodes := Contents.cleared s.nodes (doomed (.memory s) path node.kind) (Path.name path)
          parent } := by
  have hscene : (w.scene .intact).store = .memory s := hstore
  have hrefusal : (w.scene .intact).refusal = none := by
    rw [w.refusal_scene rfl, hstore, Store.refuses, hwrites]
    rfl
  have hshows : (w.scene .intact).store.Shows s.nodes := hscene ▸ Store.shows_memory s
  obtain ⟨parent, name, hname, hjoin⟩ :=
    (Path.root_or_join_of_resolve hresolve).resolve_left hroot
  have hparent : Path.parent? path = some parent := hjoin ▸ Path.parent?_join hname
  have hplay := play_delete options hshows hrefusal hresolve hparent hfind
  rw [hscene, Store.foldl_apply_memory] at hplay
  obtain ⟨hresult, hleft, -⟩ := Action.run_of_play hplay
  refine ⟨parent, fun hmem => ?_, hresult, hleft⟩
  -- whatever goes is no shorter than the path, and the directory above is shorter
  have hlonger := length_le_of_mem_doomed hmem
  have hlength : path.length = parent.length + 1 + name.length := by
    rw [hjoin, Path.join, String.length_append, String.length_append]
    rfl
  omega

/-- Whatever commits have written to a store in memory, and however much it uses, a deletion of what
is stored below the root succeeds.  Then nothing is found under the path, and the bytes in use are
fewer, by no less than what the entries took that are gone. -/
theorem delete_frees {changes : List Change} {s : MemoryStore}
    (hwritten : MemoryStore.empty.commit changes = .ok s) {w : World}
    (hstore : w.store = .memory s) (options : SessionOptions) {raw path : String}
    (hresolve : Path.resolve raw w.cursor = .ok path) (hroot : path ≠ Path.root)
    (hstored : (s.nodes.find? path).isSome) :
    ∃ s', ((delete options raw).run w).1 = .ok true ∧
      ((delete options raw).run w).2.store = .memory s' ∧
      s'.nodes.find? path = none ∧
      s'.usage + Contents.lostSize s.nodes s'.nodes ≤ s.usage ∧
      s'.usage < s.usage := by
  obtain ⟨hwrites, hkeyed⟩ := MemoryStore.exists_commit_iff.mp ⟨changes, hwritten⟩
  obtain ⟨node, hfind⟩ := Option.isSome_iff_exists.mp hstored
  obtain ⟨parent, houtside, hresult, hleft⟩ :=
    run_delete hwrites hstore options hresolve hroot hfind
  refine ⟨_, hresult, hleft, ?_⟩
  dsimp only
  generalize hcleared : Contents.cleared s.nodes (doomed (.memory s) path node.kind)
    (Path.name path) parent = nodes'
  have hgone : nodes'.find? path = none := by
    rw [← hcleared, ← Option.not_isSome_iff_eq_none,
      Contents.isSome_find?_cleared hkeyed houtside]
    exact fun hstays => hstays.2 (mem_doomed_self (.memory s) path node.kind)
  have hfreed : Contents.usage nodes' + Contents.lostSize s.nodes nodes' ≤ s.usage := by
    rw [← hcleared]
    exact Contents.usage_cleared_le hkeyed houtside
  refine ⟨hgone, hfreed, ?_⟩
  -- the entry of the path is gone, and took more than nothing
  have hlost := Contents.entrySize_le_lostSize hfind hgone
  have hpositive := MemoryStore.entrySize_pos path node
  show Contents.usage nodes' < s.usage
  omega

/-- From a working directory that is not written as it should be, and with a quota of one byte. -/
theorem delete_frees_mislisted :
    1 < mislisted.usage ∧
      ∃ s', ((delete ⟨1, true⟩ "..").run ⟨.memory mislisted, "a//b", 9, []⟩).1 = .ok true ∧
        ((delete ⟨1, true⟩ "..").run ⟨.memory mislisted, "a//b", 9, []⟩).2.store = .memory s' ∧
        s'.nodes.find? "~/a" = none ∧
        s'.usage + Contents.lostSize mislisted.nodes s'.nodes ≤ mislisted.usage ∧
        s'.usage < mislisted.usage := by
  have hwritten : MemoryStore.empty.commit
      [.put (.directory Path.root "~" ["a", "ghost", "a"]), .put (.emptyDirectory "~/a" "a"),
        .put (.emptyDirectory "~/a/b" "b"), .put (.file "~/a/b/c" "text" 1 2),
        .put (.file "~/ab" "" 3 3), .put (.file "~/a!" "" 4 4)] = .ok mislisted := rfl
  exact ⟨by decide +kernel, delete_frees hwritten (w := ⟨.memory mislisted, "a//b", 9, []⟩) rfl
    ⟨1, true⟩ (by decide +kernel) (by decide) (by decide +kernel)⟩

end Session
end VirtualShell
