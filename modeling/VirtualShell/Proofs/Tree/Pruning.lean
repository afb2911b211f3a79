import VirtualShell.Proofs.Tree.Planting

/-!
# Taking a node out of a tree

Everything at and below a path goes, and its name goes from the directory above.  What was a tree
stays one.
-/

namespace VirtualShell
namespace Contents

/-- The contents without what lies at and below a path. -/
def prune (nodes : Contents) (path : String) : Contents :=
  (Session.removal (nodes.keys.filter fun key => Path.isWithin key path) (Path.name path)
    ((Path.parent? path).bind nodes.find?)).foldl MemoryStore.applyChange nodes

theorem find?_foldl_remove (nodes : Contents) (doomed : List String) (key : String) :
    ((doomed.map .remove).foldl MemoryStore.applyChange nodes).find? key =
      if key ∈ doomed then none else nodes.find? key := by
  induction doomed generalizing nodes with
  | nil => simp
  | cons path doomed ih =>
      rw [List.map_cons, List.foldl_cons, ih, MemoryStore.find?_remove]
      by_cases hkey : key = path <;> simp [hkey]

/-- Where a node is taken out: something is stored there, with a directory above. -/
structure Prunable (nodes : Contents) (path parent : String) : Prop where
  stored : (nodes.find? path).isSome
  parent_eq : Path.parent? path = some parent

section

variable {nodes : Contents} {path parent : String}

theorem Prunable.directory (htree : nodes.Tree) (hprune : Prunable nodes path parent) :
    nodes.kind? parent = some .directory := by
  obtain ⟨node, hfind⟩ := Option.isSome_iff_exists.mp hprune.stored
  exact htree.kind?_parent hfind hprune.parent_eq

theorem Prunable.canonical (htree : nodes.Tree) (hprune : Prunable nodes path parent) :
    Path.Canonical path := by
  obtain ⟨node, hfind⟩ := Option.isSome_iff_exists.mp hprune.stored
  exact htree.canonical hfind

theorem Prunable.not_isWithin (htree : nodes.Tree) (hprune : Prunable nodes path parent) :
    ¬ Path.isWithin parent path = true := by
  obtain ⟨-, -, hpath⟩ := (hprune.canonical htree).of_parent? hprune.parent_eq
  rw [hpath]
  exact Path.not_isWithin_join

theorem Prunable.join_eq_iff (htree : nodes.Tree) (hprune : Prunable nodes path parent)
    {directory name : String} (hname : Path.IsComponent name.toList) :
    Path.join directory name = path ↔ directory = parent ∧ name = Path.name path := by
  obtain ⟨-, hown, hpath⟩ := (hprune.canonical htree).of_parent? hprune.parent_eq
  constructor
  · intro heq
    rwa [hpath, Path.join_inj hname.noSeparator hown.noSeparator] at heq
  · rintro ⟨rfl, rfl⟩
    exact hpath.symm

/-! ### What is found afterwards -/

/-- The removal of any list that has the stored paths at and below `path`, and no other stored
ones, comes to the same. -/
theorem find?_removal {own : String} {children doomed : List String}
    (habove : nodes.find? parent = some (.directory parent own children))
    (houtside : ¬ Path.isWithin parent path = true)
    (hdoomed : ∀ key, (nodes.find? key).isSome →
      (key ∈ doomed ↔ Path.isWithin key path = true)) (key : String) :
    ((Session.removal doomed (Path.name path) (nodes.find? parent)).foldl
        MemoryStore.applyChange nodes).find? key =
      if Path.isWithin key path then none
      else if key = parent then
        some (.directory parent own (children.filter (· ≠ Path.name path)))
      else nodes.find? key := by
  simp only [habove, Session.removal, List.foldl_append, List.foldl_cons, List.foldl_nil,
    MemoryStore.find?_put, find?_foldl_remove, Node.path_directory]
  by_cases hparent : key = parent
  · rw [if_pos hparent, if_neg (hparent ▸ houtside), if_pos hparent]
  · rw [if_neg hparent, if_neg hparent]
    cases hfind : nodes.find? key with
    | none => simp
    | some node =>
        have hmem := hdoomed key (by rw [hfind]; rfl)
        by_cases hwithin : Path.isWithin key path <;> simp [hmem, hwithin]

theorem find?_prune (htree : nodes.Tree) (hprune : Prunable nodes path parent) (key : String) :
    (nodes.prune path).find? key =
      if Path.isWithin key path then none
      else if key = parent then
        some (.directory parent (Path.name parent)
          ((nodes.names parent).filter (· ≠ Path.name path)))
      else nodes.find? key := by
  rw [prune, hprune.parent_eq, Option.bind_some]
  refine find?_removal (htree.find?_directory (hprune.directory htree))
    (hprune.not_isWithin htree) (fun stored hstored => ?_) key
  rw [List.mem_filter, SortedMap.mem_keys_iff, ← Option.isSome_iff_exists]
  simp [hstored]

/-- Whatever the order in which the doomed paths come, the same contents are left. -/
theorem foldl_removal_eq_prune (htree : nodes.Tree) (hprune : Prunable nodes path parent)
    {doomed : List String} (hdoomed : ∀ key, (nodes.find? key).isSome →
      (key ∈ doomed ↔ Path.isWithin key path = true)) :
    (Session.removal doomed (Path.name path) (nodes.find? parent)).foldl
      MemoryStore.applyChange nodes = nodes.prune path := by
  refine SortedMap.ext_find? fun key => ?_
  rw [find?_removal (htree.find?_directory (hprune.directory htree))
    (hprune.not_isWithin htree) hdoomed, find?_prune htree hprune]

theorem isSome_find?_prune (htree : nodes.Tree) (hprune : Prunable nodes path parent)
    (key : String) :
    ((nodes.prune path).find? key).isSome ↔
      ¬ Path.isWithin key path = true ∧ (nodes.find? key).isSome := by
  rw [find?_prune htree hprune]
  by_cases hwithin : Path.isWithin key path = true
  · simp [hwithin]
  · by_cases hparent : key = parent
    · simp [hparent, hprune.not_isWithin htree,
        isSome_find?_of_kind? (hprune.directory htree)]
    · simp [hwithin, hparent]

theorem kind?_prune (htree : nodes.Tree) (hprune : Prunable nodes path parent) (key : String) :
    (nodes.prune path).kind? key =
      if Path.isWithin key path then none else nodes.kind? key := by
  rw [kind?, find?_prune htree hprune]
  by_cases hwithin : Path.isWithin key path = true
  · simp [hwithin]
  · by_cases hparent : key = parent
    · simp [hparent, hprune.not_isWithin htree, hprune.directory htree, Node.kind]
    · simp [hwithin, hparent, kind?]

theorem names_prune (htree : nodes.Tree) (hprune : Prunable nodes path parent) (key : String) :
    (nodes.prune path).names key =
      if Path.isWithin key path then []
      else if key = parent then (nodes.names parent).filter (· ≠ Path.name path)
      else nodes.names key := by
  rw [names, find?_prune htree hprune]
  by_cases hwithin : Path.isWithin key path = true
  · simp [hwithin]
  · by_cases hparent : key = parent
    · simp [hparent, hprune.not_isWithin htree, Node.names]
    · simp [hwithin, hparent, names]

/-- A tree stays a tree when a node is taken out. -/
theorem Tree.prune (htree : nodes.Tree) (hprune : Prunable nodes path parent) :
    (nodes.prune path).Tree where
  root := by
    rw [kind?_prune htree hprune, if_neg, htree.root]
    intro hwithin
    have hparent := hprune.parent_eq
    rw [Path.eq_root_of_isWithin hwithin, Path.parent?_root] at hparent
    cases hparent
  placed {key found} hfind := by
    rw [find?_prune htree hprune] at hfind
    by_cases hwithin : Path.isWithin key path = true
    · rw [if_pos hwithin] at hfind
      cases hfind
    · by_cases hparent : key = parent
      · rw [if_neg hwithin, if_pos hparent, Option.some.injEq] at hfind
        exact hparent ▸ hfind ▸ .directory (htree.canonical_of_kind? (hprune.directory htree)) _
      · rw [if_neg hwithin, if_neg hparent] at hfind
        exact htree.placed hfind
  nodup key := by
    rw [names_prune htree hprune]
    split
    · exact List.nodup_nil
    · split
      · exact (htree.nodup parent).filter _
      · exact htree.nodup key
  isComponent {key name} hname := by
    rw [names_prune htree hprune] at hname
    split at hname
    · simp at hname
    · split at hname
      · exact htree.isComponent (List.mem_of_mem_filter hname)
      · exact htree.isComponent hname
  mem_names {key name} hname := by
    -- a child goes with its directory, or because it is the path itself
    rw [names_prune htree hprune, isSome_find?_prune htree hprune, ← htree.mem_names hname,
      Path.isWithin_join_iff hname.noSeparator, hprune.join_eq_iff htree hname]
    by_cases hwithin : Path.isWithin key path = true
    · simp [hwithin]
    · by_cases hparent : key = parent
      · simp [hparent, hprune.not_isWithin htree, and_comm]
      · simp [hwithin, hparent]

end

end Contents
end VirtualShell
