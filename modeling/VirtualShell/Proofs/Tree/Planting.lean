import VirtualShell.Proofs.Store.Contents
import VirtualShell.Proofs.Tree.Invariant
import VirtualShell.Session

/-!
# Putting a node into a tree

A node without children is put where a directory above it lists it.  Either a file takes the place
of a file, or something new is listed after what was listed before.  Nothing else changes, and what
was a tree stays one.
-/

namespace VirtualShell
namespace Contents

/-- The contents with a node put under its path and into the directory above, if there is one. -/
def plant (nodes : Contents) (node : Node) : Contents :=
  match (Path.parent? node.path).bind nodes.find? with
  | some (.directory path name children) =>
    (Session.insertion node (Path.name node.path) path name children).foldl
      MemoryStore.applyChange nodes
  | _ => nodes

theorem plant_eq_foldl {nodes : Contents} {node : Node} {parent own name : String}
    {children : List String} (hparent : Path.parent? node.path = some parent)
    (habove : nodes.find? parent = some (.directory own name children)) :
    nodes.plant node = (Session.insertion node (Path.name node.path) own name children).foldl
      MemoryStore.applyChange nodes := by
  rw [plant, hparent, Option.bind_some, habove]

/-- Names with one more at the end, unless it is among them. -/
def enlist (names : List String) (name : String) : List String :=
  if names.contains name then names else names ++ [name]

theorem mem_enlist {names : List String} {name other : String} :
    other ∈ enlist names name ↔ other ∈ names ∨ other = name := by
  rw [enlist]
  split
  · rename_i hname
    rw [List.contains_iff_mem] at hname
    constructor
    · exact .inl
    · rintro (hother | rfl)
      · exact hother
      · exact hname
  · simp

theorem nodup_enlist {names : List String} (hnames : names.Nodup) (name : String) :
    (enlist names name).Nodup := by
  rw [enlist]
  split
  · exact hnames
  · rename_i hname
    rw [List.contains_iff_mem] at hname
    exact List.nodup_append.mpr ⟨hnames, List.nodup_singleton name, by
      rintro other hother _ hsingle rfl
      exact hname (List.mem_singleton.mp hsingle ▸ hother)⟩

/-- What is found after the changes that put a node below a directory. -/
theorem find?_insertion {nodes : Contents} {node : Node} {parent own : String}
    {children : List String} (hne : parent ≠ node.path)
    (habove : nodes.find? parent = some (.directory parent own children)) (key : String) :
    ((Session.insertion node (Path.name node.path) parent own children).foldl
        MemoryStore.applyChange nodes).find? key =
      if key = node.path then some node
      else if key = parent then
        some (.directory parent own (enlist children (Path.name node.path)))
      else nodes.find? key := by
  simp only [Session.insertion, enlist]
  -- the directory is written only if it does not list the name
  by_cases hlisted : children.contains (Path.name node.path)
  · simp only [if_pos hlisted, List.foldl_cons, List.foldl_nil, MemoryStore.find?_put]
    by_cases hkey : key = parent
    · simp [hkey, habove, hne]
    · simp [hkey]
  · simp only [if_neg hlisted, List.foldl_cons, List.foldl_nil, MemoryStore.find?_put,
      Node.path_directory]
    by_cases hkey : key = parent
    · simp [hkey, hne]
    · simp [hkey]

/-- A node may be put where it says: there is a directory for it, no directory in its way, and it
comes without children. -/
structure Plantable (nodes : Contents) (node : Node) (parent : String) : Prop where
  canonical : Path.Canonical node.path
  parent_eq : Path.parent? node.path = some parent
  directory : nodes.kind? parent = some .directory
  free : nodes.kind? node.path ≠ some .directory
  leaf : node.names = []
  named {path name : String} {children : List String}
    (hnode : node = .directory path name children) : name = Path.name path

section

variable {nodes : Contents} {node : Node} {parent : String}

theorem Plantable.placed (hplant : Plantable nodes node parent) : Placed node.path node where
  canonical := hplant.canonical
  path_eq := rfl
  name_eq {path name children} hnode := by
    rw [hplant.named hnode, hnode, Node.path_directory]

theorem Plantable.ne (hplant : Plantable nodes node parent) : parent ≠ node.path := by
  obtain ⟨-, -, hpath⟩ := hplant.canonical.of_parent? hplant.parent_eq
  rw [hpath]
  exact Path.join_ne_self.symm

theorem Plantable.join_eq_iff (hplant : Plantable nodes node parent) {directory name : String}
    (hname : Path.IsComponent name.toList) :
    Path.join directory name = node.path ↔ directory = parent ∧ name = Path.name node.path := by
  obtain ⟨-, hown, hpath⟩ := hplant.canonical.of_parent? hplant.parent_eq
  constructor
  · intro heq
    rw [hpath, Path.join_inj hname.noSeparator hown.noSeparator] at heq
    exact heq
  · rintro ⟨rfl, rfl⟩
    exact hpath.symm

/-- What is found after a node was put in. -/
theorem find?_plant (htree : nodes.Tree) (hplant : Plantable nodes node parent) (key : String) :
    (nodes.plant node).find? key =
      if key = node.path then some node
      else if key = parent then
        some (.directory parent (Path.name parent)
          (enlist (nodes.names parent) (Path.name node.path)))
      else nodes.find? key := by
  have habove := htree.find?_directory hplant.directory
  rw [plant_eq_foldl hplant.parent_eq habove, find?_insertion hplant.ne habove]

theorem isSome_find?_plant (htree : nodes.Tree) (hplant : Plantable nodes node parent)
    (key : String) :
    ((nodes.plant node).find? key).isSome ↔ key = node.path ∨ (nodes.find? key).isSome := by
  rw [find?_plant htree hplant]
  by_cases hpath : key = node.path
  · simp [hpath]
  · by_cases hparent : key = parent
    · simp [hparent, hplant.ne, isSome_find?_of_kind? hplant.directory]
    · simp [hpath, hparent]

theorem kind?_plant (htree : nodes.Tree) (hplant : Plantable nodes node parent) (key : String) :
    (nodes.plant node).kind? key =
      if key = node.path then some node.kind else nodes.kind? key := by
  rw [kind?, find?_plant htree hplant]
  by_cases hpath : key = node.path
  · simp [hpath]
  · by_cases hparent : key = parent
    · simp [hparent, hplant.ne, hplant.directory, Node.kind]
    · simp [hpath, hparent, kind?]

theorem names_plant (htree : nodes.Tree) (hplant : Plantable nodes node parent) (key : String) :
    (nodes.plant node).names key =
      if key = parent then enlist (nodes.names parent) (Path.name node.path)
      else nodes.names key := by
  rw [names, find?_plant htree hplant]
  -- where the node goes nothing was listed, and the node lists nothing
  by_cases hpath : key = node.path
  · subst hpath
    simp [hplant.ne.symm, hplant.leaf, names_eq_nil hplant.free]
  · by_cases hparent : key = parent
    · simp [hparent, hplant.ne, Node.names]
    · simp [hpath, hparent, names]

/-- Putting a node where something is stored lists nothing anew. -/
theorem names_plant_of_stored (htree : nodes.Tree) (hplant : Plantable nodes node parent)
    (hstored : (nodes.find? node.path).isSome) (key : String) :
    (nodes.plant node).names key = nodes.names key := by
  rw [names_plant htree hplant]
  split
  · rename_i hkey
    obtain ⟨found, hfind⟩ := Option.isSome_iff_exists.mp hstored
    have hname := htree.name_mem_names hfind hplant.parent_eq
    rw [hkey, enlist, if_pos (List.contains_iff_mem.mpr hname)]
  · rfl

/-- A tree stays a tree when a node is put in. -/
theorem Tree.plant (htree : nodes.Tree) (hplant : Plantable nodes node parent) :
    (nodes.plant node).Tree where
  root := by
    rw [kind?_plant htree hplant, if_neg, htree.root]
    intro hroot
    have hparent := hplant.parent_eq
    rw [← hroot, Path.parent?_root] at hparent
    cases hparent
  placed {key found} hfind := by
    rw [find?_plant htree hplant] at hfind
    by_cases hpath : key = node.path
    · rw [if_pos hpath, Option.some.injEq] at hfind
      exact hpath ▸ hfind ▸ hplant.placed
    · by_cases hparent : key = parent
      · rw [if_neg hpath, if_pos hparent, Option.some.injEq] at hfind
        exact hparent ▸ hfind ▸ .directory (htree.canonical_of_kind? hplant.directory) _
      · rw [if_neg hpath, if_neg hparent] at hfind
        exact htree.placed hfind
  nodup path := by
    rw [names_plant htree hplant]
    split
    · exact nodup_enlist (htree.nodup parent) _
    · exact htree.nodup path
  isComponent {path name} hname := by
    rw [names_plant htree hplant] at hname
    split at hname
    · rcases mem_enlist.mp hname with hname | rfl
      · exact htree.isComponent hname
      · exact (hplant.canonical.of_parent? hplant.parent_eq).2.1
    · exact htree.isComponent hname
  mem_names {path name} hname := by
    -- the one new path and the one new name are the same
    rw [names_plant htree hplant, isSome_find?_plant htree hplant, hplant.join_eq_iff hname,
      ← htree.mem_names hname]
    by_cases hparent : path = parent
    · simp [hparent, mem_enlist, or_comm]
    · simp [hparent]

end

end Contents
end VirtualShell
