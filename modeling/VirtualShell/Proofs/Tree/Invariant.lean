import VirtualShell.Node
import VirtualShell.Proofs.Path.Containment
import VirtualShell.Proofs.SortedMap

/-!
# Contents that are a tree

A store keeps its tree twice: as paths, and as the names that each directory lists.  `Tree` says
that the two agree.  From it, what is above a stored path is stored, and is a directory.
-/

namespace VirtualShell

/-- The names that a node lists. -/
def Node.names : Node → List String
  | .directory _ _ children => children
  | .file _ _ _ _ => []

/-- What a store keeps: nodes under their paths. -/
abbrev Contents := SortedMap String Node

namespace Contents

/-- Whether a directory or a file is stored under a path, if anything is. -/
def kind? (nodes : Contents) (path : String) : Option NodeKind :=
  (nodes.find? path).map Node.kind

/-- The names that are listed under a path. -/
def names (nodes : Contents) (path : String) : List String :=
  ((nodes.find? path).map Node.names).getD []

section

variable {nodes : Contents} {path : String}

theorem isSome_find?_of_kind? {kind : NodeKind} (hkind : nodes.kind? path = some kind) :
    (nodes.find? path).isSome := by
  rw [← Option.isSome_map (f := Node.kind), ← kind?, hkind]
  rfl

/-- Only directories list names. -/
theorem kind?_of_mem_names {name : String} (hname : name ∈ nodes.names path) :
    nodes.kind? path = some .directory := by
  rw [names] at hname
  cases hfind : nodes.find? path with
  | none => simp [hfind] at hname
  | some node =>
      cases node with
      | directory own name children => simp [kind?, hfind, Node.kind]
      | file own content created modified => simp [hfind, Node.names] at hname

theorem names_of_find? {own name : String} {children : List String}
    (hfind : nodes.find? path = some (.directory own name children)) :
    nodes.names path = children := by
  rw [names, hfind]
  rfl

theorem names_eq_nil (hkind : nodes.kind? path ≠ some .directory) : nodes.names path = [] := by
  rw [List.eq_nil_iff_forall_not_mem]
  intro name hname
  exact hkind (kind?_of_mem_names hname)

end

/-- A node belongs under a canonical path: it knows the path, and a directory knows its name. -/
structure Placed (key : String) (node : Node) : Prop where
  canonical : Path.Canonical key
  path_eq : node.path = key
  name_eq {path name : String} {children : List String}
    (hnode : node = .directory path name children) : name = Path.name key

theorem Placed.directory {path : String} (hpath : Path.Canonical path) (children : List String) :
    Placed path (.directory path (Path.name path) children) where
  canonical := hpath
  path_eq := rfl
  name_eq hnode := by
    cases hnode
    rfl

/-- The paths and the names agree: the root is a directory, every node is stored under the
canonical path it knows, and a directory lists the names of exactly what is stored below it. -/
structure Tree (nodes : Contents) : Prop where
  root : nodes.kind? Path.root = some .directory
  placed {key : String} {node : Node} (hfind : nodes.find? key = some node) : Placed key node
  nodup (path : String) : (nodes.names path).Nodup
  isComponent {path name : String} (hname : name ∈ nodes.names path) :
    Path.IsComponent name.toList
  mem_names {path name : String} (hname : Path.IsComponent name.toList) :
    name ∈ nodes.names path ↔ (nodes.find? (Path.join path name)).isSome

namespace Tree

variable {nodes : Contents} {key parent path : String}

theorem canonical (htree : nodes.Tree) {node : Node} (hfind : nodes.find? key = some node) :
    Path.Canonical key :=
  (htree.placed hfind).canonical

theorem path_eq (htree : nodes.Tree) {node : Node} (hfind : nodes.find? key = some node) :
    node.path = key :=
  (htree.placed hfind).path_eq

theorem name_eq (htree : nodes.Tree) {name : String} {children : List String}
    (hfind : nodes.find? key = some (.directory path name children)) : name = Path.name key :=
  (htree.placed hfind).name_eq rfl

/-- A stored directory in full. -/
theorem find?_directory (htree : nodes.Tree) (hkind : nodes.kind? path = some .directory) :
    nodes.find? path = some (.directory path (Path.name path) (nodes.names path)) := by
  obtain ⟨node, hfind, hnode⟩ := Option.map_eq_some_iff.mp hkind
  cases node with
  | directory own name children =>
      obtain rfl : own = path := htree.path_eq hfind
      rw [names, hfind, htree.name_eq hfind]
      rfl
  | file own content created modified => cases hnode

theorem canonical_of_kind? (htree : nodes.Tree) {kind : NodeKind}
    (hkind : nodes.kind? path = some kind) : Path.Canonical path := by
  obtain ⟨node, hfind, -⟩ := Option.map_eq_some_iff.mp hkind
  exact htree.canonical hfind

/-- What is stored is listed where it belongs. -/
theorem name_mem_names (htree : nodes.Tree) {node : Node} (hfind : nodes.find? key = some node)
    (hparent : Path.parent? key = some parent) : Path.name key ∈ nodes.names parent := by
  obtain ⟨-, hname, hkey⟩ := (htree.canonical hfind).of_parent? hparent
  rw [htree.mem_names hname, ← hkey, hfind]
  rfl

theorem kind?_parent (htree : nodes.Tree) {node : Node} (hfind : nodes.find? key = some node)
    (hparent : Path.parent? key = some parent) : nodes.kind? parent = some .directory :=
  kind?_of_mem_names (htree.name_mem_names hfind hparent)

/-- What a stored path lies in is a stored directory. -/
theorem kind?_of_isWithin (htree : nodes.Tree) {node : Node}
    (hfind : nodes.find? key = some node) (hwithin : Path.isWithin key path = true)
    (hne : key ≠ path) : nodes.kind? path = some .directory := by
  have hkey := htree.canonical hfind
  -- one component after the other, from the stored path up
  induction hkey generalizing node with
  | atRoot => exact absurd (Path.eq_root_of_isWithin hwithin).symm hne
  | @beneath directory name hdirectory hname ih =>
      have hparent := htree.kind?_parent hfind (Path.parent?_join hname.noSeparator)
      rw [Path.isWithin_join_iff hname.noSeparator, or_iff_right hne] at hwithin
      by_cases heq : directory = path
      · exact heq ▸ hparent
      · obtain ⟨above, habove, -⟩ := Option.map_eq_some_iff.mp hparent
        exact ih habove hwithin heq

end Tree

end Contents
end VirtualShell
