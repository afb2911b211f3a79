import VirtualShell.Proofs.Run.Sound

/-!
# Paths and listed names agree after every run

The tree is kept twice, and after every run the two agree: a directory lists the names of exactly
what a scan of the paths finds below it, each once.  So what a listing shows and what a removal
takes are the same.
-/

namespace VirtualShell
namespace Contents

/-- The two ways in which a tree is kept agree: every node is stored under the path it knows, its
parent is stored as a directory that lists it once, and whatever is listed is stored. -/
structure Consistent (nodes : Contents) : Prop where
  root : ∃ name children, nodes.find? Path.root = some (.directory Path.root name children)
  canonical {key : String} {node : Node} (hfind : nodes.find? key = some node) :
    Path.Canonical key ∧ node.path = key
  named {key path name : String} {children : List String}
    (hfind : nodes.find? key = some (.directory path name children)) : name = Path.name key
  listed {key : String} {node : Node} (hfind : nodes.find? key = some node)
    (hroot : key ≠ Path.root) :
    ∃ parent path name children, Path.parent? key = some parent ∧
      nodes.find? parent = some (.directory path name children) ∧
      children.count (Path.name key) = 1
  stored {key path name child : String} {children : List String}
    (hfind : nodes.find? key = some (.directory path name children)) (hchild : child ∈ children) :
    children.count child = 1 ∧ ∃ node, nodes.find? (Path.join key child) = some node

namespace Tree

variable {nodes : Contents} (htree : nodes.Tree)

include htree

theorem consistent : nodes.Consistent where
  root := ⟨_, _, htree.find?_directory htree.root⟩
  canonical hfind := ⟨htree.canonical hfind, htree.path_eq hfind⟩
  named hfind := htree.name_eq hfind
  listed {key node} hfind hroot := by
    rcases (htree.canonical hfind).cases_parent with heq | ⟨parent, hparent, -⟩
    · exact absurd heq hroot
    · refine ⟨parent, parent, Path.name parent, nodes.names parent, hparent, ?_, ?_⟩
      · exact htree.find?_directory (htree.kind?_parent hfind hparent)
      · exact List.count_eq_one_of_mem (htree.nodup parent) (htree.name_mem_names hfind hparent)
  stored {key path name child children} hfind hchild := by
    rw [← names_of_find? hfind] at hchild ⊢
    refine ⟨List.count_eq_one_of_mem (htree.nodup key) hchild, ?_⟩
    exact Option.isSome_iff_exists.mp ((htree.mem_names (htree.isComponent hchild)).mp hchild)

/-- What is found by scanning the paths below a directory is what the directory lists. -/
theorem perm_children {s : Store} (hs : s.Holds nodes) (path : String) :
    (s.children path).Perm ((nodes.names path).map (Path.join path)) := by
  have hinj : ∀ name ∈ nodes.names path, ∀ other ∈ nodes.names path,
      Path.join path name = Path.join path other → name = other := by
    intro name hname other hother heq
    exact ((Path.join_inj (htree.isComponent hname).noSeparator
      (htree.isComponent hother).noSeparator).mp heq).2
  -- neither list repeats anything, so it is enough that they have the same members
  refine (List.perm_ext_iff_of_nodup (hs.nodup_children path) ?_).mpr fun child => ?_
  · exact List.Nodup.map_on hinj (htree.nodup path)
  · rw [hs.mem_children, List.mem_map]
    constructor
    · rintro ⟨⟨node, hfind⟩, name, hne, hseparator, rfl⟩
      have hname := htree.name_mem_names hfind (Path.parent?_join hseparator)
      rw [Path.name_join hseparator] at hname
      exact ⟨name, hname, rfl⟩
    · rintro ⟨name, hname, rfl⟩
      have hcomponent := htree.isComponent hname
      refine ⟨Option.isSome_iff_exists.mp ((htree.mem_names hcomponent).mp hname), name, ?_,
        hcomponent.noSeparator, rfl⟩
      rintro rfl
      exact hcomponent.ne_nil rfl

end Tree

end Contents

namespace Shared

/-- After every run of any sessions, whatever was refused on the way, the store holds a consistent
tree, and the scan below a directory finds what the directory lists. -/
theorem consistent_run (backend : Backend) (now : Timestamp) {steps : List Step}
    (hstarted : ((fresh backend now).run steps).clients ≠ []) :
    ∃ nodes : Contents, ((fresh backend now).run steps).store.Holds nodes ∧ nodes.Consistent ∧
      ∀ key path name children, nodes.find? key = some (.directory path name children) →
        (((fresh backend now).run steps).store.children key).Perm
          (children.map (Path.join key)) := by
  obtain ⟨nodes, hsound⟩ := sound_run backend now hstarted
  refine ⟨nodes, hsound.holds, hsound.tree.consistent, ?_⟩
  intro key path name children hfind
  rw [← Contents.names_of_find? hfind]
  exact hsound.tree.perm_children hsound.holds key

/-- A session starts, makes a directory and is refused a file in it. -/
def shortRun : List Step :=
  [.start false ⟨defaultQuotaBytes, false⟩, .operate 0 (.createDirectory "a"), .refuse true,
    .operate 0 (.createFile "a/b" "")]

theorem consistent_shortRun :
    ∃ nodes : Contents, ((fresh .memory 0).run shortRun).store.Holds nodes ∧ nodes.Consistent ∧
      ∀ key path name children, nodes.find? key = some (.directory path name children) →
        (((fresh .memory 0).run shortRun).store.children key).Perm
          (children.map (Path.join key)) :=
  consistent_run .memory 0 (by decide +kernel)

end Shared
end VirtualShell
