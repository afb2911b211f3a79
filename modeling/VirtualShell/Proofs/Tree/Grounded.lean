import VirtualShell.Proofs.Store.Shown
import VirtualShell.Proofs.Store.Walk
import VirtualShell.Proofs.Tree.Invariant

/-!
# What lies below a path

What is stored below a path is found by going from children to children, one component at a time.
For this it is enough that the paths are in order: what is above a stored path is stored and is a
directory.  The names that directories list may be any.
-/

namespace VirtualShell
namespace Contents

/-- The paths are in order, whatever names are listed: every node is stored under the canonical
path it knows, what is above it is stored, and only directories have something below them. -/
structure Grounded (nodes : Contents) : Prop where
  canonical {key : String} {node : Node} (hfind : nodes.find? key = some node) : Path.Canonical key
  path_eq {key : String} {node : Node} (hfind : nodes.find? key = some node) : node.path = key
  isSome_parent {key parent : String} {node : Node} (hfind : nodes.find? key = some node)
    (hparent : Path.parent? key = some parent) : (nodes.find? parent).isSome
  directory_of_within {key path : String} {node above : Node}
    (hfind : nodes.find? key = some node) (habove : nodes.find? path = some above)
    (hwithin : Path.isWithin key path = true) (hne : key ≠ path) : above.kind = .directory

section

variable {nodes : Contents} {path parent : String}

theorem Tree.grounded (htree : nodes.Tree) : nodes.Grounded where
  canonical := htree.canonical
  path_eq := htree.path_eq
  isSome_parent hfind hparent := isSome_find?_of_kind? (htree.kind?_parent hfind hparent)
  directory_of_within hfind habove hwithin hne := by
    have hkind := htree.kind?_of_isWithin hfind hwithin hne
    rw [kind?, habove, Option.map_some, Option.some.injEq] at hkind
    exact hkind

/-- Whether the paths are in order is seen from the entries. -/
theorem grounded_iff :
    nodes.Grounded ↔ ∀ entry ∈ nodes.entries,
      Path.Canonical entry.1 ∧ entry.2.path = entry.1 ∧
        (∀ parent ∈ Path.parent? entry.1, (nodes.find? parent).isSome) ∧
        ∀ above ∈ nodes.entries, Path.isWithin entry.1 above.1 = true → entry.1 ≠ above.1 →
          above.2.kind = .directory := by
  constructor
  · rintro hgrounded ⟨key, node⟩ hentry
    have hfind := SortedMap.find?_of_mem_entries hentry
    exact ⟨hgrounded.canonical hfind, hgrounded.path_eq hfind,
      fun parent hparent => hgrounded.isSome_parent hfind hparent,
      fun above habove => hgrounded.directory_of_within hfind
        (SortedMap.find?_of_mem_entries habove)⟩
  · intro hentries
    exact {
      canonical := fun hfind => (hentries _ (SortedMap.mem_entries_of_find? hfind)).1
      path_eq := fun hfind => (hentries _ (SortedMap.mem_entries_of_find? hfind)).2.1
      isSome_parent := fun hfind hparent =>
        (hentries _ (SortedMap.mem_entries_of_find? hfind)).2.2.1 _ hparent
      directory_of_within := fun hfind habove =>
        (hentries _ (SortedMap.mem_entries_of_find? hfind)).2.2.2 _
          (SortedMap.mem_entries_of_find? habove) }

instance (nodes : Contents) : Decidable nodes.Grounded :=
  decidable_of_iff _ grounded_iff.symm

namespace Grounded

variable (hgrounded : nodes.Grounded)

include hgrounded

/-- Above a stored path there is a directory that knows its path. -/
theorem exists_parent {node : Node} (hfind : nodes.find? path = some node)
    (hparent : Path.parent? path = some parent) :
    ∃ name children, nodes.find? parent = some (.directory parent name children) := by
  obtain ⟨above, habove⟩ := Option.isSome_iff_exists.mp (hgrounded.isSome_parent hfind hparent)
  have hcanonical := hgrounded.canonical hfind
  obtain ⟨-, hname, hjoin⟩ := hcanonical.of_parent? hparent
  have hwithin : Path.isWithin path parent = true :=
    hcanonical.isWithin_of_parent? hparent (Path.isWithin_self parent)
  have hne : path ≠ parent := by
    rw [hjoin]
    exact Path.join_ne_self
  have hkind := hgrounded.directory_of_within hfind habove hwithin hne
  cases above with
  | directory own name children =>
      obtain rfl : own = parent := hgrounded.path_eq habove
      exact ⟨name, children, habove⟩
  | file own content created modified => cases hkind

/-- What is reached from a stored path is what is stored at and below it. -/
theorem reaches_iff {s : Store} (hs : s.Shows nodes) (hstored : (nodes.find? path).isSome)
    (key : String) :
    s.Reaches path key ↔ (nodes.find? key).isSome ∧ Path.isWithin key path = true := by
  constructor
  · intro hreaches
    induction hreaches with
    | refl => exact ⟨hstored, Path.isWithin_self path⟩
    | tail _ hchild ih =>
        obtain ⟨hchild, name, -, hname, rfl⟩ := hs.mem_children.mp hchild
        exact ⟨hchild, Path.isWithin_trans (Path.isWithin_join_self hname) ih.2⟩
  · rintro ⟨hkey, hwithin⟩
    obtain ⟨node, hfind⟩ := Option.isSome_iff_exists.mp hkey
    have hcanonical := hgrounded.canonical hfind
    -- going down to a stored path passes through stored paths only
    induction hcanonical generalizing node with
    | atRoot =>
        rw [Path.eq_root_of_isWithin hwithin]
        exact .refl
    | @beneath directory name hdirectory hname ih =>
        have habove := hgrounded.isSome_parent hfind (Path.parent?_join hname.noSeparator)
        rw [Path.isWithin_join_iff hname.noSeparator] at hwithin
        rcases hwithin with rfl | hwithin
        · exact .refl
        · obtain ⟨above, hfindAbove⟩ := Option.isSome_iff_exists.mp habove
          refine (ih habove hwithin above hfindAbove).tail (hs.mem_children.mpr ?_)
          refine ⟨hkey, name, ?_, hname.noSeparator, rfl⟩
          rintro rfl
          exact hname.ne_nil rfl

/-- The walk below a stored path finds what is stored at and below it. -/
theorem mem_walk {s : Store} (hs : s.Shows nodes) (hstored : (nodes.find? path).isSome)
    (key : String) :
    key ∈ s.walk [path] [] ↔ (nodes.find? key).isSome ∧ Path.isWithin key path = true := by
  rw [Store.mem_walk, ← hgrounded.reaches_iff hs hstored]
  simp

/-- With a file nothing goes but the file. -/
theorem eq_of_within_file {node : Node} (hfind : nodes.find? path = some node)
    (hfile : node.kind = .file) {key : String} (hkey : (nodes.find? key).isSome)
    (hwithin : Path.isWithin key path = true) : key = path := by
  by_contra hne
  obtain ⟨found, hfound⟩ := Option.isSome_iff_exists.mp hkey
  have hdirectory := hgrounded.directory_of_within hfound hfind hwithin hne
  rw [hfile] at hdirectory
  cases hdirectory

end Grounded

end

end Contents
end VirtualShell
