import Mathlib.Logic.Relation
import VirtualShell.Proofs.Path.Containment

/-!
# Ancestors

A path lies within another one exactly if it comes to it by going up, and exactly if its components
start with those of the other.  The first is an induction on the path, whose constructors are the
steps upwards; the second compares components, so a name that merely starts with another name, or one
that is called like the root, makes no difference.
-/

namespace VirtualShell
namespace Path

/-! ### Components and parents -/

theorem Canonical.components_join {directory name : String} (hdirectory : Canonical directory)
    (hname : IsComponent name.toList) :
    components (join directory name) = components directory ++ [name.toList] := by
  obtain ⟨parts, hparts, rfl⟩ := hdirectory.exists_components
  have hall : ∀ part ∈ parts ++ [name.toList], IsComponent part := by
    rw [List.forall_mem_append, List.forall_mem_singleton]
    exact ⟨hparts, hname⟩
  have hwritten : join (ofComponents parts) name = ofComponents (parts ++ [name.toList]) := by
    rw [ofComponents_append, String.ofList_toList]
  rw [hwritten, components_ofComponents hall, components_ofComponents hparts]

theorem components_root : components root = [] := rfl

theorem Canonical.components_inj {path other : String} (hpath : Canonical path)
    (hother : Canonical other) : components path = components other ↔ path = other := by
  constructor
  · intro heq
    rw [← hpath.ofComponents_components, heq, hother.ofComponents_components]
  · rintro rfl
    rfl

theorem Canonical.length_lt_of_parent? {path parent : String} (hpath : Canonical path)
    (hparent : parent? path = some parent) : parent.toList.length < path.toList.length := by
  obtain ⟨-, -, hjoin⟩ := hpath.of_parent? hparent
  rw [hjoin, toList_join, List.length_append, List.length_cons]
  omega

/-- Two points mean the parent, and at the root the root. -/
theorem Canonical.resolve_dots {cwd : String} (hcwd : Canonical cwd) :
    resolve ".." cwd = .ok ((parent? cwd).getD root) := by
  have hstart : start ".." cwd = (components cwd, ['.', '.']) := rfl
  have hup : (split ['.', '.']).foldl follow (components cwd) = (components cwd).dropLast := by
    simp [split, follow, separator]
  rw [resolve, if_neg (by decide), if_neg (by decide), hstart]
  simp only [hup]
  cases hcwd with
  | atRoot => rw [components_root, List.dropLast_nil, ofComponents_nil, parent?_root, Option.getD_none]
  | beneath hdirectory hname =>
      rw [hdirectory.components_join hname, List.dropLast_concat,
        hdirectory.ofComponents_components, parent?_join hname.noSeparator, Option.getD_some]

/-! ### Going up -/

/-- The path comes to the ancestor by going to the parent, not at all or any number of times. -/
def IsAncestor (ancestor path : String) : Prop :=
  Relation.ReflTransGen (fun below above => parent? below = some above) path ancestor

theorem isAncestor_root_iff {ancestor : String} : IsAncestor ancestor root ↔ root = ancestor := by
  rw [IsAncestor, Relation.ReflTransGen.cases_head_iff]
  simp

theorem isAncestor_join_iff {directory name ancestor : String} (hname : separator ∉ name.toList) :
    IsAncestor ancestor (join directory name) ↔
      join directory name = ancestor ∨ IsAncestor ancestor directory := by
  rw [IsAncestor, Relation.ReflTransGen.cases_head_iff, parent?_join hname]
  simp [IsAncestor]

/-- To lie within a path is to come to it by going up. -/
theorem Canonical.isWithin_iff_isAncestor {path ancestor : String} (hpath : Canonical path) :
    isWithin path ancestor = true ↔ IsAncestor ancestor path := by
  induction hpath with
  | atRoot =>
      rw [isAncestor_root_iff]
      constructor
      · exact fun hwithin => (eq_root_of_isWithin hwithin).symm
      · rintro rfl
        exact isWithin_self root
  | beneath _ hname ih =>
      rw [isWithin_join_iff hname.noSeparator, isAncestor_join_iff hname.noSeparator, ih]

/-- To lie within a path is to start with its components. -/
theorem Canonical.isWithin_iff_prefix {path ancestor : String} (hpath : Canonical path)
    (hancestor : Canonical ancestor) :
    isWithin path ancestor = true ↔ components ancestor <+: components path := by
  induction hpath with
  | atRoot =>
      rw [components_root, List.prefix_nil, ← components_root, hancestor.components_inj .atRoot]
      constructor
      · exact eq_root_of_isWithin
      · rintro rfl
        exact isWithin_self root
  | beneath hdirectory hname ih =>
      rw [isWithin_join_iff hname.noSeparator, hdirectory.components_join hname,
        List.prefix_concat_iff, ih, ← hdirectory.components_join hname,
        hancestor.components_inj (.beneath hdirectory hname), eq_comm]

theorem Canonical.isWithin_root {path : String} (hpath : Canonical path) :
    isWithin path root = true :=
  (hpath.isWithin_iff_prefix .atRoot).mpr (components_root ▸ List.nil_prefix)

theorem Canonical.isWithin_antisymm {path other : String} (hpath : Canonical path)
    (hother : Canonical other) (hdown : isWithin path other = true)
    (hup : isWithin other path = true) : path = other := by
  have hshort := (hpath.isWithin_iff_prefix hother).mp hdown
  have hlong := (hother.isWithin_iff_prefix hpath).mp hup
  exact (hpath.components_inj hother).mp (hlong.eq_of_length_le hshort.length_le)

/-- Containment of canonical paths is the ancestor relation: a path lies within another one exactly
if it comes to it by going up, and exactly if its components start with those of the other.  Going up
from anything but the root ends in a shorter canonical path, and undoes the joining of a name; it is
also what two points mean.  So containment is a partial order with the root at its lower end, and what
a path lies within stands in one line. -/
theorem isWithin_ancestral {path ancestor : String} (hpath : Canonical path)
    (hancestor : Canonical ancestor) :
    (isWithin path ancestor = true ↔ IsAncestor ancestor path) ∧
    (isWithin path ancestor = true ↔ components ancestor <+: components path) ∧
    (parent? path = none ↔ path = root) ∧
    (∀ parent, parent? path = some parent →
      Canonical parent ∧ parent.toList.length < path.toList.length ∧
        join parent (Path.name path) = path) ∧
    (∀ name : String, IsComponent name.toList →
      parent? (join path name) = some path ∧ Path.name (join path name) = name) ∧
    resolve ".." path = .ok ((parent? path).getD root) ∧
    isWithin path path = true ∧
    (isWithin path ancestor = true → isWithin ancestor path = true → path = ancestor) ∧
    (∀ further, isWithin path ancestor = true → isWithin ancestor further = true →
      isWithin path further = true) ∧
    isWithin path root = true ∧
    ∀ other, isWithin path ancestor = true → isWithin path other = true →
      isWithin ancestor other = true ∨ isWithin other ancestor = true := by
  refine ⟨hpath.isWithin_iff_isAncestor, hpath.isWithin_iff_prefix hancestor,
    hpath.parent?_eq_none_iff, fun parent hparent => ?_, fun name hname => ?_, hpath.resolve_dots,
    isWithin_self path, hpath.isWithin_antisymm hancestor, fun _ => isWithin_trans,
    hpath.isWithin_root, fun _ => isWithin_or_isWithin⟩
  · obtain ⟨hcanonical, -, hjoin⟩ := hpath.of_parent? hparent
    exact ⟨hcanonical, hpath.length_lt_of_parent? hparent, hjoin.symm⟩
  · exact ⟨parent?_join hname.noSeparator, name_join hname.noSeparator⟩

/-- A name that starts with the name of a directory does not lie within it, and a component may be
named like the root. -/
theorem isWithin_ancestral_namesake :
    Canonical "~/é/~" ∧ Canonical "~/é" ∧
      IsAncestor "~/é" "~/é/~" ∧ ¬ isWithin "~/éa" "~/é" = true ∧
      resolve ".." "~/é/~" = .ok "~/é" := by
  have hpath : Canonical "~/é/~" := by decide +kernel
  have hancestor : Canonical "~/é" := by decide +kernel
  obtain ⟨hgoing, -, -, -, -, hdots, -⟩ := isWithin_ancestral hpath hancestor
  have hparent : (parent? "~/é/~").getD root = "~/é" := by decide +kernel
  exact ⟨hpath, hancestor, hgoing.mp (by decide +kernel), by decide +kernel, hparent ▸ hdots⟩

end Path
end VirtualShell
