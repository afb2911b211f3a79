import VirtualShell.Proofs.Tree.Pruning

/-!
# Edits of a tree

An edit puts a node under a path or clears the path with all that lies below.  Either way the same
is to be said of what is found afterwards: what stands at and below the path, and what the directory
above lists, follow from the edit, and nothing else changes.  So two edits can be made in either
order if neither path lies within the other.  Only if both add a name to the same directory can it
be told from the order of the names which came first.
-/

namespace VirtualShell

namespace Contents

theorem enlist_of_mem {names : List String} {name : String} (hname : name ∈ names) :
    enlist names name = names :=
  if_pos (List.contains_iff_mem.mpr hname)

theorem enlist_of_not_mem {names : List String} {name : String} (hname : name ∉ names) :
    enlist names name = names ++ [name] :=
  if_neg fun hcontains => hname (List.contains_iff_mem.mp hcontains)

theorem filter_enlist {name other : String} (hne : name ≠ other) (names : List String) :
    (enlist names name).filter (· ≠ other) = enlist (names.filter (· ≠ other)) name := by
  have hmem : name ∈ names.filter (· ≠ other) ↔ name ∈ names := by simp [hne]
  simp only [enlist, List.contains_iff_mem, hmem]
  split
  · rfl
  · simp [hne]

end Contents

/-- What becomes of a path: a node takes it, or it is cleared, with all that lies below. -/
inductive Edit where
  | put (node : Node)
  | clear

/-- The node with other names, if it is a directory. -/
def Node.relist (list : List String → List String) : Node → Node
  | .directory path name children => .directory path name (list children)
  | .file path content created modified => .file path content created modified

namespace Edit

open Contents (enlist mem_enlist enlist_of_mem filter_enlist)

/-- What stands at and below the path afterwards. -/
def stands (path : String) (e : Edit) (key : String) : Option Node :=
  match e with
  | .put node => if key = path then some node else none
  | .clear => none

/-- What the directory above lists afterwards. -/
def list (name : String) (e : Edit) (names : List String) : List String :=
  match e with
  | .put _ => enlist names name
  | .clear => names.filter (· ≠ name)

/-- Where a cursor goes: what stands at or below a cleared path goes to the directory above. -/
def move (path parent : String) (e : Edit) (cursor : String) : String :=
  match e with
  | .put _ => cursor
  | .clear => if Path.isWithin cursor path then parent else cursor

theorem move_of_not_isWithin (e : Edit) {path parent cursor : String}
    (hcursor : ¬ Path.isWithin cursor path = true) : e.move path parent cursor = cursor := by
  cases e with
  | put node => rfl
  | clear => rw [move, if_neg hcursor]

/-- Names can be listed in either order, but for two new ones. -/
theorem list_comm (e e' : Edit) {name name' : String} (hne : name ≠ name') {names : List String}
    (hnew : ∀ node node', e = .put node → e' = .put node' → name ∈ names ∨ name' ∈ names) :
    e'.list name' (e.list name names) = e.list name (e'.list name' names) := by
  cases e with
  | put node =>
      cases e' with
      | put node' =>
          simp only [list]
          -- one of the two was listed already, and is so still after the other
          rcases hnew node node' rfl rfl with hlisted | hlisted
          · rw [enlist_of_mem hlisted, enlist_of_mem (mem_enlist.mpr (.inl hlisted))]
          · rw [enlist_of_mem hlisted, enlist_of_mem (mem_enlist.mpr (.inl hlisted))]
      | clear => exact filter_enlist hne names
  | clear =>
      cases e' with
      | put node' => exact (filter_enlist hne.symm names).symm
      | clear => exact List.filter_comm ..

end Edit

namespace Contents

/-- The contents after an edit at a path. -/
def edit (nodes : Contents) (path : String) : Edit → Contents
  | .put node => nodes.plant node
  | .clear => nodes.prune path

/-- An edit can be made at a path below a directory. -/
inductive Fits (nodes : Contents) (path parent : String) : Edit → Prop
  | put {node : Node} (hpath : node.path = path) (hplant : Plantable nodes node parent) :
    Fits nodes path parent (.put node)
  | clear (hprune : Prunable nodes path parent) : Fits nodes path parent .clear

section

variable {nodes : Contents} {path parent key : String} {e : Edit}

theorem Fits.directory (hfits : Fits nodes path parent e) (htree : nodes.Tree) :
    nodes.kind? parent = some .directory := by
  cases hfits with
  | put hpath hplant => exact hplant.directory
  | clear hprune => exact hprune.directory htree

theorem Fits.parent_eq (hfits : Fits nodes path parent e) : Path.parent? path = some parent := by
  cases hfits with
  | put hpath hplant => exact hpath ▸ hplant.parent_eq
  | clear hprune => exact hprune.parent_eq

theorem Fits.canonical (hfits : Fits nodes path parent e) (htree : nodes.Tree) :
    Path.Canonical path := by
  cases hfits with
  | put hpath hplant => exact hpath ▸ hplant.canonical
  | clear hprune => exact hprune.canonical htree

theorem Fits.not_isWithin (hfits : Fits nodes path parent e) (htree : nodes.Tree) :
    ¬ Path.isWithin parent path = true := by
  obtain ⟨-, -, hjoin⟩ := (hfits.canonical htree).of_parent? hfits.parent_eq
  rw [hjoin]
  exact Path.not_isWithin_join

theorem Tree.edit (htree : nodes.Tree) (hfits : Fits nodes path parent e) :
    (nodes.edit path e).Tree := by
  cases hfits with
  | put hpath hplant => exact htree.plant hplant
  | clear hprune => exact htree.prune hprune

/-- Nothing is stored below what is not a directory. -/
theorem Tree.find?_eq_none (htree : nodes.Tree) (hkind : nodes.kind? path ≠ some .directory)
    (hwithin : Path.isWithin key path = true) (hne : key ≠ path) : nodes.find? key = none := by
  by_contra hsome
  obtain ⟨node, hfind⟩ := Option.ne_none_iff_exists'.mp hsome
  exact hkind (htree.kind?_of_isWithin hfind hwithin hne)

/-- The directory above lists a path exactly if something is stored there. -/
theorem Fits.mem_names (hfits : Fits nodes path parent e) (htree : nodes.Tree) :
    Path.name path ∈ nodes.names parent ↔ (nodes.find? path).isSome := by
  obtain ⟨-, hname, hjoin⟩ := (hfits.canonical htree).of_parent? hfits.parent_eq
  rw [htree.mem_names hname, ← hjoin]

/-- What is found after an edit. -/
theorem find?_edit (htree : nodes.Tree) (hfits : Fits nodes path parent e) (key : String) :
    (nodes.edit path e).find? key =
      if Path.isWithin key path then e.stands path key
      else if key = parent then (nodes.find? key).map (Node.relist (e.list (Path.name path)))
      else nodes.find? key := by
  have habove := htree.find?_directory (hfits.directory htree)
  have hparent := hfits.not_isWithin htree
  cases hfits with
  | put hpath hplant =>
      rw [edit, find?_plant htree hplant, hpath]
      have hfree := hplant.free
      rw [hpath] at hfree
      by_cases hkey : key = path
      · rw [if_pos hkey, hkey, if_pos (Path.isWithin_self path), Edit.stands, if_pos rfl]
      · by_cases hwithin : Path.isWithin key path = true
        · have hne : key ≠ parent := fun heq => hparent (heq ▸ hwithin)
          rw [if_neg hkey, if_neg hne, if_pos hwithin, Edit.stands, if_neg hkey,
            htree.find?_eq_none hfree hwithin hkey]
        · rw [if_neg hkey, if_neg hwithin]
          split
          · rename_i heq
            rw [heq, habove]
            rfl
          · rfl
  | clear hprune =>
      rw [edit, find?_prune htree hprune]
      split
      · rfl
      · split
        · rename_i heq
          rw [heq, habove]
          rfl
        · rfl

theorem kind_relist (list : List String → List String) (node : Node) :
    (node.relist list).kind = node.kind := by
  cases node <;> rfl

/-- Outside of the path an edit leaves directories directories and files files. -/
theorem kind?_edit (htree : nodes.Tree) (hfits : Fits nodes path parent e)
    (houtside : ¬ Path.isWithin key path = true) :
    (nodes.edit path e).kind? key = nodes.kind? key := by
  rw [kind?, find?_edit htree hfits, if_neg houtside, kind?]
  split
  · rw [Option.map_map]
    congr 1
    funext node
    exact kind_relist _ node
  · rfl

end

/-! ### Two edits -/

section Two

variable {path' parent' : String} {e' : Edit} (hfits : Fits nodes path parent e)
  (htree : nodes.Tree) (hapart : ¬ Path.isWithin path path' = true)
  (hapart' : ¬ Path.isWithin path' path = true)

include hfits htree hapart

theorem Fits.not_isWithin_apart : ¬ Path.isWithin parent path' = true :=
  fun hwithin => hapart ((hfits.canonical htree).isWithin_of_parent? hfits.parent_eq hwithin)

theorem Fits.not_isWithin_move {cursor : String}
    (hcursor : ¬ Path.isWithin cursor path' = true) :
    ¬ Path.isWithin (e.move path parent cursor) path' = true := by
  cases e with
  | put node => exact hcursor
  | clear =>
      rw [Edit.move]
      split
      · exact hfits.not_isWithin_apart htree hapart
      · exact hcursor

/-- Different paths with one directory above have different names. -/
theorem Fits.name_ne (hfits' : Fits nodes path' parent e') : Path.name path ≠ Path.name path' := by
  intro hname
  obtain ⟨-, -, hjoin⟩ := (hfits.canonical htree).of_parent? hfits.parent_eq
  obtain ⟨-, -, hjoin'⟩ := (hfits'.canonical htree).of_parent? hfits'.parent_eq
  rw [← hname, ← hjoin] at hjoin'
  exact hapart (hjoin' ▸ Path.isWithin_self _)

/-- The names that the common directory lists afterwards. -/
theorem Fits.find?_twice (hafter : Fits (nodes.edit path e) path' parent e') :
    ((nodes.edit path e).edit path' e').find? parent =
      some (.directory parent (Path.name parent)
        (e'.list (Path.name path') (e.list (Path.name path) (nodes.names parent)))) := by
  rw [find?_edit (htree.edit hfits) hafter, if_neg (hfits.not_isWithin_apart htree hapart),
    if_pos rfl, find?_edit htree hfits, if_neg (hfits.not_isWithin htree), if_pos rfl,
    htree.find?_directory (hfits.directory htree)]
  rfl

include hapart'

/-- What stands at a path apart from an edit stays. -/
theorem Fits.find?_apart : (nodes.edit path e).find? path' = nodes.find? path' := by
  rw [find?_edit htree hfits, if_neg hapart', if_neg]
  rintro rfl
  exact hfits.not_isWithin_apart htree hapart (Path.isWithin_self _)

/-- A cursor goes to the same place in either order. -/
theorem Fits.move_comm (hfits' : Fits nodes path' parent' e') (cursor : String) :
    e'.move path' parent' (e.move path parent cursor) =
      e.move path parent (e'.move path' parent' cursor) := by
  by_cases hcursor : Path.isWithin cursor path = true
  · have hother : ¬ Path.isWithin cursor path' = true := fun hwithin =>
      (Path.isWithin_or_isWithin hcursor hwithin).elim hapart hapart'
    rw [e'.move_of_not_isWithin hother,
      e'.move_of_not_isWithin (hfits.not_isWithin_move htree hapart hother)]
  · rw [e.move_of_not_isWithin hcursor,
      e.move_of_not_isWithin (hfits'.not_isWithin_move htree hapart' hcursor)]

/-- The same is found in either order, unless both paths have the same directory above: there it
depends on the names. -/
theorem Fits.find?_comm (hfits' : Fits nodes path' parent' e')
    (hafter : Fits (nodes.edit path e) path' parent' e')
    (hafter' : Fits (nodes.edit path' e') path parent e) {key : String}
    (hlist : key = parent → key = parent' →
      e'.list (Path.name path') (e.list (Path.name path) (nodes.names key)) =
        e.list (Path.name path) (e'.list (Path.name path') (nodes.names key))) :
    ((nodes.edit path e).edit path' e').find? key =
      ((nodes.edit path' e').edit path e).find? key := by
  rw [find?_edit (htree.edit hfits) hafter, find?_edit (htree.edit hfits') hafter',
    find?_edit htree hfits, find?_edit htree hfits']
  -- no path is at or below both, and neither directory above is at or below the other path
  by_cases hwithin : Path.isWithin key path = true
  · have hwithin' : ¬ Path.isWithin key path' = true := fun hwithin' =>
      (Path.isWithin_or_isWithin hwithin hwithin').elim hapart hapart'
    have hne : key ≠ parent' := fun heq =>
      hfits'.not_isWithin_apart htree hapart' (heq ▸ hwithin)
    rw [if_neg hwithin', if_neg hne, if_pos hwithin, if_pos hwithin]
  · by_cases hwithin' : Path.isWithin key path' = true
    · have hne : key ≠ parent := fun heq =>
        hfits.not_isWithin_apart htree hapart (heq ▸ hwithin')
      rw [if_pos hwithin', if_neg hwithin, if_neg hne, if_pos hwithin']
    · simp only [if_neg hwithin, if_neg hwithin']
      by_cases hparent : key = parent
      · by_cases hparent' : key = parent'
        · simp only [if_pos hparent, if_pos hparent', Option.map_map]
          rw [htree.find?_directory (hparent ▸ hfits.directory htree)]
          simp only [Option.map_some, Function.comp_apply, Node.relist, hlist hparent hparent']
        · simp only [if_pos hparent, if_neg hparent']
      · simp only [if_neg hparent]

/-- Edits can be made in either order, but for two that each list a new name in one directory. -/
theorem Fits.edit_comm (hfits' : Fits nodes path' parent' e')
    (hafter : Fits (nodes.edit path e) path' parent' e')
    (hafter' : Fits (nodes.edit path' e') path parent e)
    (hnew : parent = parent' → ∀ node node', e = .put node → e' = .put node' →
      (nodes.find? path).isSome ∨ (nodes.find? path').isSome) :
    (nodes.edit path e).edit path' e' = (nodes.edit path' e').edit path e := by
  refine SortedMap.ext_find? fun key =>
    hfits.find?_comm htree hapart hapart' hfits' hafter hafter' ?_
  rintro rfl rfl
  refine Edit.list_comm e e' (hfits.name_ne htree hapart hfits') fun node node' hput hput' => ?_
  rw [hfits.mem_names htree, hfits'.mem_names htree]
  exact hnew rfl node node' hput hput'

/-- Of two new names in one directory, the one that was put in first comes first. -/
theorem Fits.edit_swap {node node' : Node} (he : e = .put node) (he' : e' = .put node')
    (hfits' : Fits nodes path' parent e')
    (hafter : Fits (nodes.edit path e) path' parent e')
    (hafter' : Fits (nodes.edit path' e') path parent e)
    (hnew : nodes.find? path = none) (hnew' : nodes.find? path' = none) :
    ((nodes.edit path e).edit path' e').find? parent =
        some (.directory parent (Path.name parent)
          (nodes.names parent ++ [Path.name path, Path.name path'])) ∧
      (nodes.edit path' e').edit path e =
        MemoryStore.applyChange ((nodes.edit path e).edit path' e')
          (.put (.directory parent (Path.name parent)
            (nodes.names parent ++ [Path.name path', Path.name path]))) := by
  have hne := hfits.name_ne htree hapart hfits'
  have hname : Path.name path ∉ nodes.names parent := by
    rw [hfits.mem_names htree, hnew]
    simp
  have hname' : Path.name path' ∉ nodes.names parent := by
    rw [hfits'.mem_names htree, hnew']
    simp
  have hlast {first second : String} (hfirst : first ∉ nodes.names parent)
      (hsecond : second ∉ nodes.names parent) (hne : first ≠ second) :
      enlist (enlist (nodes.names parent) first) second =
        nodes.names parent ++ [first, second] := by
    rw [enlist_of_not_mem hfirst, enlist_of_not_mem (by simp [hsecond, hne.symm])]
    simp
  have htwice := hfits.find?_twice htree hapart hafter
  have htwice' := hfits'.find?_twice htree hapart' hafter'
  subst he he'
  rw [Edit.list, Edit.list, hlast hname hname' hne] at htwice
  rw [Edit.list, Edit.list, hlast hname' hname hne.symm] at htwice'
  refine ⟨htwice, SortedMap.ext_find? fun key => ?_⟩
  rw [MemoryStore.find?_put, Node.path_directory]
  by_cases hparent : key = parent
  · rw [if_pos hparent, hparent, htwice']
  · rw [if_neg hparent]
    exact (hfits.find?_comm htree hapart hapart' hfits' hafter hafter'
      fun heq => absurd heq hparent).symm

end Two

end Contents
end VirtualShell
