import VirtualShell.Proofs.History.Moment
import VirtualShell.Proofs.Run.Sound

/-!
# The contents remember the history

What is stored can be read off the history, and the other way round: which paths, of which kinds,
with which content and times, and in which order a directory lists its names.  Each effect adds its
deed and keeps the two in step.
-/

namespace VirtualShell
namespace History

/-- A directory that was last made at some place in a history. -/
def MadeSince (h : List Deed) (path : String) : Prop :=
  ∃ i, LastAt h (Deed.Births path) i ∧ OccursAt h (fun deed => deed.kind? = some .directory) i

/-- A file that was last born, and last written, at some places in a history. -/
def WrittenSince (h : List Deed) (path content : String) (created modified : Timestamp) : Prop :=
  ∃ i j, LastAt h (Deed.Births path) i ∧
    OccursAt h (fun deed => deed.kind? = some .file ∧ deed.time? = some created) i ∧ i ≤ j ∧
    LastAt h (Deed.Writes path) j ∧
    OccursAt h (fun deed => deed.content? = some content ∧ deed.time? = some modified) j

/-- The history tells what is stored. -/
structure Remembers (nodes : Contents) (h : List Deed) : Prop where
  alive (path : String) : (nodes.find? path).isSome ↔ Alive h path
  directory {path : String} (hkind : nodes.kind? path = some .directory)
    (hroot : path ≠ Path.root) : MadeSince h path
  file {path own content : String} {created modified : Timestamp}
    (hfind : nodes.find? path = some (.file own content created modified)) :
    WrittenSince h path content created modified
  ordered (path : String) : (nodes.names path).Pairwise fun a b =>
    BornBefore h (Path.join path a) (Path.join path b)

section

variable {nodes : Contents} {h : List Deed} {deed : Deed} {path : String}

theorem MadeSince.append (hmade : MadeSince h path) (hdeed : ¬ deed.Births path) :
    MadeSince (h ++ [deed]) path := by
  obtain ⟨i, hi, hkind⟩ := hmade
  exact ⟨i, (lastAt_append_of_not hdeed).mpr hi, hkind.append deed⟩

theorem WrittenSince.append {content : String} {created modified : Timestamp}
    (hwritten : WrittenSince h path content created modified) (hbirth : ¬ deed.Births path)
    (hwrite : ¬ deed.Writes path) : WrittenSince (h ++ [deed]) path content created modified := by
  obtain ⟨i, j, hi, hborn, hle, hj, hwrote⟩ := hwritten
  exact ⟨i, j, (lastAt_append_of_not hbirth).mpr hi, hborn.append deed, hle,
    (lastAt_append_of_not hwrite).mpr hj, hwrote.append deed⟩

/-- Whatever is stored, but the root, was born. -/
theorem Remembers.exists_lastAt (hnodes : Remembers nodes h) (hstored : (nodes.find? path).isSome)
    (hroot : path ≠ Path.root) : ∃ i, LastAt h (Deed.Births path) i := by
  obtain ⟨node, hfind⟩ := Option.isSome_iff_exists.mp hstored
  cases node with
  | directory own name children =>
      have hkind : nodes.kind? path = some .directory := by
        rw [Contents.kind?, hfind]
        rfl
      obtain ⟨i, hi, -⟩ := hnodes.directory hkind hroot
      exact ⟨i, hi⟩
  | file own content created modified =>
      obtain ⟨i, -, hi, -⟩ := hnodes.file hfind
      exact ⟨i, hi⟩

/-- The root alone has no history. -/
theorem remembers_bare : Remembers .bare [] where
  alive path := by
    rw [Contents.find?_bare]
    by_cases hroot : path = Path.root <;> simp [Alive, OccursAt, hroot]
  directory {path} hkind hroot := by
    rw [Contents.kind?_bare, if_neg hroot] at hkind
    cases hkind
  file {path own content created modified} hfind := by
    rw [Contents.find?_bare] at hfind
    split at hfind <;> cases hfind
  ordered path := by
    rw [Contents.names_bare]
    exact .nil

/-- A deed that neither bears nor removes anything, and writes no file, is not remembered. -/
theorem Remembers.append_idle (hnodes : Remembers nodes h) (hbirth : ∀ path, ¬ deed.Births path)
    (hremoves : ∀ path, ¬ deed.Removes path)
    (hwrites : ∀ path, deed.Writes path → nodes.kind? path = some .directory) :
    Remembers nodes (h ++ [deed]) where
  alive path := by
    rw [alive_append_singleton (hremoves _), hnodes.alive]
    simp [hbirth, hremoves]
  directory hkind hroot := (hnodes.directory hkind hroot).append (hbirth _)
  file {path own content created modified} hfind := by
    refine (hnodes.file hfind).append (hbirth _) fun hwrite => ?_
    have hkind := hwrites path hwrite
    rw [Contents.kind?, hfind] at hkind
    cases hkind
  ordered path := (hnodes.ordered path).imp fun hborn => hborn.append (hbirth _) (hbirth _)

/-! ### A birth -/

theorem births_ofNode (node : Node) : (Deed.ofNode node).Births path ↔ path = node.path := by
  cases node <;> simp [Deed.ofNode, Deed.Births, eq_comm]

theorem not_removes_ofNode (node : Node) : ¬ (Deed.ofNode node).Removes path := by
  cases node <;> exact id

theorem eq_of_writes_ofNode {node : Node} (hwrites : (Deed.ofNode node).Writes path) :
    path = node.path := by
  cases node with
  | directory own name children => exact hwrites.elim
  | file own content created modified => exact Eq.symm hwrites

variable {node : Node} {parent : String} {now : Timestamp}

/-- A directory that is made now has been made since. -/
theorem madeSince_append (h : List Deed) (path : String) :
    MadeSince (h ++ [.made path true]) path :=
  ⟨h.length, (lastAt_append_of ⟨rfl, rfl⟩).mpr rfl, occursAt_length rfl⟩

/-- A file that is born now was born and written now. -/
theorem writtenSince_append (h : List Deed) (path content : String) (now : Timestamp) :
    WrittenSince (h ++ [.wrote path content now true]) path content now now := by
  have hbirth : (Deed.wrote path content now true).Births path := ⟨rfl, rfl⟩
  have hwrites : (Deed.wrote path content now true).Writes path := rfl
  exact ⟨h.length, h.length, (lastAt_append_of hbirth).mpr rfl, occursAt_length ⟨rfl, rfl⟩,
    Nat.le_refl _, (lastAt_append_of hwrites).mpr rfl, occursAt_length ⟨rfl, rfl⟩⟩

/-- What is listed is there already, so it is not born by a node that is put where nothing was. -/
theorem not_births_of_mem_names (htree : nodes.Tree) (hfree : nodes.find? node.path = none)
    {directory name : String} (hname : name ∈ nodes.names directory) :
    ¬ (Deed.ofNode node).Births (Path.join directory name) := by
  intro hborn
  have hstored := (htree.mem_names (htree.isComponent hname)).mp hname
  rw [(births_ofNode node).mp hborn, hfree] at hstored
  cases hstored

/-- A name that is listed now comes after the names that were listed before. -/
theorem Remembers.ordered_birth (hnodes : Remembers nodes h) (htree : nodes.Tree)
    (hplant : Contents.Plantable nodes node parent) (hfree : nodes.find? node.path = none)
    (directory : String) :
    ((nodes.plant node).names directory).Pairwise fun a b =>
      BornBefore (h ++ [.ofNode node]) (Path.join directory a) (Path.join directory b) := by
  have hlisted : (nodes.names directory).Pairwise fun a b =>
      BornBefore (h ++ [.ofNode node]) (Path.join directory a) (Path.join directory b) :=
    (hnodes.ordered directory).imp_of_mem fun ha hb hborn =>
      hborn.append (not_births_of_mem_names htree hfree ha) (not_births_of_mem_names htree hfree hb)
  rw [Contents.names_plant htree hplant]
  by_cases hdirectory : directory = parent
  · subst hdirectory
    obtain ⟨-, hname, hpath⟩ := hplant.canonical.of_parent? hplant.parent_eq
    -- nothing is stored under the path, so its name is not listed yet
    have hunlisted : ¬ (nodes.names directory).contains (Path.name node.path) = true := by
      rw [List.contains_iff_mem, htree.mem_names hname, ← hpath, hfree]
      simp
    rw [if_pos rfl, Contents.enlist, if_neg hunlisted, List.pairwise_append]
    refine ⟨hlisted, List.pairwise_singleton _ _, fun a ha b hb => ?_⟩
    rw [List.mem_singleton.mp hb, ← hpath]
    have hcomponent := htree.isComponent ha
    obtain ⟨i, hi⟩ := hnodes.exists_lastAt ((htree.mem_names hcomponent).mp ha)
      (Path.Canonical.join_ne_root hcomponent)
    exact bornBefore_append hi (not_births_of_mem_names htree hfree ha)
      ((births_ofNode node).mpr rfl)
  · rw [if_neg hdirectory]
    exact hlisted

/-- What is put where nothing was is remembered as new, and comes last in its directory. -/
theorem Remembers.append_birth (hnodes : Remembers nodes h) (htree : nodes.Tree)
    (hplant : Contents.Plantable nodes node parent) (hfree : nodes.find? node.path = none)
    (hnew : Seed.IsNew now node) : Remembers (nodes.plant node) (h ++ [.ofNode node]) where
  alive path := by
    rw [Contents.isSome_find?_plant htree hplant, alive_append_singleton (not_removes_ofNode node),
      births_ofNode, hnodes.alive, and_iff_left (not_removes_ofNode node)]
  directory {path} hkind hroot := by
    rw [Contents.kind?_plant htree hplant] at hkind
    by_cases hpath : path = node.path
    · rw [if_pos hpath, Option.some.injEq] at hkind
      subst hpath
      cases node with
      | directory own name children => exact madeSince_append h own
      | file own content created modified => cases hkind
    · rw [if_neg hpath] at hkind
      exact (hnodes.directory hkind hroot).append fun hborn => hpath ((births_ofNode node).mp hborn)
  file {path own content created modified} hfind := by
    rw [Contents.find?_plant htree hplant] at hfind
    by_cases hpath : path = node.path
    · rw [if_pos hpath, Option.some.injEq] at hfind
      subst hfind
      rcases hnew with hnode | ⟨content', hnode⟩
      · cases hnode
      · cases hnode
        exact hpath ▸ writtenSince_append h own content now
    · rw [if_neg hpath] at hfind
      split at hfind
      · cases hfind
      · exact (hnodes.file hfind).append (fun hborn => hpath ((births_ofNode node).mp hborn))
          fun hwrites => hpath (eq_of_writes_ofNode hwrites)
  ordered directory := hnodes.ordered_birth htree hplant hfree directory

/-! ### An overwritten file -/

/-- A file that is written again keeps its birth, and its place in its directory. -/
theorem Remembers.append_overwrite (hnodes : Remembers nodes h) (htree : nodes.Tree)
    {own content old : String} {created modified : Timestamp}
    (hplant : Contents.Plantable nodes (.file path content created now) parent)
    (hfile : nodes.find? path = some (.file own old created modified)) :
    Remembers (nodes.plant (.file path content created now))
      (h ++ [.wrote path content now false]) := by
  have hbirth : ∀ other, ¬ (Deed.wrote path content now false).Births other := by
    simp [Deed.Births]
  have hwrites : (Deed.wrote path content now false).Writes path := rfl
  constructor
  · intro other
    rw [Contents.isSome_find?_plant htree hplant, alive_append_singleton (by exact id),
      ← hnodes.alive]
    by_cases hother : other = path
    · simp [hother, hfile, Deed.Removes]
    · simp [hother, hbirth, Deed.Removes]
  · intro other hkind hroot
    rw [Contents.kind?_plant htree hplant] at hkind
    split at hkind
    · cases hkind
    · exact (hnodes.directory hkind hroot).append (hbirth other)
  · intro other own' content' created' modified' hfind
    rw [Contents.find?_plant htree hplant, Node.path_file] at hfind
    by_cases hother : other = path
    · rw [if_pos hother] at hfind
      cases hfind
      obtain ⟨i, j, hi, hborn, hle, hj, -⟩ := hnodes.file hfile
      rw [hother]
      exact ⟨i, h.length, (lastAt_append_of_not (hbirth _)).mpr hi, hborn.append _,
        Nat.le_of_lt hi.1.lt_length, (lastAt_append_of hwrites).mpr rfl,
        occursAt_length ⟨rfl, rfl⟩⟩
    · rw [if_neg hother] at hfind
      split at hfind
      · cases hfind
      · exact (hnodes.file hfind).append (hbirth other) fun hwrites => hother (Eq.symm hwrites)
  · intro directory
    -- the name is listed already, so the directory stays as it is
    have hstored : (nodes.find? path).isSome := by rw [hfile]; rfl
    rw [Contents.names_plant_of_stored htree hplant hstored]
    exact (hnodes.ordered directory).imp fun hborn => hborn.append (hbirth _) (hbirth _)

/-! ### A deletion -/

/-- What is deleted is forgotten, and nothing else is. -/
theorem Remembers.append_deleted (hnodes : Remembers nodes h) (htree : nodes.Tree)
    (hprune : Contents.Prunable nodes path parent) :
    Remembers (nodes.prune path) (h ++ [.deleted path]) := by
  have hbirth : ∀ other, ¬ (Deed.deleted path).Births other := fun _ => id
  have hroot : ¬ (Deed.deleted path).Removes Path.root := by
    intro hremoves
    have hparent := hprune.parent_eq
    rw [Path.eq_root_of_isWithin hremoves, Path.parent?_root] at hparent
    cases hparent
  constructor
  · intro other
    rw [Contents.isSome_find?_prune htree hprune, alive_append_singleton hroot, ← hnodes.alive]
    simp [hbirth, Deed.Removes, and_comm]
  · intro other hkind hother
    rw [Contents.kind?_prune htree hprune] at hkind
    split at hkind
    · cases hkind
    · exact (hnodes.directory hkind hother).append (hbirth other)
  · intro other own content created modified hfind
    rw [Contents.find?_prune htree hprune] at hfind
    split at hfind
    · cases hfind
    · split at hfind
      · cases hfind
      · exact (hnodes.file hfind).append (hbirth other) id
  · intro directory
    rw [Contents.names_prune htree hprune]
    have hkept := (hnodes.ordered directory).imp fun {a b} hborn =>
      BornBefore.append hborn (hbirth (Path.join directory a)) (hbirth (Path.join directory b))
    split
    · exact .nil
    · split
      · rename_i hdirectory
        exact hdirectory ▸ hkept.filter _
      · exact hkept

/-- Every effect is remembered. -/
theorem preserved_remembers : Shared.Preserved Remembers := by
  intro now nodes cursor deeds nodes' cursor' earlier htree heffect hnodes
  cases heffect with
  | idle => rwa [List.append_nil]
  | moved hdirectory => rwa [List.append_nil]
  | @touched path hdirectory =>
      exact hnodes.append_idle (by simp [Deed.Births]) (fun _ => id) fun other hwrites =>
        (show path = other from hwrites) ▸ hdirectory
  | kept hdirectory =>
      exact hnodes.append_idle (by simp [Deed.Births]) (fun _ => id) fun _ => False.elim
  | @wrote path content parent hplant =>
      cases hfind : nodes.find? path with
      | none =>
          rw [hfind] at hplant
          exact hnodes.append_birth htree hplant hfind (.inr ⟨content, rfl⟩)
      | some node =>
          cases node with
          | directory own name children =>
              refine absurd ?_ hplant.free
              rw [Node.path_file, Contents.kind?, hfind]
              rfl
          | file own old created modified =>
              rw [hfind] at hplant
              exact hnodes.append_overwrite htree hplant hfind
  | @made path parent hplant hfree =>
      have hnew : Seed.IsNew now (.emptyDirectory path (Path.name path)) := .inl rfl
      exact hnodes.append_birth htree hplant hfree hnew
  | deleted hprune => exact hnodes.append_deleted htree hprune

end

end History
end VirtualShell
