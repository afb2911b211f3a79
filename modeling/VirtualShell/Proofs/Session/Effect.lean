import VirtualShell.Proofs.History.Deed
import VirtualShell.Proofs.Session.Atomicity
import VirtualShell.Proofs.Session.Outcome
import VirtualShell.Proofs.Tree.Pruning

/-!
# What an operation does to a tree

On a store that holds a tree, from a canonical working directory, there are only a few things that
an operation can come to.  `Effect` lists them with the deeds that they go by; `Operation.effect`
says that the list is complete.
-/

namespace VirtualShell

open Contents (Plantable Prunable)
open Session (createdAt)

/-- What one operation can make of some contents and a cursor, and the deeds that tell of it. -/
inductive Effect (now : Timestamp) (nodes : Contents) (cursor : String) :
    List Deed → Contents → String → Prop
  | idle : Effect now nodes cursor [] nodes cursor
  | moved {path : String} (hdirectory : nodes.kind? path = some .directory) :
    Effect now nodes cursor [] nodes path
  | touched {path : String} (hdirectory : nodes.kind? path = some .directory) :
    Effect now nodes cursor [.wrote path "" now false] nodes cursor
  | kept {path : String} (hdirectory : nodes.kind? path = some .directory) :
    Effect now nodes cursor [.made path false] nodes cursor
  | wrote {path content parent : String}
    (hplant : Plantable nodes (.file path content (createdAt (nodes.find? path) now) now) parent) :
    Effect now nodes cursor [.wrote path content now (nodes.find? path).isNone]
      (nodes.plant (.file path content (createdAt (nodes.find? path) now) now)) cursor
  | made {path parent : String}
    (hplant : Plantable nodes (.emptyDirectory path (Path.name path)) parent)
    (hfree : nodes.find? path = none) :
    Effect now nodes cursor [.made path true]
      (nodes.plant (.emptyDirectory path (Path.name path))) cursor
  | deleted {path parent : String} (hprune : Prunable nodes path parent) :
    Effect now nodes cursor [.deleted path] (nodes.prune path)
      (if Path.isWithin cursor path then parent else cursor)

section

variable {options : SessionOptions} {s s' : Scene} {nodes : Contents}

theorem Store.Holds.lacks (hs : s.store.Holds nodes) (path : String) :
    s.store.lacks path = (nodes.find? path).isNone := by
  rw [Store.lacks, hs.get]
  cases nodes.find? path <;> rfl

theorem Store.Holds.find?_of_get (hs : s.store.Holds nodes) {path : String} {found : Option Node}
    (hget : s.store.get path = .ok found) : nodes.find? path = found := by
  rw [hs.get] at hget
  exact Except.ok.inj hget

/-- An insertion that is answered with yes plants the node. -/
theorem Session.insert_plants (hs : s.store.Holds nodes) (node : Node)
    (hcanonical : Path.Canonical node.path) (hfree : nodes.kind? node.path ≠ some .directory)
    (hleaf : node.names = [])
    (hnamed : ∀ {path name : String} {children : List String},
      node = .directory path name children → name = Path.name path)
    (hplay : (Session.insert options node.path node).play s = (.ok true, s')) :
    ∃ parent, Plantable nodes node parent ∧ s'.store.Holds (nodes.plant node) ∧
      s'.cursor = s.cursor := by
  obtain ⟨parent, own, name, children, hparent, hget, rfl⟩ := Session.insert_true hplay
  have hfind := hs.find?_of_get hget
  have hdirectory : nodes.kind? parent = some .directory := by
    rw [Contents.kind?, hfind]
    rfl
  refine ⟨parent, ⟨hcanonical, hparent, hdirectory, hfree, hleaf, hnamed⟩, ?_, rfl⟩
  rw [Contents.plant_eq_foldl hparent hfind]
  exact hs.foldl_apply _

theorem Session.createFile_effect (hs : s.store.Holds nodes) {raw path : String}
    {content : String} (hresolve : Path.resolve raw s.cursor = .ok path)
    (hcanonical : Path.Canonical path)
    (hplay : (Session.createFile options raw content).play s = (.ok true, s')) :
    ∃ nodes', s'.store.Holds nodes' ∧ Effect s.now nodes s.cursor
      [.wrote path content s.now (s.store.lacks path)] nodes' s'.cursor := by
  obtain ⟨path', found, hresolve', hget, hfree, hinsert⟩ := Session.createFile_true hplay
  obtain rfl : path = path' := Except.ok.inj (hresolve.symm.trans hresolve')
  have hfind := hs.find?_of_get hget
  rw [← hfind] at hinsert hfree
  obtain ⟨parent, hplant, hholds, hcursor⟩ := Session.insert_plants hs
    (.file path content (createdAt (nodes.find? path) s.now) s.now) hcanonical hfree rfl
    (by rintro _ _ _ ⟨⟩) hinsert
  refine ⟨_, hholds, ?_⟩
  rw [hcursor, hs.lacks]
  exact .wrote hplant

theorem Session.createDirectory_effect (hs : s.store.Holds nodes)
    {raw path : String} (hresolve : Path.resolve raw s.cursor = .ok path)
    (hcanonical : Path.Canonical path)
    (hplay : (Session.createDirectory options raw).play s = (.ok true, s')) :
    ∃ nodes', s'.store.Holds nodes' ∧ Effect s.now nodes s.cursor
      [.made path (s.store.lacks path)] nodes' s'.cursor := by
  obtain ⟨path', hresolve', hdone⟩ := Session.createDirectory_true hplay
  obtain rfl : path = path' := Except.ok.inj (hresolve.symm.trans hresolve')
  rcases hdone with ⟨own, name, children, hget, rfl⟩ | ⟨hget, hinsert⟩
  · have hfind := hs.find?_of_get hget
    refine ⟨nodes, hs, ?_⟩
    rw [hs.lacks, hfind]
    exact .kept (by rw [Contents.kind?, hfind]; rfl)
  · have hfind := hs.find?_of_get hget
    obtain ⟨parent, hplant, hholds, hcursor⟩ := Session.insert_plants hs
      (.emptyDirectory path (Path.name path)) hcanonical
      (by rw [Node.emptyDirectory, Node.path_directory, Contents.kind?, hfind]; simp) rfl
      (by rintro _ _ _ ⟨⟩; rfl) hinsert
    refine ⟨_, hholds, ?_⟩
    rw [hcursor, hs.lacks, hfind]
    exact .made hplant hfind

theorem Session.touch_effect (hs : s.store.Holds nodes)
    {raw path : String} (hresolve : Path.resolve raw s.cursor = .ok path)
    (hcanonical : Path.Canonical path)
    (hplay : (Session.touch options raw).play s = (.ok true, s')) :
    ∃ nodes', s'.store.Holds nodes' ∧ Effect s.now nodes s.cursor
      [.wrote path "" s.now (s.store.lacks path)] nodes' s'.cursor := by
  obtain ⟨path', hresolve', hdone⟩ := Session.touch_true hplay
  obtain rfl : path = path' := Except.ok.inj (hresolve.symm.trans hresolve')
  rcases hdone with ⟨own, name, children, hget, rfl⟩ | hcreate
  · have hfind := hs.find?_of_get hget
    refine ⟨nodes, hs, ?_⟩
    rw [hs.lacks, hfind]
    exact .touched (by rw [Contents.kind?, hfind]; rfl)
  · exact Session.createFile_effect hs (hcanonical.resolve_self s.cursor) hcanonical hcreate

theorem Session.delete_effect (hs : s.store.Holds nodes) (htree : nodes.Tree)
    {raw path : String} (hresolve : Path.resolve raw s.cursor = .ok path)
    (hplay : (Session.delete options raw).play s = (.ok true, s')) :
    ∃ nodes', s'.store.Holds nodes' ∧ Effect s.now nodes s.cursor [.deleted path] nodes'
      s'.cursor := by
  obtain ⟨path', parent, node, above, hresolve', hparent, hget, habove, rfl⟩ :=
    Session.delete_true hplay
  obtain rfl : path = path' := Except.ok.inj (hresolve.symm.trans hresolve')
  have hfind := hs.find?_of_get hget
  have hstored : (nodes.find? path).isSome := by rw [hfind]; rfl
  have hprune : Prunable nodes path parent := ⟨hstored, hparent⟩
  have hdoomed := htree.grounded.mem_doomed hs.shows hfind
  refine ⟨nodes.prune path, ?_, .deleted hprune⟩
  rw [← Contents.foldl_removal_eq_prune htree hprune hdoomed, hs.find?_of_get habove]
  exact hs.foldl_apply _

/-- An answer of yes or no is no, or the operation said yes. -/
theorem Session.refused_or_true (action : Action Bool) (s : Scene) :
    Action.Fails (fun answer => answer.failed = true)
        ((do return Reply.truth (← action) : Action Reply).play s).1 ∨
      ∃ s', action.play s = (.ok true, s') ∧
        (do return Reply.truth (← action) : Action Reply).play s = (.ok (.truth true), s') := by
  rw [Action.play_bind]
  cases hplay : action.play s with
  | mk result s' =>
      cases result with
      | error e => exact .inl trivial
      | ok done =>
          cases done with
          | false => exact .inl rfl
          | true => exact .inr ⟨s', rfl, rfl⟩

theorem Scene.deedAt_of_resolve {raw path : String}
    (hresolve : Path.resolve raw s.cursor = .ok path) (deed : String → Deed) :
    s.deedAt raw deed = [deed path] := by
  rw [Scene.deedAt, hresolve]

/-- No deed goes by a failure. -/
theorem Operation.deeds_of_fails (operation : Operation) (s : Scene)
    {result : Except StorageError Reply}
    (hfails : Action.Fails (fun answer => answer.failed = true) result) :
    operation.deeds s result = [] := by
  unfold Operation.deeds
  split
  all_goals first | rfl | cases hfails

/-- An operation comes to an effect on some contents. -/
def Operation.ComesTo (options : SessionOptions) (operation : Operation) (s : Scene)
    (nodes : Contents) : Prop :=
  ∃ nodes', ((operation.perform options).play s).2.store.Holds nodes' ∧
    Effect s.now nodes s.cursor (operation.deeds s ((operation.perform options).play s).1) nodes'
      ((operation.perform options).play s).2.cursor

/-- An operation that changes nothing and leaves no deed is idle. -/
theorem Operation.comesTo_of_idle {operation : Operation} (hs : s.store.Holds nodes)
    (hsame : ((operation.perform options).play s).2 = s)
    (hnone : operation.deeds s ((operation.perform options).play s).1 = []) :
    operation.ComesTo options s nodes := by
  rw [ComesTo, hnone, hsame]
  exact ⟨nodes, hs, .idle⟩

/-- For an operation that answers yes or no, it is enough to look at yes. -/
theorem Operation.comesTo_of_true {operation : Operation} (hs : s.store.Holds nodes)
    (action : Action Bool)
    (hperform : operation.perform options = do return Reply.truth (← action))
    (htrue : ∀ s', action.play s = (.ok true, s') → ∃ nodes', s'.store.Holds nodes' ∧
      Effect s.now nodes s.cursor (operation.deeds s (.ok (.truth true))) nodes' s'.cursor) :
    operation.ComesTo options s nodes := by
  rcases Session.refused_or_true action s with hfails | ⟨s', hplay, hyes⟩
  · rw [← hperform] at hfails
    exact comesTo_of_idle hs (operation.atomic_perform options s hfails)
      (operation.deeds_of_fails s hfails)
  · rw [ComesTo, hperform, hyes]
    exact htrue s' hplay

/-- Whatever is asked, it comes to one of the effects. -/
theorem Operation.effect (options : SessionOptions) (operation : Operation)
    (hs : s.store.Holds nodes) (htree : nodes.Tree) (hcursor : Path.Canonical s.cursor) :
    operation.ComesTo options s nodes := by
  cases operation with
  | resolve raw => exact comesTo_of_idle hs ((Session.quiet_resolve raw).reply _ s) rfl
  | pathExists raw => exact comesTo_of_idle hs ((Session.quiet_pathExists raw).reply _ s) rfl
  | listDirectory raw => exact comesTo_of_idle hs ((Session.quiet_listDirectory raw).reply _ s) rfl
  | fileText raw => exact comesTo_of_idle hs ((Session.quiet_fileText raw).reply _ s) rfl
  | usage => exact comesTo_of_idle hs ((Session.quiet_usage options).reply _ s) rfl
  | changeDirectory raw =>
      refine comesTo_of_true hs (Session.changeDirectory raw) rfl fun s' hplay => ?_
      obtain ⟨path, own, name, children, -, hget, rfl⟩ := Session.changeDirectory_true hplay
      exact ⟨nodes, hs, .moved (by rw [Contents.kind?, hs.find?_of_get hget]; rfl)⟩
  | createFile raw content =>
      refine comesTo_of_true hs (Session.createFile options raw content) rfl fun s' hplay => ?_
      obtain ⟨path, -, hresolve, -⟩ := Session.createFile_true hplay
      rw [Operation.deeds, Scene.deedAt_of_resolve hresolve]
      exact Session.createFile_effect hs hresolve (hcursor.of_resolve hresolve) hplay
  | touch raw =>
      refine comesTo_of_true hs (Session.touch options raw) rfl fun s' hplay => ?_
      obtain ⟨path, hresolve, -⟩ := Session.touch_true hplay
      rw [Operation.deeds, Scene.deedAt_of_resolve hresolve]
      exact Session.touch_effect hs hresolve (hcursor.of_resolve hresolve) hplay
  | createDirectory raw =>
      refine comesTo_of_true hs (Session.createDirectory options raw) rfl fun s' hplay => ?_
      obtain ⟨path, hresolve, -⟩ := Session.createDirectory_true hplay
      rw [Operation.deeds, Scene.deedAt_of_resolve hresolve]
      exact Session.createDirectory_effect hs hresolve (hcursor.of_resolve hresolve) hplay
  | delete raw =>
      refine comesTo_of_true hs (Session.delete options raw) rfl fun s' hplay => ?_
      obtain ⟨path, -, -, -, hresolve, -⟩ := Session.delete_true hplay
      rw [Operation.deeds, Scene.deedAt_of_resolve hresolve]
      exact Session.delete_effect hs htree hresolve hplay

end

end VirtualShell
