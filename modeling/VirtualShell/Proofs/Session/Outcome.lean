import VirtualShell.Proofs.Session.Success
import VirtualShell.Proofs.Tree.Grounded

/-!
# Changing operations as equations

On a store that can be read, what an operation that changes something answers, and the scene that it
leaves, follow from what is shown under the path that it names and under the one above, and from the
bytes in use.  Nothing is assumed of the tree.
-/

namespace VirtualShell
namespace Session

open VirtualShell.Action (play_bind)

variable (options : SessionOptions) {s : Scene} {nodes : Contents} {raw path parent : String}

/-! ### Steps -/

theorem play_resolve_bind {α : Type} {f : Option String → Action α}
    (hresolve : Path.resolve raw s.cursor = .ok path) :
    (resolve raw >>= f).play s = (f (some path)).play s := by
  rw [play_bind, play_resolve, hresolve]
  rfl

/-- What names no path is answered with no. -/
theorem play_of_malformed {f : Option String → Action Bool} (hnone : f none = pure false)
    {e : PathError} (hresolve : Path.resolve raw s.cursor = .error e) :
    (resolve raw >>= f).play s = (.ok false, s) := by
  rw [play_bind, play_resolve, hresolve]
  exact congrArg (Action.play · s) hnone

/-- A report after an action changes nothing. -/
theorem play_reported (action : Action Bool) (level : Log.Level) (message : String)
    (fields : List (String × Log.Value)) (s : Scene) :
    (do
      let done ← action
      if done then report level message fields
      return done : Action Bool).play s = action.play s := by
  rw [play_bind]
  cases action.play s with
  | mk result s' =>
      cases result with
      | error e => rfl
      | ok done => cases done <;> rfl

/-- What is answered with yes or no is as it was done. -/
theorem play_truth {action : Action Bool} {result : Except StorageError Bool} {s s' : Scene}
    (hplay : action.play s = (result, s')) :
    (do return Reply.truth (← action) : Action Reply).play s = (result.map Reply.truth, s') := by
  rw [play_bind, hplay]
  cases result <;> rfl

/-- The check holds the bytes in use and the stored text of the node against the quota. -/
theorem play_checkQuota (node : Node) (s : Scene) :
    (checkQuota options node).play s =
      if options.quotaBytes < s.medium.used.getD s.store.usage + node.encode.utf8ByteSize then
        (.error (.quotaExceeded (s.medium.used.getD s.store.usage) options.quotaBytes), s)
      else (.ok (), s) := by
  rw [checkQuota, play_bind, Action.play_usage]
  dsimp only
  split <;> rfl

theorem play_commit_of_no_refusal (hrefusal : s.refusal = none) (changes : List Change) :
    (Action.commit changes).play s =
      (.ok (), { s with store := changes.foldl Store.apply s.store }) := by
  rw [Action.play_commit, Scene.commit, hrefusal]

/-! ### Operations -/

variable (hs : s.store.Shows nodes)

include hs

theorem play_get_bind {α : Type} {f : Option Node → Action α} :
    (Action.get path >>= f).play s = (f (nodes.find? path)).play s := by
  rw [play_bind, Action.play_get, hs.get]

/-- Where there is no directory above, nothing is put. -/
theorem play_insert_nowhere (node : Node)
    (hnowhere : (Path.parent? path).bind nodes.kind? ≠ some .directory) :
    (insert options path node).play s = (.ok false, s) := by
  rw [insert]
  cases hparent : Path.parent? path with
  | none => rfl
  | some parent =>
      rw [hparent, Option.bind_some, Contents.kind?] at hnowhere
      dsimp only
      rw [play_get_bind hs]
      cases hfind : nodes.find? parent with
      | none => rfl
      | some above =>
          rw [hfind] at hnowhere
          cases above with
          | directory own name children => exact absurd rfl hnowhere
          | file own content created modified => rfl

theorem play_createFile (content : String) (hresolve : Path.resolve raw s.cursor = .ok path) :
    (createFile options raw content).play s =
      if nodes.kind? path = some .directory then (.ok false, s)
      else
        (insert options path
          (.file path content (createdAt (nodes.find? path) s.now) s.now)).play s := by
  rw [createFile, play_resolve_bind hresolve, play_bind, Action.play_clock]
  dsimp only
  rw [play_get_bind hs, Contents.kind?]
  cases nodes.find? path with
  | none => exact play_reported _ _ _ _ s
  | some node =>
      cases node with
      | directory own name children => rfl
      | file own text created modified => exact play_reported _ _ _ _ s

/-- Touching is writing an empty file, unless there is a directory. -/
theorem play_touch (hpath : Path.Canonical path)
    (hresolve : Path.resolve raw s.cursor = .ok path) :
    (touch options raw).play s =
      if nodes.kind? path = some .directory then (.ok true, s)
      else
        (insert options path
          (.file path "" (createdAt (nodes.find? path) s.now) s.now)).play s := by
  -- the path is resolved and looked up a second time, and is found the same
  have hcreate := play_createFile options hs "" (hpath.resolve_self s.cursor)
  rw [touch, play_resolve_bind hresolve]
  dsimp only
  rw [play_get_bind hs]
  rw [Contents.kind?] at hcreate ⊢
  cases hfind : nodes.find? path with
  | none => rwa [hfind] at hcreate
  | some node =>
      rw [hfind] at hcreate
      cases node with
      | directory own name children => rfl
      | file own text created modified => exact hcreate

theorem play_createDirectory (hresolve : Path.resolve raw s.cursor = .ok path) :
    (createDirectory options raw).play s =
      match nodes.kind? path with
      | some .directory => (.ok true, s)
      | some .file => (.ok false, s)
      | none => (insert options path (.emptyDirectory path (Path.name path))).play s := by
  rw [createDirectory, play_resolve_bind hresolve]
  dsimp only
  rw [play_get_bind hs, Contents.kind?]
  cases nodes.find? path with
  | none => exact play_reported _ _ _ _ s
  | some node => cases node <;> rfl

/-- Nothing is removed where there is nothing, nor at the root. -/
theorem play_delete_nothing (hresolve : Path.resolve raw s.cursor = .ok path)
    (hnothing : Path.parent? path = none ∨ nodes.find? path = none) :
    (delete options raw).play s = (.ok false, s) := by
  rw [delete, play_resolve_bind hresolve]
  dsimp only
  cases hparent : Path.parent? path with
  | none => rfl
  | some parent =>
      have hfind := hnothing.resolve_left (by rw [hparent]; exact Option.some_ne_none parent)
      dsimp only
      rw [play_get_bind hs, hfind]
      rfl

variable (hrefusal : s.refusal = none)

include hrefusal

/-- Below a directory a node is put, if the quota allows it. -/
theorem play_insert (node : Node) {own name : String} {children : List String}
    (hparent : Path.parent? path = some parent)
    (habove : nodes.find? parent = some (.directory own name children)) :
    (insert options path node).play s =
      if options.quotaBytes < s.medium.used.getD s.store.usage + node.encode.utf8ByteSize then
        (.error (.quotaExceeded (s.medium.used.getD s.store.usage) options.quotaBytes), s)
      else
        (.ok true, { s with store :=
          (insertion node (Path.name path) own name children).foldl Store.apply s.store }) := by
  rw [insert, hparent]
  dsimp only
  rw [play_get_bind hs, habove]
  dsimp only
  rw [play_bind, play_checkQuota]
  by_cases hquota : options.quotaBytes <
      s.medium.used.getD s.store.usage + node.encode.utf8ByteSize
  · rw [if_pos hquota, if_pos hquota]
  · rw [if_neg hquota, if_neg hquota]
    dsimp only
    rw [play_bind, play_commit_of_no_refusal hrefusal]
    dsimp only
    rw [play_bind, play_flushIfWanted]
    rfl

/-- What is stored is removed, with all that the walk below it finds. -/
theorem play_delete (hresolve : Path.resolve raw s.cursor = .ok path)
    (hparent : Path.parent? path = some parent) {node : Node}
    (hfind : nodes.find? path = some node) :
    (delete options raw).play s =
      (.ok true, { s with
        store := (removal (doomed s.store path node.kind) (Path.name path)
          (nodes.find? parent)).foldl Store.apply s.store
        cursor := if Path.isWithin s.cursor path then parent else s.cursor }) := by
  -- what is to go depends on the kind of the node, and all that follows does not
  have hremove (doomed : List String) : (remove options path parent doomed).play s =
      (.ok true, { s with
        store := (removal doomed (Path.name path) (nodes.find? parent)).foldl
          Store.apply s.store
        cursor := if Path.isWithin s.cursor path then parent else s.cursor }) := by
    rw [remove, play_get_bind hs, play_bind, play_commit_of_no_refusal hrefusal]
    exact play_afterRemoval path parent doomed.length _
  rw [delete, play_resolve_bind hresolve]
  dsimp only
  rw [hparent]
  dsimp only
  rw [play_get_bind hs, hfind]
  cases node with
  | directory own name children =>
      dsimp only [Node.kind]
      rw [play_bind, Action.play_subtree]
      exact hremove _
  | file own content created modified => exact hremove _

end Session

/-- Where the paths are in order, what goes with a node is what is stored at and below it. -/
theorem Contents.Grounded.mem_doomed {nodes : Contents} (hgrounded : nodes.Grounded) {s : Store}
    (hs : s.Shows nodes) {path : String} {node : Node} (hfind : nodes.find? path = some node)
    (key : String) (hkey : (nodes.find? key).isSome) :
    key ∈ Session.doomed s path node.kind ↔ Path.isWithin key path = true := by
  cases hkind : node.kind with
  | directory =>
      rw [Session.doomed, hgrounded.mem_walk hs (by rw [hfind]; rfl)]
      simp [hkey]
  | file =>
      rw [Session.doomed, List.mem_singleton]
      constructor
      · rintro rfl
        exact Path.isWithin_self key
      · exact hgrounded.eq_of_within_file hfind hkind hkey

end VirtualShell
