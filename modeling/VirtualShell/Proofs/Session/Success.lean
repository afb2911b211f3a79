import VirtualShell.Proofs.Session.Mount

/-!
# What an operation did when it answered yes

One lemma for each operation that changes something: what it must have found, and the scene that it
left.  They hold on any store.
-/

namespace VirtualShell
namespace Session

open VirtualShell.Action (play_bind_eq_ok)

variable {options : SessionOptions} {s s' : Scene}

@[simp]
theorem play_resolve (raw : String) (s : Scene) :
    (resolve raw).play s = (.ok (Path.resolve raw s.cursor).toOption, s) := by
  rw [resolve, Action.play_bind, Action.play_cursor]
  dsimp only
  cases Path.resolve raw s.cursor with
  | error e => rfl
  | ok path => rfl

/-- An operation that answers yes has resolved its path. -/
theorem exists_of_resolve_bind {raw : String} {f : Option String → Action Bool}
    (hnone : f none = pure false) (hplay : (resolve raw >>= f).play s = (.ok true, s')) :
    ∃ path, Path.resolve raw s.cursor = .ok path ∧ (f (some path)).play s = (.ok true, s') := by
  rw [Action.play_bind, play_resolve] at hplay
  cases hresolve : Path.resolve raw s.cursor with
  | error e =>
      rw [hresolve] at hplay
      simp [Except.toOption, hnone] at hplay
  | ok path =>
      rw [hresolve] at hplay
      exact ⟨path, rfl, hplay⟩

/-- An operation that answers yes has read what it looked for. -/
theorem exists_of_get_bind {path : String} {f : Option Node → Action Bool}
    (hplay : (Action.get path >>= f).play s = (.ok true, s')) :
    ∃ found, s.store.get path = .ok found ∧ (f found).play s = (.ok true, s') := by
  obtain ⟨found, middle, hget, hrest⟩ := play_bind_eq_ok hplay
  rw [Action.play_get, Prod.mk.injEq] at hget
  obtain ⟨hget, rfl⟩ := hget
  exact ⟨found, hget, hrest⟩

/-- What was committed was not refused. -/
theorem of_commit_bind {changes : List Change} {f : Unit → Action Bool}
    (hplay : (Action.commit changes >>= f).play s = (.ok true, s')) :
    (f ()).play { s with store := changes.foldl Store.apply s.store } = (.ok true, s') := by
  obtain ⟨_, middle, hcommit, hrest⟩ := play_bind_eq_ok hplay
  rw [Action.play_commit, Scene.commit] at hcommit
  split at hcommit
  · cases hcommit
  · cases hcommit
    exact hrest

theorem changeDirectory_true {raw : String}
    (hplay : (changeDirectory raw).play s = (.ok true, s')) :
    ∃ path own name children, Path.resolve raw s.cursor = .ok path ∧
      s.store.get path = .ok (some (.directory own name children)) ∧
      s' = { s with cursor := path } := by
  obtain ⟨path, hresolve, hplay⟩ := exists_of_resolve_bind rfl hplay
  obtain ⟨found, hget, hplay⟩ := exists_of_get_bind hplay
  split at hplay
  · cases hplay
    exact ⟨path, _, _, _, hresolve, hget, rfl⟩
  · cases hplay

theorem insert_true {path : String} {node : Node}
    (hplay : (insert options path node).play s = (.ok true, s')) :
    ∃ parent own name children, Path.parent? path = some parent ∧
      s.store.get parent = .ok (some (.directory own name children)) ∧
      s' = { s with store :=
        (insertion node (Path.name path) own name children).foldl Store.apply s.store } := by
  rw [insert] at hplay
  split at hplay
  · cases hplay
  · rename_i parent hparent
    obtain ⟨found, hget, hplay⟩ := exists_of_get_bind hplay
    split at hplay
    · obtain ⟨_, middle, hquota, hcommit⟩ := play_bind_eq_ok hplay
      have hsame : middle = s := by
        rw [checkQuota, Action.play_bind, Action.play_usage] at hquota
        dsimp only at hquota
        split at hquota <;> cases hquota
        rfl
      have hrest := of_commit_bind (hsame ▸ hcommit)
      rw [Action.play_bind, play_flushIfWanted] at hrest
      cases hrest
      exact ⟨parent, _, _, _, hparent, hget, rfl⟩
    · cases hplay

/-- A report after an insertion does not hide that it was made. -/
theorem true_of_report {action : Action Bool} {level : Log.Level} {message : String}
    {fields : List (String × Log.Value)}
    (hplay : (do
      let inserted ← action
      if inserted then report level message fields
      return inserted : Action Bool).play s = (.ok true, s')) :
    action.play s = (.ok true, s') := by
  obtain ⟨inserted, middle, haction, hplay⟩ := play_bind_eq_ok hplay
  cases inserted with
  | false => cases hplay
  | true =>
      cases hplay
      exact haction

/-- When a file counts as created that is written now. -/
def createdAt (found : Option Node) (now : Timestamp) : Timestamp :=
  match found with
  | some (.file _ _ created _) => created
  | _ => now

theorem createFile_true {raw content : String}
    (hplay : (createFile options raw content).play s = (.ok true, s')) :
    ∃ path found, Path.resolve raw s.cursor = .ok path ∧ s.store.get path = .ok found ∧
      found.map Node.kind ≠ some .directory ∧
      (insert options path (.file path content (createdAt found s.now) s.now)).play s =
        (.ok true, s') := by
  obtain ⟨path, hresolve, hplay⟩ := exists_of_resolve_bind rfl hplay
  rw [Action.play_bind, Action.play_clock] at hplay
  obtain ⟨found, hget, hplay⟩ := exists_of_get_bind hplay
  refine ⟨path, found, hresolve, hget, ?_⟩
  split at hplay
  · cases hplay
  · rename_i hfile
    refine ⟨?_, true_of_report hplay⟩
    intro hkind
    obtain ⟨node, rfl, hnode⟩ := Option.map_eq_some_iff.mp hkind
    cases node with
    | directory own name children => exact hfile own name children rfl
    | file own content created modified => cases hnode

theorem touch_true {raw : String} (hplay : (touch options raw).play s = (.ok true, s')) :
    ∃ path, Path.resolve raw s.cursor = .ok path ∧
      ((∃ own name children, s.store.get path = .ok (some (.directory own name children)) ∧
          s' = s) ∨
        (createFile options path "").play s = (.ok true, s')) := by
  obtain ⟨path, hresolve, hplay⟩ := exists_of_resolve_bind rfl hplay
  obtain ⟨found, hget, hplay⟩ := exists_of_get_bind hplay
  refine ⟨path, hresolve, ?_⟩
  split at hplay
  · cases hplay
    exact .inl ⟨_, _, _, hget, rfl⟩
  · exact .inr hplay

theorem createDirectory_true {raw : String}
    (hplay : (createDirectory options raw).play s = (.ok true, s')) :
    ∃ path, Path.resolve raw s.cursor = .ok path ∧
      ((∃ own name children, s.store.get path = .ok (some (.directory own name children)) ∧
          s' = s) ∨
        s.store.get path = .ok none ∧
          (insert options path (.emptyDirectory path (Path.name path))).play s =
            (.ok true, s')) := by
  obtain ⟨path, hresolve, hplay⟩ := exists_of_resolve_bind rfl hplay
  obtain ⟨found, hget, hplay⟩ := exists_of_get_bind hplay
  refine ⟨path, hresolve, ?_⟩
  split at hplay
  · cases hplay
    exact .inl ⟨_, _, _, hget, rfl⟩
  · cases hplay
  · exact .inr ⟨hget, true_of_report hplay⟩

/-- The paths that are removed with a node. -/
def doomed (store : Store) (path : String) : NodeKind → List String
  | .directory => store.walk [path] []
  | .file => [path]

/-- What a deletion does after its commit. -/
def afterRemoval (options : SessionOptions) (path parent : String) (removed : Nat) :
    Action Bool := do
  flushIfWanted options
  report .debug "Deleted" [("path", .text path), ("removed", .count removed)]
  if Path.isWithin (← Action.cursor) path then
    Action.moveCursor parent
  return true

/-- A deletion once it is known what is to go. -/
def remove (options : SessionOptions) (path parent : String) (doomed : List String) :
    Action Bool := do
  Action.commit (removal doomed (Path.name path) (← Action.get parent))
  afterRemoval options path parent doomed.length

theorem play_afterRemoval (path parent : String) (removed : Nat) (s : Scene) :
    (afterRemoval options path parent removed).play s =
      (.ok true,
        { s with cursor := if Path.isWithin s.cursor path then parent else s.cursor }) := by
  rw [afterRemoval, Action.play_bind, play_flushIfWanted]
  dsimp only
  rw [Action.play_bind, play_report]
  dsimp only
  rw [Action.play_bind, Action.play_cursor]
  dsimp only
  split
  · rfl
  · rfl

theorem remove_true {path parent : String} {doomed : List String}
    (hplay : (remove options path parent doomed).play s = (.ok true, s')) :
    ∃ above, s.store.get parent = .ok above ∧
      s' = { s with
        store := (removal doomed (Path.name path) above).foldl Store.apply s.store
        cursor := if Path.isWithin s.cursor path then parent else s.cursor } := by
  obtain ⟨above, habove, hcommit⟩ := exists_of_get_bind hplay
  have hrest := of_commit_bind hcommit
  rw [play_afterRemoval] at hrest
  cases hrest
  exact ⟨above, habove, rfl⟩

theorem delete_true {raw : String} (hplay : (delete options raw).play s = (.ok true, s')) :
    ∃ path parent node above, Path.resolve raw s.cursor = .ok path ∧
      Path.parent? path = some parent ∧ s.store.get path = .ok (some node) ∧
      s.store.get parent = .ok above ∧
      s' = { s with
        store := (removal (doomed s.store path node.kind) (Path.name path) above).foldl
          Store.apply s.store
        cursor := if Path.isWithin s.cursor path then parent else s.cursor } := by
  obtain ⟨path, hresolve, hplay⟩ := exists_of_resolve_bind rfl hplay
  dsimp only at hplay
  split at hplay
  · cases hplay
  · rename_i parent hparent
    obtain ⟨found, hget, hplay⟩ := exists_of_get_bind hplay
    split at hplay
    · cases hplay
    · rename_i node
      have hremove : (remove options path parent (doomed s.store path node.kind)).play s =
          (.ok true, s') := by
        cases hkind : node.kind with
        | directory =>
            simp only [hkind] at hplay
            rw [Action.play_bind, Action.play_subtree] at hplay
            exact hplay
        | file =>
            simp only [hkind] at hplay
            exact hplay
      obtain ⟨above, habove, hleft⟩ := remove_true hremove
      exact ⟨path, parent, node, above, hresolve, hparent, hget, habove, hleft⟩

end Session
end VirtualShell
