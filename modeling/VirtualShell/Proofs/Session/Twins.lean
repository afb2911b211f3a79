import VirtualShell.Proofs.Session.Mount
import VirtualShell.Proofs.Store.Script

/-!
# Sessions cannot tell stores apart

Two scenes are twins if their stores keep the same nodes and refuse nothing, whatever kinds of
stores they are and whatever the media say of the bytes in use.  The calls of a session are answered
alike on twins, but for the bytes in use, which only the quota is compared with.  So every operation
that does not ask for them answers alike and leaves twins, unless one of the quotas stops it.
-/

namespace VirtualShell

/-- Stores with the same children are walked alike. -/
theorem Store.walk_congr {s t : Store} (hchildren : ∀ path, s.children path = t.children path)
    (pending found : List String) : s.walk pending found = t.walk pending found := by
  induction pending, found using Store.walk.induct s with
  | case1 found => rw [walk, walk]
  | case2 found path rest ih =>
      rw [walk, ih, walk.eq_def t (path :: rest), hchildren]

/-- The scenes differ at most in the kind of store and the bytes in use. -/
inductive Scene.Twin (s t : Scene) : Prop
  | keeping (nodes : SortedMap String Node) (hs : s.store.Serves nodes) (ht : t.store.Serves nodes)
      (hsound : s.medium.failure = none) (htsound : t.medium.failure = none)
      (hcursor : s.cursor = t.cursor) (hnow : s.now = t.now) : Twin s t

/-- A quota stopped it. -/
def Bitten {α : Type} (result : Except StorageError α) : Prop :=
  ∃ used quota, result = .error (.quotaExceeded used quota)

instance {α : Type} (result : Except StorageError α) : Decidable (Bitten result) :=
  match result with
  | .error (.quotaExceeded used quota) => .isTrue ⟨used, quota, rfl⟩
  | .ok _ => .isFalse (by rintro ⟨used, quota, heq⟩; cases heq)
  | .error .inUse => .isFalse (by rintro ⟨used, quota, heq⟩; cases heq)
  | .error (.undecodable _ _) => .isFalse (by rintro ⟨used, quota, heq⟩; cases heq)
  | .error (.system _) => .isFalse (by rintro ⟨used, quota, heq⟩; cases heq)

theorem Scene.commit_of_serves {s : Scene} {nodes : SortedMap String Node}
    (hs : s.store.Serves nodes) (hsound : s.medium.failure = none) (changes : List Change) :
    s.commit changes = (.ok (), { s with store := changes.foldl Store.apply s.store }) := by
  have hrefusal : s.refusal = none := by
    rw [Scene.refusal, hsound]
    simp [hs.willing]
  rw [Scene.commit, hrefusal]

namespace Action

variable {α β : Type}

/-- On twins the action answers alike and leaves twins, unless a quota stops it. -/
def Agrees (action : Action α) : Prop :=
  ∀ s t : Scene, s.Twin t →
    Bitten (action.play s).1 ∨ Bitten (action.play t).1 ∨
      ((action.play s).1 = (action.play t).1 ∧ (action.play s).2.Twin (action.play t).2)

theorem agrees_pure (value : α) : (pure value : Action α).Agrees :=
  fun _ _ htwin => .inr (.inr ⟨rfl, htwin⟩)

/-- What goes on differently after the same answer must agree for each answer. -/
theorem Agrees.bind {action : Action α} {f : α → Action β} (haction : action.Agrees)
    (hf : ∀ value, (f value).Agrees) : (action >>= f).Agrees := by
  intro s t htwin
  rw [play_bind, play_bind]
  have hfirst := haction s t htwin
  cases hs : action.play s with
  | mk result s' =>
      cases ht : action.play t with
      | mk result' t' =>
          rw [hs, ht] at hfirst
          rcases hfirst with ⟨used, quota, hbitten⟩ | ⟨used, quota, hbitten⟩ | ⟨hsame, htwin'⟩
          · dsimp only at hbitten
            subst hbitten
            exact .inl ⟨used, quota, rfl⟩
          · dsimp only at hbitten
            subst hbitten
            exact .inr (.inl ⟨used, quota, rfl⟩)
          · dsimp only at hsame htwin'
            subst hsame
            cases result with
            | error e => exact .inr (.inr ⟨rfl, htwin'⟩)
            | ok value => exact hf value s' t' htwin'

/-! ### Calls -/

theorem agrees_get (path : String) : (Action.get path).Agrees := by
  intro s t htwin
  have hsame : s.store.get path = t.store.get path := by
    obtain ⟨nodes, hs, ht⟩ := htwin
    rw [hs.holds.get, ht.holds.get]
  exact .inr (.inr ⟨hsame, htwin⟩)

theorem agrees_commit (changes : List Change) : (Action.commit changes).Agrees := by
  intro s t htwin
  obtain ⟨nodes, hs, ht, hsound, htsound, hcursor, hnow⟩ := htwin
  rw [play_commit, play_commit, Scene.commit_of_serves hs hsound,
    Scene.commit_of_serves ht htsound]
  refine .inr (.inr ⟨rfl, .keeping (changes.foldl MemoryStore.applyChange nodes) ?_ ?_ hsound
    htsound hcursor hnow⟩)
  · exact ⟨hs.holds.foldl_apply changes, by rw [Store.refuses_foldl_apply, hs.willing]⟩
  · exact ⟨ht.holds.foldl_apply changes, by rw [Store.refuses_foldl_apply, ht.willing]⟩

theorem agrees_subtree (path : String) : (Action.subtree path).Agrees := by
  intro s t htwin
  have hchildren : ∀ path, s.store.children path = t.store.children path := by
    intro path
    obtain ⟨nodes, hs, ht⟩ := htwin
    rw [hs.holds.children, ht.holds.children]
  have hsame : s.store.walk [path] [] = t.store.walk [path] [] := Store.walk_congr hchildren _ _
  rw [play_subtree, play_subtree, hsame]
  exact .inr (.inr ⟨rfl, htwin⟩)

theorem agrees_flush : Action.flush.Agrees :=
  fun _ _ htwin => .inr (.inr ⟨rfl, htwin⟩)

theorem agrees_log (event : Log.Event) : (Action.log event).Agrees :=
  fun _ _ htwin => .inr (.inr ⟨rfl, htwin⟩)

theorem agrees_clock : Action.clock.Agrees := by
  intro s t htwin
  obtain ⟨nodes, hs, ht, hsound, htsound, hcursor, hnow⟩ := htwin
  rw [play_clock, play_clock, hnow]
  exact .inr (.inr ⟨rfl, .keeping nodes hs ht hsound htsound hcursor hnow⟩)

theorem agrees_cursor : Action.cursor.Agrees := by
  intro s t htwin
  obtain ⟨nodes, hs, ht, hsound, htsound, hcursor, hnow⟩ := htwin
  rw [play_cursor, play_cursor, hcursor]
  exact .inr (.inr ⟨rfl, .keeping nodes hs ht hsound htsound hcursor hnow⟩)

theorem agrees_moveCursor (path : String) : (Action.moveCursor path).Agrees := by
  intro s t htwin
  obtain ⟨nodes, hs, ht, hsound, htsound, -, hnow⟩ := htwin
  exact .inr (.inr ⟨rfl, .keeping nodes hs ht hsound htsound rfl hnow⟩)

end Action

/-! ### Operations -/

namespace Session

open VirtualShell.Action

variable (options : SessionOptions)

theorem agrees_report (level : Log.Level) (message : String) (fields : List (String × Log.Value)) :
    (report level message fields).Agrees :=
  agrees_log _

theorem agrees_flushIfWanted : (flushIfWanted options).Agrees := by
  rw [flushIfWanted]
  split
  · exact agrees_flush
  · exact agrees_pure ()

theorem agrees_resolve (raw : String) : (resolve raw).Agrees := by
  refine agrees_cursor.bind fun cursor => ?_
  cases Path.resolve raw cursor with
  | ok path => exact agrees_pure _
  | error e => exact (agrees_report _ _ _).bind fun _ => agrees_pure _

theorem agrees_mount : (mount options).Agrees := by
  refine (agrees_get _).bind fun found => ?_
  cases found with
  | some node => exact agrees_pure _
  | none =>
      exact (agrees_commit _).bind fun _ =>
        (agrees_flushIfWanted options).bind fun _ => agrees_report _ _ _

theorem agrees_pathExists (raw : String) : (pathExists raw).Agrees := by
  refine (agrees_resolve raw).bind fun resolved => ?_
  cases resolved with
  | none => exact agrees_pure _
  | some path => exact (agrees_get path).bind fun found => agrees_pure _

theorem agrees_entries (directory : String) (names : List String) :
    (entries directory names).Agrees := by
  induction names with
  | nil => exact agrees_pure _
  | cons name names ih =>
      refine (agrees_get _).bind fun found => ?_
      cases found with
      | none => exact (agrees_report _ _ _).bind fun _ => ih
      | some node => exact ih.bind fun rest => agrees_pure _

theorem agrees_listDirectory (raw : String) : (listDirectory raw).Agrees := by
  refine (agrees_resolve raw).bind fun resolved => ?_
  cases resolved with
  | none => exact agrees_pure _
  | some path =>
      refine (agrees_get path).bind fun found => ?_
      rcases found with _ | ⟨own, name, children⟩ | ⟨own, content, created, modified⟩
      · exact agrees_pure _
      · exact (agrees_entries path children).bind fun entries => agrees_pure _
      · exact agrees_pure _

theorem agrees_changeDirectory (raw : String) : (changeDirectory raw).Agrees := by
  refine (agrees_resolve raw).bind fun resolved => ?_
  cases resolved with
  | none => exact agrees_pure _
  | some path =>
      refine (agrees_get path).bind fun found => ?_
      rcases found with _ | ⟨own, name, children⟩ | ⟨own, content, created, modified⟩
      · exact agrees_pure _
      · exact agrees_cursor.bind fun cursor => (agrees_report _ _ _).bind fun _ =>
          (agrees_moveCursor path).bind fun _ => agrees_pure _
      · exact agrees_pure _

theorem agrees_fileText (raw : String) : (fileText raw).Agrees := by
  refine (agrees_resolve raw).bind fun resolved => ?_
  cases resolved with
  | none => exact agrees_pure _
  | some path =>
      refine (agrees_get path).bind fun found => ?_
      rcases found with _ | ⟨own, name, children⟩ | ⟨own, content, created, modified⟩ <;>
        exact agrees_pure _

/-- Here the bytes in use are asked for, and nothing but the quota depends on them. -/
theorem agrees_checkQuota (node : Node) : (checkQuota options node).Agrees := by
  have hplay (s : Scene) : Bitten ((checkQuota options node).play s).1 ∨
      (checkQuota options node).play s = (.ok (), s) := by
    rw [checkQuota, play_bind, play_usage]
    dsimp only
    split
    · exact .inl ⟨_, _, rfl⟩
    · exact .inr rfl
  intro s t htwin
  rcases hplay s with hbitten | hs
  · exact .inl hbitten
  · rcases hplay t with hbitten | ht
    · exact .inr (.inl hbitten)
    · rw [hs, ht]
      exact .inr (.inr ⟨rfl, htwin⟩)

theorem agrees_insert (path : String) (node : Node) : (insert options path node).Agrees := by
  rw [insert]
  cases Path.parent? path with
  | none => exact agrees_pure _
  | some parent =>
      refine (agrees_get parent).bind fun found => ?_
      rcases found with _ | ⟨own, name, children⟩ | ⟨own, content, created, modified⟩
      · exact agrees_pure _
      · exact (agrees_checkQuota options node).bind fun _ => (agrees_commit _).bind fun _ =>
          (agrees_flushIfWanted options).bind fun _ => agrees_pure _
      · exact agrees_pure _

/-- What came of an insertion is reported or not, and passed on. -/
theorem agrees_insert_report (path : String) (node : Node) (level : Log.Level) (message : String)
    (fields : List (String × Log.Value)) :
    (do
      let inserted ← insert options path node
      if inserted then report level message fields
      return inserted : Action Bool).Agrees := by
  refine (agrees_insert options path node).bind fun inserted => ?_
  cases inserted with
  | false => exact agrees_pure _
  | true => exact (agrees_report _ _ _).bind fun _ => agrees_pure _

theorem agrees_createFile (raw content : String) : (createFile options raw content).Agrees := by
  refine (agrees_resolve raw).bind fun resolved => ?_
  cases resolved with
  | none => exact agrees_pure _
  | some path =>
      refine agrees_clock.bind fun now => (agrees_get path).bind fun found => ?_
      rcases found with _ | ⟨own, name, children⟩ | ⟨own, earlier, created, modified⟩
      · exact agrees_insert_report options _ _ _ _ _
      · exact agrees_pure _
      · exact agrees_insert_report options _ _ _ _ _

theorem agrees_touch (raw : String) : (touch options raw).Agrees := by
  refine (agrees_resolve raw).bind fun resolved => ?_
  cases resolved with
  | none => exact agrees_pure _
  | some path =>
      refine (agrees_get path).bind fun found => ?_
      rcases found with _ | ⟨own, name, children⟩ | ⟨own, content, created, modified⟩
      · exact agrees_createFile options path ""
      · exact agrees_pure _
      · exact agrees_createFile options path ""

theorem agrees_createDirectory (raw : String) : (createDirectory options raw).Agrees := by
  refine (agrees_resolve raw).bind fun resolved => ?_
  cases resolved with
  | none => exact agrees_pure _
  | some path =>
      refine (agrees_get path).bind fun found => ?_
      rcases found with _ | ⟨own, name, children⟩ | ⟨own, content, created, modified⟩
      · exact agrees_insert_report options _ _ _ _ _
      · exact agrees_pure _
      · exact agrees_pure _

theorem agrees_delete (raw : String) : (delete options raw).Agrees := by
  refine (agrees_resolve raw).bind fun resolved => ?_
  cases resolved with
  | none => exact agrees_pure _
  | some path =>
      dsimp only
      cases Path.parent? path with
      | none => exact agrees_pure _
      | some parent =>
          refine (agrees_get path).bind fun found => ?_
          cases found with
          | none => exact agrees_pure _
          | some node =>
              -- whatever is to be removed, it is removed in one commit
              have hremove (doomed : List String) :
                  (do
                    Action.commit (removal doomed (Path.name path) (← Action.get parent))
                    flushIfWanted options
                    report .debug "Deleted"
                      [("path", .text path), ("removed", .count doomed.length)]
                    if Path.isWithin (← Action.cursor) path then
                      Action.moveCursor parent
                    return true : Action Bool).Agrees := by
                refine (agrees_get parent).bind fun above => (agrees_commit _).bind fun _ =>
                  (agrees_flushIfWanted options).bind fun _ => (agrees_report _ _ _).bind fun _ =>
                  agrees_cursor.bind fun cursor => ?_
                split
                · exact (agrees_moveCursor parent).bind fun _ => agrees_pure _
                · exact agrees_pure _
              dsimp only
              cases node.kind with
              | directory => exact (agrees_subtree path).bind hremove
              | file => exact (agrees_pure [path]).bind hremove

end Session

open VirtualShell.Action Session

theorem Seed.agrees_mount (options : SessionOptions) : (Seed.mount options).Agrees := by
  refine (agrees_get _).bind fun found => ?_
  cases found with
  | some node => exact (Session.agrees_mount options).bind fun _ => agrees_pure _
  | none =>
      exact agrees_clock.bind fun now => (agrees_commit _).bind fun _ =>
        (agrees_flushIfWanted options).bind fun _ => (agrees_log _).bind fun _ =>
        (Session.agrees_mount options).bind fun _ => agrees_pure _

theorem Operation.agrees (options : SessionOptions) {operation : Operation}
    (hoperation : operation ≠ .usage) : (operation.perform options).Agrees := by
  cases operation with
  | resolve raw => exact (agrees_resolve raw).bind fun _ => agrees_pure _
  | pathExists raw => exact (agrees_pathExists raw).bind fun _ => agrees_pure _
  | listDirectory raw => exact (agrees_listDirectory raw).bind fun _ => agrees_pure _
  | changeDirectory raw => exact (agrees_changeDirectory raw).bind fun _ => agrees_pure _
  | fileText raw => exact (agrees_fileText raw).bind fun _ => agrees_pure _
  | createFile raw content =>
      exact (agrees_createFile options raw content).bind fun _ => agrees_pure _
  | touch raw => exact (agrees_touch options raw).bind fun _ => agrees_pure _
  | createDirectory raw => exact (agrees_createDirectory options raw).bind fun _ => agrees_pure _
  | delete raw => exact (agrees_delete options raw).bind fun _ => agrees_pure _
  | usage => exact absurd rfl hoperation

theorem Request.agrees (options : SessionOptions) {request : Request}
    (hrequest : request ≠ .operate .usage) : (request.perform options).Agrees := by
  cases request with
  | start seeded =>
      cases seeded with
      | true => exact (Seed.agrees_mount options).bind fun _ => agrees_pure _
      | false => exact (Session.agrees_mount options).bind fun _ => agrees_pure _
  | operate operation => exact operation.agrees options fun heq => hrequest (heq ▸ rfl)

end VirtualShell
