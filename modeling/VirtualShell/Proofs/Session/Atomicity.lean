import VirtualShell.Proofs.Session.Success

/-!
# Nothing comes of what fails

A request that ends in a storage error, or that answers that nothing came of it, leaves the store
and the cursor as they were.  Every request reads first, then makes at most one commit, and nothing
after the commit can fail any more; the argument follows these three stages.  It does not look at
the store, so it holds of stores with any bytes in them.
-/

namespace VirtualShell
namespace Action

variable {α β : Type}

/-- An action ended in an error, or with a value that counts as a failure. -/
def Fails (failure : α → Prop) : Except StorageError α → Prop
  | .error _ => True
  | .ok value => failure value

/-- An action that never changes anything. -/
def Quiet (action : Action α) : Prop :=
  ∀ s, (action.play s).2 = s

/-- An action that changes nothing when it fails. -/
def Atomic (failure : α → Prop) (action : Action α) : Prop :=
  ∀ s, Fails failure (action.play s).1 → (action.play s).2 = s

/-- An action that never fails. -/
def Certain (failure : α → Prop) (action : Action α) : Prop :=
  ∀ s, ¬ Fails failure (action.play s).1

/-! ### Single steps -/

theorem quiet_pure (value : α) : Quiet (pure value : Action α) := fun _ => rfl

theorem quiet_throw (e : StorageError) : Quiet (throw e : Action α) := fun _ => rfl

theorem quiet_get (path : String) : Quiet (Action.get path) := fun _ => rfl

theorem quiet_subtree (path : String) : Quiet (Action.subtree path) := fun _ => rfl

theorem quiet_usage : Quiet Action.usage := fun _ => rfl

theorem quiet_clock : Quiet Action.clock := fun _ => rfl

theorem quiet_cursor : Quiet Action.cursor := fun _ => rfl

theorem quiet_report (level : Log.Level) (message : String) (fields : List (String × Log.Value)) :
    Quiet (Session.report level message fields) := fun _ => rfl

/-- A commit that is refused changes nothing. -/
theorem atomic_commit (changes : List Change) :
    Atomic (fun _ => False) (Action.commit changes) := by
  intro s hfails
  rw [play_commit, Scene.commit] at hfails ⊢
  cases hrefusal : s.refusal with
  | some e => rfl
  | none =>
      rw [hrefusal] at hfails
      exact hfails.elim

theorem certain_pure {failure : α → Prop} {value : α} (hvalue : ¬ failure value) :
    Certain failure (pure value : Action α) := fun _ => hvalue

theorem certain_report (level : Log.Level) (message : String)
    (fields : List (String × Log.Value)) :
    Certain (fun _ => False) (Session.report level message fields) := fun _ => id

theorem certain_flushIfWanted (options : SessionOptions) :
    Certain (fun _ => False) (Session.flushIfWanted options) := by
  intro s hfails
  rw [Session.play_flushIfWanted] at hfails
  exact hfails

/-! ### One step after the other -/

theorem Quiet.bind {action : Action α} {f : α → Action β} (haction : Quiet action)
    (hf : ∀ value, Quiet (f value)) : Quiet (action >>= f) := by
  intro s
  have hsame := haction s
  rw [play_bind]
  cases hplay : action.play s with
  | mk result s' =>
      obtain rfl : s' = s := by rwa [hplay] at hsame
      cases result with
      | error e => rfl
      | ok value => exact hf value s'

theorem Quiet.atomic {action : Action α} (haction : Quiet action) (failure : α → Prop) :
    Atomic failure action := fun s _ => haction s

/-- After a failure everything is as it was, so what follows may fail again; after a success nothing
that follows may fail. -/
theorem Atomic.bind {action : Action α} {f : α → Action β} {before : α → Prop} {after : β → Prop}
    (haction : Atomic before action) (hfailed : ∀ value, before value → Atomic after (f value))
    (hdone : ∀ value, ¬ before value → Certain after (f value)) : Atomic after (action >>= f) := by
  intro s
  have hsame := haction s
  rw [play_bind]
  cases hplay : action.play s with
  | mk result s' =>
      rw [hplay] at hsame
      cases result with
      | error e =>
          intro _
          exact hsame trivial
      | ok value =>
          intro hfails
          by_cases hvalue : before value
          · obtain rfl : s' = s := hsame hvalue
            exact hfailed value hvalue s' hfails
          · exact absurd hfails (hdone value hvalue s')

/-- Reading first does no harm. -/
theorem Quiet.bind_atomic {action : Action α} {f : α → Action β} {after : β → Prop}
    (haction : Quiet action) (hf : ∀ value, Atomic after (f value)) :
    Atomic after (action >>= f) :=
  (haction.atomic fun _ => True).bind (fun value _ => hf value) fun _ hvalue =>
    absurd trivial hvalue

/-- Nothing may fail after a commit. -/
theorem atomic_commit_bind {f : Unit → Action β} {after : β → Prop} (changes : List Change)
    (hf : ∀ value, Certain after (f value)) : Atomic after (Action.commit changes >>= f) :=
  (atomic_commit changes).bind (fun _ hfalse => hfalse.elim) fun value _ => hf value

theorem Certain.bind {action : Action α} {f : α → Action β} {after : β → Prop}
    (haction : Certain (fun _ => False) action) (hf : ∀ value, Certain after (f value)) :
    Certain after (action >>= f) := by
  intro s
  have hcertain := haction s
  rw [play_bind]
  cases hplay : action.play s with
  | mk result s' =>
      rw [hplay] at hcertain
      cases result with
      | error e => exact absurd trivial hcertain
      | ok value => exact hf value s'

end Action

namespace Session

open VirtualShell.Action

/-- An answer that nothing was done. -/
abbrev Refused (done : Bool) : Prop := done = false

/-! ### Operations that only read -/

theorem quiet_resolve (raw : String) : Quiet (resolve raw) := by
  refine quiet_cursor.bind fun cwd => ?_
  split
  · exact quiet_pure _
  · exact (quiet_report _ _ _).bind fun _ => quiet_pure _

theorem quiet_pathExists (raw : String) : Quiet (pathExists raw) := by
  refine (quiet_resolve raw).bind fun path => ?_
  split
  · exact quiet_pure _
  · exact (quiet_get _).bind fun _ => quiet_pure _

theorem quiet_entries (directory : String) (names : List String) :
    Quiet (entries directory names) := by
  induction names with
  | nil => exact quiet_pure _
  | cons name names ih =>
      refine (quiet_get _).bind fun found => ?_
      split
      · exact ih.bind fun _ => quiet_pure _
      · exact (quiet_report _ _ _).bind fun _ => ih

theorem quiet_listDirectory (raw : String) : Quiet (listDirectory raw) := by
  refine (quiet_resolve raw).bind fun path => ?_
  split
  · exact quiet_pure _
  · refine (quiet_get _).bind fun found => ?_
    split
    · exact (quiet_entries _ _).bind fun _ => quiet_pure _
    · exact quiet_pure _

theorem quiet_fileText (raw : String) : Quiet (fileText raw) := by
  refine (quiet_resolve raw).bind fun path => ?_
  split
  · exact quiet_pure _
  · refine (quiet_get _).bind fun found => ?_
    split
    · exact quiet_pure _
    · exact quiet_pure _

theorem quiet_usage (options : SessionOptions) : Quiet (usage options) :=
  Action.quiet_usage.bind fun _ => quiet_pure _

theorem quiet_checkQuota (options : SessionOptions) (node : Node) :
    Quiet (checkQuota options node) := by
  refine Action.quiet_usage.bind fun used => ?_
  split
  · exact (quiet_report _ _ _).bind fun _ => quiet_throw _
  · exact quiet_pure _

/-! ### Operations that change something -/

theorem atomic_changeDirectory (raw : String) : Atomic Refused (changeDirectory raw) := by
  refine (quiet_resolve raw).bind_atomic fun path => ?_
  split
  · exact (quiet_pure _).atomic _
  · refine (quiet_get _).bind_atomic fun found => ?_
    split
    · refine quiet_cursor.bind_atomic fun cwd => (quiet_report _ _ _).bind_atomic fun _ => ?_
      -- moving the cursor always works, and `true` is answered after it
      intro s hfails
      cases hfails
    · exact (quiet_pure _).atomic _

theorem atomic_insert (options : SessionOptions) (path : String) (node : Node) :
    Atomic Refused (insert options path node) := by
  rw [insert]
  split
  · exact (quiet_pure _).atomic _
  · refine (quiet_get _).bind_atomic fun found => ?_
    split
    · refine (quiet_checkQuota options node).bind_atomic fun _ => ?_
      refine atomic_commit_bind _ fun _ => (certain_flushIfWanted options).bind fun _ => ?_
      exact certain_pure (by simp)
    · exact (quiet_pure _).atomic _

/-- What follows an insertion only reports it and passes its answer on. -/
theorem atomic_insert_report {action : Action Bool} (haction : Atomic Refused action)
    (level : Log.Level) (message : String) (fields : List (String × Log.Value)) :
    Atomic Refused (do
      let inserted ← action
      if inserted then report level message fields
      return inserted) := by
  refine haction.bind (fun inserted hrefused => ?_) fun inserted hdone => ?_
  · subst hrefused
    exact (quiet_pure _).atomic _
  · have hinserted : inserted = true := by simpa using hdone
    subst hinserted
    exact (certain_report level message fields).bind fun _ => certain_pure hdone

theorem atomic_createFile (options : SessionOptions) (raw content : String) :
    Atomic Refused (createFile options raw content) := by
  refine (quiet_resolve raw).bind_atomic fun path => ?_
  split
  · exact (quiet_pure _).atomic _
  · refine quiet_clock.bind_atomic fun now => (quiet_get _).bind_atomic fun found => ?_
    split
    · exact (quiet_pure _).atomic _
    · exact atomic_insert_report (atomic_insert _ _ _) _ _ _

theorem atomic_touch (options : SessionOptions) (raw : String) :
    Atomic Refused (touch options raw) := by
  refine (quiet_resolve raw).bind_atomic fun path => ?_
  split
  · exact (quiet_pure _).atomic _
  · refine (quiet_get _).bind_atomic fun found => ?_
    split
    · exact (quiet_pure _).atomic _
    · exact atomic_createFile _ _ _

theorem atomic_createDirectory (options : SessionOptions) (raw : String) :
    Atomic Refused (createDirectory options raw) := by
  refine (quiet_resolve raw).bind_atomic fun path => ?_
  split
  · exact (quiet_pure _).atomic _
  · refine (quiet_get _).bind_atomic fun found => ?_
    split
    · exact (quiet_pure _).atomic _
    · exact (quiet_pure _).atomic _
    · exact atomic_insert_report (atomic_insert _ _ _) _ _ _

theorem atomic_remove (options : SessionOptions) (path parent : String) (doomed : List String) :
    Atomic Refused (remove options path parent doomed) := by
  refine (quiet_get parent).bind_atomic fun above => atomic_commit_bind _ fun _ s hfails => ?_
  rw [play_afterRemoval] at hfails
  cases hfails

theorem atomic_delete (options : SessionOptions) (raw : String) :
    Atomic Refused (delete options raw) := by
  refine (quiet_resolve raw).bind_atomic fun path => ?_
  split
  · exact (quiet_pure _).atomic _
  · split
    · exact (quiet_pure _).atomic _
    · refine (quiet_get _).bind_atomic fun found => ?_
      split
      · exact (quiet_pure _).atomic _
      · split
        · exact (quiet_subtree _).bind_atomic fun doomed => atomic_remove _ _ _ doomed
        · exact (quiet_pure _).bind_atomic fun doomed => atomic_remove _ _ _ doomed

end Session

/-! ### Every request -/

namespace Action

variable {α : Type}

/-- Passing an answer on, in other words. -/
theorem Atomic.reply {action : Action α} {failure : α → Prop} (haction : Atomic failure action)
    {reply : α → Reply} (hreply : ∀ value, (reply value).failed = true → failure value) :
    Atomic (fun answer => answer.failed = true) (do return reply (← action)) :=
  haction.bind (fun _ _ => (quiet_pure _).atomic _) fun value hdone =>
    certain_pure fun hfailed => hdone (hreply value hfailed)

theorem Quiet.reply {action : Action α} (haction : Quiet action) (reply : α → Reply) :
    Quiet (do return reply (← action)) :=
  haction.bind fun _ => quiet_pure _

end Action

open VirtualShell.Action

theorem Operation.atomic_perform (options : SessionOptions) (operation : Operation) :
    Atomic (fun answer => answer.failed = true) (operation.perform options) := by
  have hrefused : ∀ done : Bool, (Reply.truth done).failed = true → Session.Refused done := by
    intro done hfailed
    simpa [Reply.failed] using hfailed
  cases operation with
  | resolve raw => exact ((Session.quiet_resolve raw).reply _).atomic _
  | pathExists raw => exact ((Session.quiet_pathExists raw).reply _).atomic _
  | listDirectory raw => exact ((Session.quiet_listDirectory raw).reply _).atomic _
  | changeDirectory raw => exact (Session.atomic_changeDirectory raw).reply hrefused
  | fileText raw => exact ((Session.quiet_fileText raw).reply _).atomic _
  | createFile raw content => exact (Session.atomic_createFile options raw content).reply hrefused
  | touch raw => exact (Session.atomic_touch options raw).reply hrefused
  | createDirectory raw => exact (Session.atomic_createDirectory options raw).reply hrefused
  | delete raw => exact (Session.atomic_delete options raw).reply hrefused
  | usage => exact ((Session.quiet_usage options).reply _).atomic _

theorem Request.atomic_perform (options : SessionOptions) (request : Request) :
    Atomic (fun answer => answer.failed = true) (request.perform options) := by
  cases request with
  | start seeded =>
      intro s hfails
      rw [Request.play_start, Scene.commit] at hfails ⊢
      cases hget : s.store.get Path.root with
      | error e => rfl
      | ok found =>
          cases found with
          | some node => rfl
          | none =>
              cases hrefusal : s.refusal with
              | some e => rfl
              | none =>
                  rw [hget, hrefusal] at hfails
                  cases hfails
  | operate operation => exact operation.atomic_perform options

/-- A request that fails, or answers that nothing came of it, leaves the store and the cursor as
they were, whatever the store keeps. -/
theorem Request.unchanged_of_fails (options : SessionOptions) (request : Request)
    (medium : Medium) (w : World)
    (hfails : Fails (fun answer => answer.failed = true)
      (((request.perform options).upon medium).run w).1) :
    (((request.perform options).upon medium).run w).2.store = w.store ∧
      (((request.perform options).upon medium).run w).2.cursor = w.cursor := by
  have hscene :
      (((request.perform options).upon medium).run w).2.scene medium = w.scene medium := by
    rw [result_run] at hfails
    rw [scene_run]
    exact request.atomic_perform options (w.scene medium) hfails
  exact ⟨congrArg Scene.store hscene, congrArg Scene.cursor hscene⟩

/-- A store that refuses writes keeps a session from starting, and stays empty. -/
theorem Request.unchanged_of_refused_start :
    let w : World := ⟨.memory ⟨.empty, true⟩, Path.root, 0, []⟩
    let action := (Request.perform ⟨defaultQuotaBytes, false⟩ (.start true)).upon .intact
    (action.run w).2.store = w.store ∧ (action.run w).2.cursor = w.cursor :=
  Request.unchanged_of_fails ⟨defaultQuotaBytes, false⟩ (.start true) .intact
    ⟨.memory ⟨.empty, true⟩, Path.root, 0, []⟩ trivial

end VirtualShell
