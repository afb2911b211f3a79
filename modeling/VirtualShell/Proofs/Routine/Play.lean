import VirtualShell.Proofs.Routine.Medium
import VirtualShell.Proofs.Store.Contents

/-!
# Playing a routine

What a session shows and reports never comes back to it.  So the answers, the store and the cursor
are settled by a scene, the world without its output and with the medium that it is on, and reports
do nothing there.  `play` runs an action on a scene; `result_run` and `scene_run` say that running
it in the world comes to this.
-/

namespace VirtualShell

/-- What a routine can learn or change. -/
structure Scene where
  store : Store
  cursor : String
  now : Timestamp
  medium : Medium

/-- The world over a medium, without its output. -/
def World.scene (w : World) (medium : Medium) : Scene where
  store := w.store
  cursor := w.cursor
  now := w.now
  medium := medium

namespace Scene

/-- What a commit fails with, if it fails. -/
def refusal (s : Scene) : Option StorageError :=
  match s.medium.failure with
  | some e => some e
  | none => if s.store.refuses then some (.system .simulatedWriteFailure) else none

/-- What a commit comes to: all of the changes are made, or none. -/
def commit (s : Scene) (changes : List Change) : Except StorageError Unit × Scene :=
  match s.refusal with
  | some e => (.error e, s)
  | none => (.ok (), { s with store := changes.foldl Store.apply s.store })

/-- The answer to a call, and the scene after it. -/
def answer (s : Scene) : (c : Call) → c.Answer × Scene
  | .get path => (s.store.get path, s)
  | .commit changes => s.commit changes
  | .usage => (s.medium.used.getD s.store.usage, s)
  | .flush => ((), s)
  | .clock => (s.now, s)
  | .cursor => (s.cursor, s)
  | .moveCursor path => ((), { s with cursor := path })
  | .emit _ => ((), s)

end Scene

/-- What the medium answers leaves the scene as it is. -/
theorem Scene.answer_of_medium {s : Scene} {c : Call} {answer : c.Answer}
    (hanswer : s.medium.answer? c = some answer) : s.answer c = (answer, s) := by
  cases c with
  | commit changes =>
      obtain ⟨e, hfailure, rfl⟩ := Option.map_eq_some_iff.mp hanswer
      rw [Scene.answer, commit, refusal, hfailure]
      rfl
  | usage =>
      have hused : s.medium.used = some answer := hanswer
      rw [Scene.answer, hused]
      rfl
  | _ => cases hanswer

section World

variable (w : World) {medium : Medium}

/-- Over a medium that fails nothing, a store refuses what it refuses of itself. -/
theorem World.refusal_scene (hfailure : medium.failure = none) :
    (w.scene medium).refusal =
      if w.store.refuses then some (.system .simulatedWriteFailure) else none := by
  rw [Scene.refusal, show (w.scene medium).medium.failure = none from hfailure]
  rfl

theorem World.commit_scene (changes : List Change) (hfailure : medium.failure = none) :
    (w.scene medium).commit changes =
      ((w.commit changes).1, (w.commit changes).2.scene medium) := by
  rw [commit, Store.commit_eq, Scene.commit, w.refusal_scene hfailure]
  by_cases hrefuses : w.store.refuses
  · simp only [if_pos hrefuses]
  · simp only [if_neg hrefuses]
    rw [show (w.scene medium).store = w.store from rfl]
    cases List.foldl Store.apply w.store changes <;> rfl

/-- What the medium leaves to the store is answered as in the world. -/
theorem World.answer_scene {c : Call} (hanswer : medium.answer? c = none) :
    (w.scene medium).answer c = ((w.answer c).1, (w.answer c).2.scene medium) := by
  cases c with
  | commit changes => exact w.commit_scene changes (Option.map_eq_none_iff.mp hanswer)
  | usage =>
      have hused : (w.scene medium).medium.used = none := hanswer
      rw [Scene.answer, hused]
      rfl
  | _ => rfl

end World

namespace Routine

variable {α β : Type}

/-- Runs a routine to its end on a scene. -/
def play : Routine α → Scene → α × Scene
  | .done value, s => (value, s)
  | .call c next, s => (next (s.answer c).1).play (s.answer c).2
  | .walk pending found next, s => (next (s.store.walk pending found)).play s

/-- The output changes nothing else. -/
theorem run_upon_scene (routine : Routine α) (medium : Medium) (w : World) :
    (((routine.upon medium).run w).1, ((routine.upon medium).run w).2.scene medium) =
      routine.play (w.scene medium) := by
  induction routine generalizing w with
  | done value => rfl
  | call c next ih =>
      -- either the medium answers, or the store does
      rw [upon, play]
      cases hanswer : medium.answer? c with
      | some answer =>
          rw [Scene.answer_of_medium (s := w.scene medium) hanswer]
          exact ih answer w
      | none =>
          rw [w.answer_scene hanswer]
          exact ih (w.answer c).1 (w.answer c).2
  | walk pending found next ih => exact ih (w.store.walk pending found) w

theorem play_bind (routine : Routine α) (f : α → Routine β) (s : Scene) :
    (routine.bind f).play s = (f (routine.play s).1).play (routine.play s).2 := by
  induction routine generalizing s with
  | done value => rfl
  | call c next ih => exact ih _ _
  | walk pending found next ih => exact ih _ _

/-- What a routine does to the store is some changes. -/
theorem exists_changes (routine : Routine α) (s : Scene) :
    ∃ changes : List Change, (routine.play s).2.store = changes.foldl Store.apply s.store := by
  induction routine generalizing s with
  | done value => exact ⟨[], rfl⟩
  | call c next ih =>
      obtain ⟨later, hlater⟩ := ih (s.answer c).1 (s.answer c).2
      have hfirst : ∃ changes : List Change,
          (s.answer c).2.store = changes.foldl Store.apply s.store := by
        cases c with
        | commit changes =>
            rw [Scene.answer, Scene.commit]
            cases s.refusal with
            | some e => exact ⟨[], rfl⟩
            | none => exact ⟨changes, rfl⟩
        | _ => exact ⟨[], rfl⟩
      obtain ⟨changes, hchanges⟩ := hfirst
      exact ⟨changes ++ later, by rw [play, hlater, hchanges, List.foldl_append]⟩
  | walk pending found next ih => exact ih _ s

end Routine

namespace Action

variable {α β : Type}

/-- Runs an action to its end on a scene. -/
def play (action : Action α) (s : Scene) : Except StorageError α × Scene :=
  Routine.play (ExceptT.run action) s

theorem result_run (action : Action α) (medium : Medium) (w : World) :
    ((action.upon medium).run w).1 = (action.play (w.scene medium)).1 :=
  congrArg Prod.fst (Routine.run_upon_scene (ExceptT.run action) medium w)

theorem scene_run (action : Action α) (medium : Medium) (w : World) :
    ((action.upon medium).run w).2.scene medium = (action.play (w.scene medium)).2 :=
  congrArg Prod.snd (Routine.run_upon_scene (ExceptT.run action) medium w)

/-- What an action comes to in the world, with nothing wrong under the store. -/
theorem run_of_play {action : Action α} {w : World} {result : Except StorageError α} {s : Scene}
    (hplay : action.play (w.scene .intact) = (result, s)) :
    (action.run w).1 = result ∧ (action.run w).2.store = s.store ∧
      (action.run w).2.cursor = s.cursor := by
  have hresult := action.result_run .intact w
  have hscene := action.scene_run .intact w
  rw [action.upon_intact, hplay] at hresult hscene
  exact ⟨hresult, congrArg Scene.store hscene, congrArg Scene.cursor hscene⟩

/-! ### What each part of an action comes to -/

@[simp]
theorem play_pure (value : α) (s : Scene) : (pure value : Action α).play s = (.ok value, s) := rfl

@[simp]
theorem play_throw (e : StorageError) (s : Scene) :
    (throw e : Action α).play s = (.error e, s) := rfl

theorem play_bind (action : Action α) (f : α → Action β) (s : Scene) :
    (action >>= f).play s =
      match action.play s with
      | (.ok value, s) => (f value).play s
      | (.error e, s) => (.error e, s) := by
  show Routine.play (Routine.bind (ExceptT.run action) (ExceptT.bindCont f)) s = _
  rw [Routine.play_bind]
  show Routine.play (ExceptT.bindCont f (action.play s).1) (action.play s).2 = _
  cases action.play s with
  | mk result s => cases result <;> rfl

/-- What ended well did so in both of its parts. -/
theorem play_bind_eq_ok {action : Action α} {f : α → Action β} {s s' : Scene} {result : β}
    (hplay : (action >>= f).play s = (.ok result, s')) :
    ∃ value middle, action.play s = (.ok value, middle) ∧
      (f value).play middle = (.ok result, s') := by
  rw [play_bind] at hplay
  cases haction : action.play s with
  | mk outcome middle =>
      rw [haction] at hplay
      cases outcome with
      | error e => simp at hplay
      | ok value => exact ⟨value, middle, rfl, hplay⟩

section Calls

variable (s : Scene)

@[simp]
theorem play_get (path : String) : (Action.get path).play s = (s.store.get path, s) := rfl

@[simp]
theorem play_commit (changes : List Change) :
    (Action.commit changes).play s = s.commit changes := rfl

@[simp]
theorem play_subtree (path : String) :
    (Action.subtree path).play s = (.ok (s.store.walk [path] []), s) := rfl

@[simp]
theorem play_usage :
    Action.usage.play s = (.ok (s.medium.used.getD s.store.usage), s) := rfl

@[simp]
theorem play_flush : Action.flush.play s = (.ok (), s) := rfl

@[simp]
theorem play_clock : Action.clock.play s = (.ok s.now, s) := rfl

@[simp]
theorem play_cursor : Action.cursor.play s = (.ok s.cursor, s) := rfl

@[simp]
theorem play_moveCursor (path : String) :
    (Action.moveCursor path).play s = (.ok (), { s with cursor := path }) := rfl

@[simp]
theorem play_log (event : Log.Event) : (Action.log event).play s = (.ok (), s) := rfl

end Calls

end Action
end VirtualShell
