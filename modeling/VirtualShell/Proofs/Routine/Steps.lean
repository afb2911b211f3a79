import VirtualShell.Proofs.Store.Walk
import Mathlib.Logic.Function.Iterate
import VirtualShell.Routine

/-!
# One call after the other

Making the calls of a routine one at a time comes to what running it at once does, as long as
nothing else touches the world in between.  A routine ends after finitely many steps, which are
counted by `effort`, and each of its steps adds to the output and takes nothing back.
-/

namespace VirtualShell

namespace World

/-- What follows on earlier output in a world. -/
def outputSince (w earlier : World) : List Output :=
  w.output.drop earlier.output.length

theorem output_eq {w earlier : World} (hearlier : earlier.output <+: w.output) :
    w.output = earlier.output ++ w.outputSince earlier :=
  (List.prefix_iff_eq_append.mp hearlier).symm

theorem outputSince_trans {first second third : World} (hfirst : first.output <+: second.output)
    (hsecond : second.output <+: third.output) :
    third.outputSince first = second.outputSince first ++ third.outputSince second := by
  obtain ⟨early, hearly⟩ := hfirst
  obtain ⟨late, hlate⟩ := hsecond
  rw [outputSince, outputSince, outputSince, ← hlate, ← hearly]
  simp [List.append_assoc]

end World

namespace Store

/-- A walk finds at least as many paths as are pending. -/
theorem length_le_length_walk (s : Store) (pending found : List String) :
    pending.length + found.length ≤ (s.walk pending found).length := by
  induction pending, found using Store.walk.induct s with
  | case1 found =>
      rw [walk]
      simp
  | case2 found path rest ih =>
      rw [walk]
      simp only [List.length_append, List.length_reverse, List.length_cons] at ih ⊢
      omega

end Store

namespace Routine

variable {α : Type}

/-- The number of steps that a routine takes in a world. -/
def effort : Routine α → World → Nat
  | .done _, _ => 0
  | .call c next, w => (next (w.answer c).1).effort (w.answer c).2 + 1
  | .walk pending found next, w =>
    (next (w.store.walk pending found)).effort w +
      ((w.store.walk pending found).length - found.length) + 1

/-- Whether a routine has ended. -/
def isDone : Routine α → Bool
  | .done _ => true
  | .call _ _ => false
  | .walk _ _ _ => false

theorem exists_of_isDone {routine : Routine α} (hdone : routine.isDone = true) :
    ∃ value, routine = .done value := by
  cases routine with
  | done value => exact ⟨value, rfl⟩
  | call c next => cases hdone
  | walk pending found next => cases hdone

/-- A step does not change what the routine comes to. -/
theorem run_step (routine : Routine α) (w : World) :
    (routine.step w).1.run (routine.step w).2 = routine.run w := by
  cases routine with
  | done value => rfl
  | call c next => rfl
  | walk pending found next =>
      cases pending with
      | nil =>
          rw [step, run, Store.walk]
      | cons path rest =>
          have hwalk : w.store.walk ((w.store.children path).reverse ++ rest) (path :: found) =
              w.store.walk (path :: rest) found := by
            rw [Store.walk.eq_def w.store (path :: rest) found]
          rw [step, run, run, hwalk]

/-- A step is one less to take. -/
theorem effort_step {routine : Routine α} (hdone : routine.isDone = false) (w : World) :
    (routine.step w).1.effort (routine.step w).2 + 1 = routine.effort w := by
  cases routine with
  | done value => cases hdone
  | call c next => rfl
  | walk pending found next =>
      cases pending with
      | nil =>
          have hwalk : w.store.walk [] found = found := by rw [Store.walk]
          rw [step, effort, hwalk]
          simp
      | cons path rest =>
          have hwalk : w.store.walk ((w.store.children path).reverse ++ rest) (path :: found) =
              w.store.walk (path :: rest) found := by
            rw [Store.walk.eq_def w.store (path :: rest) found]
          have hlength := w.store.length_le_length_walk (path :: rest) found
          rw [step, effort, effort, hwalk]
          simp only [List.length_cons] at hlength ⊢
          omega

theorem effort_eq_zero_iff {routine : Routine α} {w : World} :
    routine.effort w = 0 ↔ routine.isDone = true := by
  cases routine <;> simp [effort, isDone]

/-- A routine and its world after one step. -/
def advance (state : Routine α × World) : Routine α × World :=
  state.1.step state.2

/-- A routine that is alone in its world comes to its end in as many steps as its effort. -/
theorem iterate_advance (routine : Routine α) (w : World) :
    advance^[routine.effort w] (routine, w) = (.done (routine.run w).1, (routine.run w).2) := by
  generalize hcount : routine.effort w = count
  induction count generalizing routine w with
  | zero =>
      obtain ⟨value, rfl⟩ := exists_of_isDone (effort_eq_zero_iff.mp hcount)
      rfl
  | succ count ih =>
      have hdone : routine.isDone = false := by
        rw [← Bool.not_eq_true, ← effort_eq_zero_iff (w := w), hcount]
        exact Nat.succ_ne_zero count
      have hleft : (routine.step w).1.effort (routine.step w).2 = count :=
        Nat.succ.inj ((effort_step hdone w).trans hcount)
      rw [Function.iterate_succ_apply, ← run_step routine w]
      exact ih _ _ hleft

/-! ### One routine after the other -/

section Bind

variable {β γ : Type}

theorem bind_done (routine : Routine α) : routine.bind .done = routine := by
  induction routine with
  | done value => rfl
  | call c next ih => exact congrArg (call c) (funext ih)
  | walk pending found next ih => exact congrArg (walk pending found) (funext ih)

theorem bind_assoc (routine : Routine α) (f : α → Routine β) (g : β → Routine γ) :
    (routine.bind f).bind g = routine.bind fun value => (f value).bind g := by
  induction routine with
  | done value => rfl
  | call c next ih => exact congrArg (call c) (funext ih)
  | walk pending found next ih => exact congrArg (walk pending found) (funext ih)

/-- This is no instance, because with it `simp` has other normal forms for sequences of calls. -/
theorem lawfulMonad : LawfulMonad Routine :=
  .mk' Routine bind_done (fun _ _ => rfl) bind_assoc

/-- A routine after another one runs in the world that the first one leaves. -/
theorem run_bind (routine : Routine α) (f : α → Routine β) (w : World) :
    (routine >>= f).run w = (f (routine.run w).1).run (routine.run w).2 := by
  show (routine.bind f).run w = _
  induction routine generalizing w with
  | done value => rfl
  | call c next ih => exact ih _ _
  | walk pending found next ih => exact ih _ w

end Bind

/-! ### Output -/

theorem prefix_output_commit (w : World) (changes : List Change) :
    w.output <+: (w.commit changes).2.output := by
  rw [World.commit]
  cases w.store.commit changes with
  | error e => exact List.prefix_rfl
  | ok store =>
      cases store with
      | memory s => exact List.prefix_rfl
      | durable s => exact List.prefix_append _ _

theorem prefix_output_answer (w : World) (c : Call) : w.output <+: (w.answer c).2.output := by
  cases c with
  | commit changes => exact prefix_output_commit w changes
  | emit output => exact List.prefix_append _ _
  | get path => exact List.prefix_rfl
  | usage => exact List.prefix_rfl
  | flush => exact List.prefix_rfl
  | clock => exact List.prefix_rfl
  | cursor => exact List.prefix_rfl
  | moveCursor path => exact List.prefix_rfl

/-- A step adds to the output. -/
theorem prefix_output_step (routine : Routine α) (w : World) :
    w.output <+: (routine.step w).2.output := by
  cases routine with
  | done value => exact List.prefix_rfl
  | call c next => exact prefix_output_answer w c
  | walk pending found next => cases pending <;> exact List.prefix_rfl

/-- Running to the end adds to the output. -/
theorem prefix_output_run (routine : Routine α) (w : World) :
    w.output <+: (routine.run w).2.output := by
  induction routine generalizing w with
  | done value => exact List.prefix_rfl
  | call c next ih => exact (prefix_output_answer w c).trans (ih _ _)
  | walk pending found next ih => exact ih _ w

end Routine
end VirtualShell
