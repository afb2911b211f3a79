import VirtualShell.Proofs.Routine.Steps

/-!
# Output that was there before

A routine never reads what was put out.  So it does the same whatever output is there when it
starts, and puts the same behind it: `run_behind` says so, and `run_congr` compares two worlds that
differ in their output only.
-/

namespace VirtualShell

namespace World

/-- The world with some more output before its own. -/
def behind (earlier : List Output) (w : World) : World :=
  { w with output := earlier ++ w.output }

/-- The world with no output yet. -/
def silent (w : World) : World :=
  { w with output := [] }

@[simp]
theorem store_behind (earlier : List Output) (w : World) : (w.behind earlier).store = w.store := rfl

@[simp]
theorem cursor_behind (earlier : List Output) (w : World) :
    (w.behind earlier).cursor = w.cursor := rfl

theorem behind_silent (w : World) : w.silent.behind w.output = w := by
  rw [behind, silent, List.append_nil]

theorem silent_eq_iff {w w' : World} :
    w.silent = w'.silent ↔ w.store = w'.store ∧ w.cursor = w'.cursor ∧ w.now = w'.now := by
  simp [silent]

theorem emit_behind (earlier : List Output) (w : World) (output : Output) :
    (w.behind earlier).emit output = (w.emit output).behind earlier := by
  rw [emit, behind, behind, emit, List.append_assoc]

theorem commit_behind (earlier : List Output) (w : World) (changes : List Change) :
    (w.behind earlier).commit changes =
      ((w.commit changes).1, (w.commit changes).2.behind earlier) := by
  rw [commit, commit, store_behind]
  cases w.store.commit changes with
  | error e => rfl
  | ok store =>
      cases store with
      | memory s => rfl
      | durable s =>
          exact congrArg (Prod.mk _) (emit_behind earlier { w with store := .durable s } _)

/-- A call is answered the same behind earlier output. -/
theorem answer_behind (earlier : List Output) (w : World) (c : Call) :
    (w.behind earlier).answer c = ((w.answer c).1, (w.answer c).2.behind earlier) := by
  cases c with
  | commit changes => exact commit_behind earlier w changes
  | emit output => exact congrArg (Prod.mk ()) (emit_behind earlier w output)
  | _ => rfl

end World

namespace Routine

variable {α : Type}

/-- A routine does the same behind earlier output. -/
theorem run_behind (routine : Routine α) (earlier : List Output) (w : World) :
    routine.run (w.behind earlier) = ((routine.run w).1, (routine.run w).2.behind earlier) := by
  induction routine generalizing w with
  | done value => rfl
  | call c next ih =>
      rw [run, World.answer_behind, ih]
      rfl
  | walk pending found next ih => exact ih _ w

theorem outputSince_run (routine : Routine α) (w : World) :
    (routine.run w).2.outputSince w = (routine.run w.silent).2.output := by
  have hrun := routine.run_behind w.output w.silent
  rw [World.behind_silent] at hrun
  rw [hrun, World.outputSince, World.behind, List.drop_left]

/-- In worlds that differ in their output only, a routine comes to the same value, puts the same
out, and leaves worlds that differ in their output only. -/
theorem run_congr (routine : Routine α) {w w' : World} (hsilent : w.silent = w'.silent) :
    (routine.run w).1 = (routine.run w').1 ∧
      (routine.run w).2.outputSince w = (routine.run w').2.outputSince w' ∧
      (routine.run w).2.silent = (routine.run w').2.silent := by
  have hrun := routine.run_behind w.output w.silent
  have hrun' := routine.run_behind w'.output w'.silent
  rw [World.behind_silent] at hrun hrun'
  refine ⟨?_, ?_, ?_⟩
  · rw [hrun, hrun', hsilent]
  · rw [outputSince_run, outputSince_run, hsilent]
  · rw [hrun, hrun', hsilent]
    rfl

end Routine
end VirtualShell
