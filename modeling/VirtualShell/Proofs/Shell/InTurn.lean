import VirtualShell.Proofs.Routine.Steps
import VirtualShell.Shell.Dispatcher

/-!
# One line after the other

What a list of lines comes to when each runs to its end before the next one starts: the outcomes,
the world that is left, what each line put out, and how many steps all of it takes.
-/

namespace VirtualShell
namespace Shell

variable (shell : Shell)

/-- Runs lines one after the other. -/
def executeAll : List String → World → List Outcome × World
  | [], w => ([], w)
  | line :: lines, w =>
    let (outcome, w) := (shell.execute line).run w
    let (outcomes, w) := executeAll lines w
    (outcome :: outcomes, w)

/-- What the lines put out, each part with the number of its line. -/
def transcript : Nat → List String → World → List (Nat × Output)
  | _, [], _ => []
  | number, line :: lines, w =>
    ((((shell.execute line).run w).2.outputSince w).map fun output => (number, output)) ++
      transcript (number + 1) lines ((shell.execute line).run w).2

/-- The steps that the lines take behind a gate: one to come in and one to leave for each, and those
of its command. A blank line takes none. -/
def work : List String → World → Nat
  | [], _ => 0
  | line :: lines, w =>
    (if Line.parse line = none then 0 else (shell.execute line).effort w + 2) +
      work lines ((shell.execute line).run w).2

section Lines

variable {shell} {line : String} (lines later : List String) (w : World)

/-- A blank line leaves everything as it is. -/
theorem execute_blank (hblank : Line.parse line = none) :
    (shell.execute line).run w = (.empty, w) := by
  rw [execute, hblank]
  rfl

theorem execute_of_parse {invocation : Invocation} (hline : Line.parse line = some invocation) :
    shell.execute line = shell.perform invocation := by
  rw [execute, hline]

@[simp]
theorem length_executeAll : (shell.executeAll lines w).1.length = lines.length := by
  induction lines generalizing w with
  | nil => rfl
  | cons line lines ih => simp [executeAll, ih]

theorem executeAll_append :
    shell.executeAll (lines ++ later) w =
      ((shell.executeAll lines w).1 ++ (shell.executeAll later (shell.executeAll lines w).2).1,
        (shell.executeAll later (shell.executeAll lines w).2).2) := by
  induction lines generalizing w with
  | nil => rfl
  | cons line lines ih => simp [executeAll, ih]

theorem executeAll_concat (line : String) :
    shell.executeAll (lines ++ [line]) w =
      ((shell.executeAll lines w).1 ++ [((shell.execute line).run (shell.executeAll lines w).2).1],
        ((shell.execute line).run (shell.executeAll lines w).2).2) := by
  rw [executeAll_append]
  rfl

theorem prefix_output_execute (line : String) :
    w.output <+: ((shell.execute line).run w).2.output :=
  Routine.prefix_output_run _ w

/-- What the lines put out stands behind what was there. -/
theorem output_executeAll (number : Nat) :
    (shell.executeAll lines w).2.output =
      w.output ++ (shell.transcript number lines w).map (·.2) := by
  induction lines generalizing number w with
  | nil => simp [executeAll, transcript]
  | cons line lines ih =>
      have hfirst : ((shell.execute line).run w).2.output =
          w.output ++ ((shell.execute line).run w).2.outputSince w :=
        World.output_eq (prefix_output_execute w line)
      have hrest := ih ((shell.execute line).run w).2 (number + 1)
      rw [executeAll, transcript]
      dsimp only
      rw [hrest, hfirst]
      simp [Function.comp_def]

/-- A blank line has the empty outcome. -/
theorem getElem?_executeAll_blank {number : Nat} (hline : lines[number]? = some line)
    (hblank : Line.parse line = none) : (shell.executeAll lines w).1[number]? = some .empty := by
  induction lines generalizing number w with
  | nil => cases hline
  | cons first lines ih =>
      cases number with
      | zero =>
          rw [List.getElem?_cons_zero, Option.some.injEq] at hline
          subst hline
          rw [executeAll, execute_blank w hblank]
          rfl
      | succ number => exact ih _ hline

theorem transcript_append (number : Nat) :
    shell.transcript number (lines ++ later) w =
      shell.transcript number lines w ++
        shell.transcript (number + lines.length) later (shell.executeAll lines w).2 := by
  induction lines generalizing number w with
  | nil => rfl
  | cons line lines ih =>
      have hnumber : number + 1 + lines.length = number + (lines.length + 1) := by omega
      simp [transcript, executeAll, ih, hnumber]

theorem transcript_concat (line : String) :
    shell.transcript 0 (lines ++ [line]) w =
      shell.transcript 0 lines w ++
        (((shell.execute line).run (shell.executeAll lines w).2).2.outputSince
          (shell.executeAll lines w).2).map fun output => (lines.length, output) := by
  rw [transcript_append, Nat.zero_add]
  simp [transcript]

/-- A blank line puts nothing out. -/
theorem transcript_concat_blank (hblank : Line.parse line = none) :
    shell.transcript 0 (lines ++ [line]) w = shell.transcript 0 lines w := by
  rw [transcript_concat, execute_blank _ hblank, World.outputSince, List.drop_length]
  exact List.append_nil _

theorem work_blank (hblank : Line.parse line = none) :
    shell.work (line :: lines) w = shell.work lines w := by
  rw [work, if_pos hblank, execute_blank w hblank, Nat.zero_add]

theorem work_of_parse {invocation : Invocation} (hline : Line.parse line = some invocation) :
    shell.work (line :: lines) w =
      (shell.execute line).effort w + 2 + shell.work lines ((shell.execute line).run w).2 := by
  rw [work, if_neg (by simp [hline])]

end Lines

end Shell
end VirtualShell
