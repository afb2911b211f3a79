import VirtualShell.Shell.Dispatcher
import VirtualShell.Shell.Gate

/-!
# Lines that run at the same time

Several lines are started on one shell. Each waits at the gate before it touches anything and
keeps the gate until its command is over, so the calls of two commands never mix, in whatever order
the lines are resumed.
-/

namespace VirtualShell

/-- How far a line has come. -/
inductive Job where
  | unstarted (line : String)
  | waiting (invocation : Invocation)
  | running (routine : Routine Outcome)
  | finished (outcome : Outcome)

/-- The world behind a gate, and the lines by number. -/
structure Workshop where
  gate : Gate World
  jobs : List Job

namespace Workshop

/-- Lines that were not started yet. -/
def ofLines (w : World) (lines : List String) : Workshop where
  gate := .ofValue w
  jobs := lines.map .unstarted

/-- A line comes in if it may, and waits otherwise. -/
def approach (shell : Shell) (gate : Gate World) (number : Nat) (invocation : Invocation) :
    Gate World × Job :=
  if gate.admits number then (gate.comeIn, .running (shell.perform invocation))
  else (gate, .waiting invocation)

/-- One step of a line: it arrives at the gate, looks whether it may come in, makes one call, or
leaves. -/
def resumeJob (shell : Shell) (gate : Gate World) (number : Nat) : Job → Gate World × Job
  | .unstarted line =>
    match Line.parse line with
    | none => (gate, .finished .empty)
    | some invocation => approach shell (gate.arrive number) number invocation
  | .waiting invocation => approach shell gate number invocation
  | .running (.done outcome) => (gate.leave, .finished outcome)
  | .running routine =>
    let (routine, world) := routine.step gate.value
    ({ gate with value := world }, .running routine)
  | .finished outcome => (gate, .finished outcome)

/-- Puts what became of a line in its place. -/
def record (s : Workshop) (number : Nat) (result : Gate World × Job) : Workshop where
  gate := result.1
  jobs := s.jobs.set number result.2

/-- One step of the line with a number. -/
def resume (shell : Shell) (s : Workshop) (number : Nat) : Workshop :=
  match s.jobs[number]? with
  | none => s
  | some job => s.record number (resumeJob shell s.gate number job)

/-- One step for each number of a schedule. -/
def follow (shell : Shell) (s : Workshop) (schedule : List Nat) : Workshop :=
  schedule.foldl (resume shell) s

/-- Lets a line that is inside run to its end. -/
def completeJob (gate : Gate World) : Job → Gate World × Job
  | .running routine =>
    let (outcome, world) := routine.run gate.value
    ({ gate with value := world }.leave, .finished outcome)
  | job => (gate, job)

/-- Starts the line with a number and, if it gets in, lets it run to its end. -/
def complete (shell : Shell) (s : Workshop) (number : Nat) : Workshop :=
  let s := s.resume shell number
  match s.jobs[number]? with
  | none => s
  | some job => s.record number (completeJob s.gate job)

/-- Starts the lines in order, each of which runs to its end before the next one starts. -/
def completeAll (shell : Shell) (s : Workshop) : Workshop :=
  (List.range s.jobs.length).foldl (complete shell) s

/-- What became of the lines that are finished. -/
def outcomes (s : Workshop) : List Outcome :=
  s.jobs.filterMap fun
    | .finished outcome => some outcome
    | _ => none

end Workshop
end VirtualShell
