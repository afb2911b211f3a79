import VirtualShell.Seed
import VirtualShell.Shell.Line
import VirtualShell.Shell.Registry

/-!
# Running command lines

A line is split, its command is looked up and run, and whatever the store refuses is told to the
user. A blank line does nothing at all.
-/

namespace VirtualShell

/-- What became of a line. -/
inductive Outcome where
  | empty
  | success
  | failure
  | unknownCommand
  | storageFailure
  deriving DecidableEq, Repr

/-- The exit code for an outcome. -/
def Outcome.exitCode : Outcome → Nat
  | .empty | .success => 0
  | .failure | .unknownCommand | .storageFailure => 1

/-- What is set for a shell: its commands, its colours, its session and the names in its prompt. -/
structure Shell where
  registry : Registry
  palette : Palette
  options : SessionOptions
  user : String
  host : String

namespace Shell

/-- Reports an event of the shell. -/
def report (level : Log.Level) (message : String) (fields : List (String × Log.Value)) :
    Routine Unit :=
  Routine.report .shell level message fields

/-- Runs an invocation. -/
def perform (shell : Shell) (invocation : Invocation) : Routine Outcome :=
  match shell.registry.find? invocation.name with
  | none => do
    report .debug "Unknown command" [("command", .text invocation.name)]
    Routine.writeError shell.palette ("Command not found: " ++ invocation.name)
    Routine.writeLine "Type 'help' for available commands"
    return .unknownCommand
  | some command => do
    report .debug "Executing"
      [("command", .text invocation.name), ("args", .text (Text.quotedList invocation.args))]
    match ← ExceptT.run (command.run shell.palette shell.options invocation.args) with
    | .ok .success => return .success
    | .ok .failure => return .failure
    | .error e =>
      report .error "Command failed with storage error"
        [("command", .text invocation.name), ("error", .text e.message)]
      Routine.writeError shell.palette
        (invocation.name ++ ": storage failure: " ++ e.message)
      return .storageFailure

/-- Runs a line. -/
def execute (shell : Shell) (line : String) : Routine Outcome :=
  match Line.parse line with
  | none => return .empty
  | some invocation => shell.perform invocation

/-- The text before the user's input. -/
def promptText (shell : Shell) (cwd : String) : String :=
  shell.palette.paint .file (shell.user ++ "@" ++ shell.host) ++ ":" ++
    shell.palette.paint .directory cwd ++ "$ "

/-- The prompt for the working directory. -/
def prompt (shell : Shell) : Routine String := do
  return shell.promptText (← Routine.ofCall .cursor)

/-- Starts on a store, with the first tree if it is wanted and the store is empty. -/
def start (shell : Shell) (seeded : Bool) : Action Unit :=
  if seeded then do
    discard (Seed.mount shell.options)
  else Session.mount shell.options

end Shell
end VirtualShell
