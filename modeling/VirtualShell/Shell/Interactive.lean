import VirtualShell.Shell.Dispatcher
import VirtualShell.Text.Utf8

/-!
# The interactive loop

Prompt, read a line, run it, until a line says `exit` or there are no more. Lines come as bytes;
one that is no text ends the loop with an error.
-/

namespace VirtualShell

/-- Why a shell stopped before the end of its input. -/
inductive InputError where
  | notText (fault : Text.Utf8.Fault)
  deriving DecidableEq, Repr

/-- What the system says of an input error. -/
def InputError.cause : InputError → String
  | .notText fault => fault.message

/-- The words for an input error. -/
def InputError.message (e : InputError) : String :=
  "input error: " ++ e.cause

namespace Interactive

/-- The bytes up to each line feed and including it, and those after the last one if there are
any. -/
def rawLines : List UInt8 → List (List UInt8)
  | [] => []
  | b :: rest =>
    if b = 0x0A then [b] :: rawLines rest
    else
      match rawLines rest with
      | [] => [[b]]
      | line :: lines => (b :: line) :: lines

/-- The bytes without the line feed at the end and one carriage return before it. -/
def dropLineEnd (raw : List UInt8) : List UInt8 :=
  match raw.reverse with
  | 0x0A :: 0x0D :: rest => rest.reverse
  | 0x0A :: rest => rest.reverse
  | _ => raw

/-- The text of a line, whose end does not belong to it. So a character that the end of its line
cuts off is an unfinished one. -/
def lineText (raw : List UInt8) : Except InputError String :=
  (Text.Utf8.decode (dropLineEnd raw)).mapError .notText

/-- Whether a loop goes on after a line, or why it does not. -/
inductive Continuation where
  | more
  | finished (result : Except InputError Unit)

/-- Writes the prompt. -/
def showPrompt (shell : Shell) : Routine Unit := do
  Routine.write (← shell.prompt)

/-- Reports the end of the loop. -/
def farewell : Routine Unit :=
  Routine.report .host .info "Shell session ended" []

/-- Does what a line asks for. -/
def handle (shell : Shell) (raw : List UInt8) : Routine Continuation :=
  match lineText raw with
  | .error e => return .finished (.error e)
  | .ok line =>
    if Text.trim line = "exit" then do
      farewell
      return .finished (.ok ())
    else do
      discard (shell.execute line)
      return .more

/-- Does what is to be done when there are no more lines. -/
def endOfInput : Routine Unit := do
  Routine.write lineEnd
  farewell

/-- The loop over the lines of an input. -/
def loop (shell : Shell) : List (List UInt8) → Routine (Except InputError Unit)
  | [] => do
    showPrompt shell
    endOfInput
    return .ok ()
  | raw :: rest => do
    showPrompt shell
    match ← handle shell raw with
    | .finished result => return result
    | .more => loop shell rest

/-- The loop over an input. -/
def run (shell : Shell) (input : List UInt8) : Routine (Except InputError Unit) :=
  loop shell (rawLines input)

end Interactive
end VirtualShell
