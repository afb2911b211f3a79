import VirtualShell.Text.Class

/-!
# Command lines

A line is split at its blanks, without quotes or escapes. The first word names a command and the
others are its arguments.
-/

namespace VirtualShell

/-- A command by name, with its arguments. -/
structure Invocation where
  name : String
  args : List String
  deriving DecidableEq, Repr

namespace Line

/-- The parts of a line between its blanks, of which there may be several in a row. -/
def parts : List Char → List (List Char)
  | [] => [[]]
  | c :: cs =>
    if Text.isBlank c then [] :: parts cs
    else
      match parts cs with
      | [] => [[c]]
      | part :: rest => (c :: part) :: rest

/-- The words of a line: its longest stretches without blanks. -/
def words (line : String) : List String :=
  ((parts line.toList).filter fun part => !part.isEmpty).map String.ofList

/-- The invocation that a line is. A blank line is none. -/
def parse (line : String) : Option Invocation :=
  match words line with
  | [] => none
  | name :: args => some ⟨name, args⟩

end Line
end VirtualShell
