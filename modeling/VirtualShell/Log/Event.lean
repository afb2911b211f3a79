import VirtualShell.Text.Quoted

/-!
# Log events

An event is something that happened, with the part of the program it happened in and the values
that belong to it. How much an event weighs decides whether anybody reads it.
-/

namespace VirtualShell
namespace Log

/-- How much an event weighs, from the heaviest to the lightest. -/
inductive Level where
  | error
  | warn
  | info
  | debug
  | trace
  deriving DecidableEq, Repr

/-- The number of levels at least as heavy. -/
def Level.rank : Level → Nat
  | .error => 1
  | .warn => 2
  | .info => 3
  | .debug => 4
  | .trace => 5

/-- The name of a level. -/
def Level.name : Level → String
  | .error => "ERROR"
  | .warn => "WARN"
  | .info => "INFO"
  | .debug => "DEBUG"
  | .trace => "TRACE"

/-- A value that belongs to an event. -/
inductive Value where
  | count (n : Nat)
  | text (s : String)
  deriving DecidableEq, Repr

/-- Something that happened. -/
structure Event where
  level : Level
  target : String
  message : String
  fields : List (String × Value)
  deriving DecidableEq, Repr

/-- The parts of the program that report events. -/
inductive Source where
  | durableStore
  | session
  | seed
  | shell
  | host
  deriving DecidableEq, Repr

/-- The target under which a part of the program reports. -/
def Source.target : Source → String
  | .durableStore => "termiweb::store::persistence"
  | .session => "termiweb::vfs"
  | .seed => "termiweb::vfs::bootstrap"
  | .shell => "termiweb::shell"
  | .host => "termiweb::tooling::cli"

/-- An event of a part of the program. -/
def Source.event (source : Source) (level : Level) (message : String)
    (fields : List (String × Value)) : Event :=
  ⟨level, source.target, message, fields⟩

end Log
end VirtualShell
