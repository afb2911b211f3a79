import VirtualShell.Environment
import VirtualShell.Host.NativePath

/-!
# Directories of the user

Data, configuration and state lie in directories that variables name. A variable counts only if it
holds a path from the root; otherwise a directory below the home directory takes its place. Where
there is no home directory there are none of these, whatever the variables hold.
-/

namespace VirtualShell

/-- What the program finds around it when it starts. -/
structure Surroundings where
  environment : Environment
  /-- The home directory that the system has for the user, if it has one. -/
  systemHome : Option String
  workingDirectory : String

/-- The first of some texts that is there and not empty. -/
def firstGiven (texts : List (Option String)) : Option String :=
  texts.findSome? (Option.filter (! ·.isEmpty))

namespace Directories

/-- Why there are no directories. -/
inductive Fault where
  | noHome
  deriving DecidableEq, Repr

/-- What is wrong, in words. -/
def Fault.reason : Fault → String
  | .noHome => "Could not determine platform directories (HOME not set)"

/-- The words for a fault. -/
def Fault.message (fault : Fault) : String :=
  "configuration error: " ++ fault.reason

/-- The name of the program among others. -/
def programName : String := "termiweb"

/-- The home directory. An empty text names none. -/
def home? (place : Surroundings) : Option String :=
  firstGiven [place.environment.value? "HOME", place.systemHome]

/-- The directory of the program below the one that a variable names, or else below `fallback` in
the home directory. -/
def named (place : Surroundings) (variableName fallback : String) : Except Fault String :=
  match home? place with
  | none => .error .noHome
  | some home =>
    let base := ((place.environment.value? variableName).filter NativePath.isAbsolute).getD
      (NativePath.join home fallback)
    .ok (NativePath.join base programName)

/-- The store that is used when none is set. -/
def store (place : Surroundings) : Except Fault String := do
  return NativePath.join (← named place "XDG_DATA_HOME" ".local/share") "store"

/-- The common configuration file, if there is a directory for it. -/
def configuration? (place : Surroundings) : Option String :=
  match named place "XDG_CONFIG_HOME" ".config" with
  | .ok directory => some (NativePath.join directory "config.toml")
  | .error _ => none

/-- The directory for what should outlive a run but is not the user's. -/
def state (place : Surroundings) : Except Fault String :=
  named place "XDG_STATE_HOME" ".local/state"

end Directories
end VirtualShell
