import VirtualShell.Shell.Command
import VirtualShell.SortedMap

/-!
# Names of commands

A registry says which command a name stands for. A command is registered under its own name, and
other names can be given to what is there already.
-/

namespace VirtualShell

/-- Commands by name. -/
abbrev Registry := SortedMap String Command

namespace Registry

/-- The registry with a command under its own name. -/
def register (r : Registry) (command : Command) : Registry :=
  r.insert command.name command

/-- The registry in which `name` stands for what `target` stands for, if that is anything. -/
def nameAs (r : Registry) (name target : String) : Registry :=
  match r.find? target with
  | some command => r.insert name command
  | none => r

/-- All commands, and `dir` for `ls`. -/
def builtins : Registry :=
  Registry.nameAs (Command.all.foldl Registry.register .empty) "dir" "ls"

end Registry
end VirtualShell
