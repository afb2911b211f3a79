import VirtualShell.Session
import VirtualShell.Shell.ByteSize
import VirtualShell.Shell.Palette
import VirtualShell.Shell.Table

/-!
# Commands

What each command does with its arguments. A command ends well or with a failure it has told the
user of; what the store refuses is left to the caller.
-/

namespace VirtualShell

/-- What is written after every line. -/
def lineEnd : String := "\r\n"

namespace Routine

/-- Writes a text. -/
def write (s : String) : Routine Unit :=
  ofCall (.emit (.text s))

/-- Writes a line. -/
def writeLine (s : String) : Routine Unit := do
  write s
  write lineEnd

/-- Writes a line in the colour of errors. -/
def writeError (palette : Palette) (s : String) : Routine Unit :=
  writeLine (palette.paint .error s)

/-- Reports an event. -/
def report (source : Log.Source) (level : Log.Level) (message : String)
    (fields : List (String × Log.Value)) : Routine Unit :=
  ofCall (.emit (.event (source.event level message fields)))

end Routine

/-- The commands. -/
inductive Command where
  | help
  | ls
  | cd
  | pwd
  | cat
  | echo
  | clear
  | mkdir
  | touch
  | rm
  | neofetch
  | df
  deriving DecidableEq, Repr

/-- How a command ends. -/
inductive CommandStatus where
  | success
  | failure
  deriving DecidableEq, Repr

namespace Command

/-- All commands. -/
def all : List Command :=
  [.help, .ls, .cd, .pwd, .cat, .echo, .clear, .mkdir, .touch, .rm, .neofetch, .df]

/-- The name of a command. -/
def name : Command → String
  | .help => "help"
  | .ls => "ls"
  | .cd => "cd"
  | .pwd => "pwd"
  | .cat => "cat"
  | .echo => "echo"
  | .clear => "clear"
  | .mkdir => "mkdir"
  | .touch => "touch"
  | .rm => "rm"
  | .neofetch => "neofetch"
  | .df => "df"

/-- Lines of help: plain ones, and those in the colour of a role. -/
def helpLines (palette : Palette) : List String :=
  [palette.paint .file "Available Commands:",
    "",
    palette.paint .heading "File Operations:",
    "  ls, dir [dir]    List directory contents",
    "  cd [dir]         Change directory",
    "  pwd              Print working directory",
    "  cat <file>       Display file contents",
    "  mkdir <dir>      Create directory",
    "  touch <file>     Create empty file",
    "  rm <path>        Remove file/directory",
    "",
    palette.paint .heading "System:",
    "  neofetch         Display system information",
    "  df               Show storage usage",
    "  clear            Clear terminal",
    "  echo <text>      Display text",
    "  help             Show this message"]

/-- The picture beside the system information. -/
def logo : List String :=
  ["        .          ",
    "       .:.         ",
    "      .:::.        ",
    "  .....:::::.....  ",
    " ::::::::::::::::: ",
    " ::::::::::::::::: ",
    "  ':::::::::::::'  ",
    "    ':::::::'      ",
    "       ':'         "]

/-- The system information, a line for each of the picture. -/
def systemLines (palette : Palette) : List String :=
  [palette.paint .accent "user@termi-web",
    palette.paint .accent "-------------",
    palette.paint .heading "OS" ++ ": Termi-Web Linux",
    palette.paint .heading "Host" ++ ": Browser VM",
    palette.paint .heading "Kernel" ++ ": WebAssembly 5.4",
    palette.paint .heading "Uptime" ++ ": 0 days",
    palette.paint .heading "Packages" ++ ": 12",
    palette.paint .heading "Shell" ++ ": termi-sh 1.0",
    palette.paint .heading "Terminal" ++ ": xterm.js"]

/-- The lines of the system information beside the picture. -/
def pictureLines (palette : Palette) : List String :=
  List.zipWith (fun picture info => palette.paint .file picture ++ "    " ++ info) logo
    (systemLines palette)

/-- How an entry is shown in a listing. -/
def entryText (palette : Palette) (entry : Entry) : String :=
  match entry.kind with
  | .directory => palette.paint .directory (entry.name ++ "/")
  | .file => palette.paint .file entry.name

/-- The line that shows a directory's entries. -/
def listingText (palette : Palette) (entries : List Entry) : String :=
  if entries.isEmpty then "(empty directory)"
  else String.intercalate "    " (entries.map (entryText palette))

/-- The lines that show the use of the store. -/
def usageLines (usage : Usage) : List String :=
  Table.lines ["Filesystem", "Used", "Quota", "Use%"]
    [["termiweb", ByteSize.text usage.used, ByteSize.text usage.quota, s!"{usage.percent}%"]]

/-- Writes some lines. -/
def writeLines : List String → Routine Unit
  | [] => pure ()
  | line :: rest => do
    Routine.writeLine line
    writeLines rest

/-- Goes on with the only argument, or tells how the command is used. -/
def withOperand (palette : Palette) (usage : String) (args : List String)
    (next : String → Action CommandStatus) : Action CommandStatus :=
  match args with
  | [operand] => next operand
  | _ => do
    Routine.writeError palette ("Usage: " ++ usage)
    return .failure

/-- Ends well if something was done, and otherwise tells that it was not. -/
def doneOr (palette : Palette) (complaint : String) (done : Bool) : Action CommandStatus :=
  if done then return .success
  else do
    Routine.writeError palette complaint
    return .failure

/-- Runs a command. -/
def run (palette : Palette) (options : SessionOptions) (args : List String) :
    Command → Action CommandStatus
  | .help => do
    writeLines (helpLines palette)
    return .success
  | .ls => do
    let target := args.headD "."
    match ← Session.listDirectory target with
    | none =>
      Routine.writeError palette s!"ls: {target}: No such directory"
      return .failure
    | some entries =>
      Routine.writeLine (listingText palette entries)
      return .success
  | .cd => do
    let target := args.headD Path.root
    let changed ← Session.changeDirectory target
    if !changed then
      Routine.writeError palette s!"cd: {target}: No such directory"
    let cwd ← Action.cursor
    Routine.writeLine (palette.paint .heading ("Current directory: " ++ cwd))
    return if changed then .success else .failure
  | .pwd => do
    let cwd ← Action.cursor
    Routine.writeLine cwd
    return .success
  | .cat =>
    withOperand palette "cat <filename>" args fun path => do
      match ← Session.fileText path with
      | some content =>
        Routine.writeLine content
        return .success
      | none =>
        Routine.writeError palette s!"cat: {path}: No such file"
        return .failure
  | .echo => do
    Routine.writeLine (String.intercalate " " args)
    return .success
  | .clear => do
    Action.clear
    return .success
  | .mkdir =>
    withOperand palette "mkdir <directory>" args fun path => do
      doneOr palette s!"mkdir: cannot create directory '{path}'"
        (← Session.createDirectory options path)
  | .touch =>
    withOperand palette "touch <filename>" args fun path => do
      doneOr palette s!"touch: cannot create file '{path}'" (← Session.touch options path)
  | .rm =>
    withOperand palette "rm <file/directory>" args fun path => do
      doneOr palette s!"rm: cannot remove '{path}'" (← Session.delete options path)
  | .neofetch => do
    writeLines (pictureLines palette)
    return .success
  | .df => do
    writeLines (usageLines (← Session.usage options))
    return .success

end Command
end VirtualShell
