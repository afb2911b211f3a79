import VirtualShell.CommandLine
import VirtualShell.Host.Disk
import VirtualShell.Log.Setup
import VirtualShell.Settings.Load
import VirtualShell.Shell.Interactive

/-!
# The program

A run of the program loads the settings, sets up the log, opens the store and starts a shell on it.
The shell then runs the one line that was given with the command, or all lines of its input. What a
run puts out goes to the standard streams and to the file of the log.
-/

namespace VirtualShell
namespace Program

open CommandLine (Options)

/-- Why a run fails. -/
inductive Fault where
  | settings (fault : Settings.Fault)
  | log (fault : Log.SetupFault)
  | directories (fault : Directories.Fault)
  | store (error : StorageError)
  | input (error : InputError)

/-- What was being done, what went wrong, and what lies under it. -/
def Fault.causes : Fault → List String
  | .settings fault => ["Failed to load configuration", fault.message]
  | .log fault => ["Failed to initialize logging", fault.message]
  | .directories fault => ["Error initializing filesystem", fault.message]
  | .store error => ["Error initializing filesystem", error.message] ++ error.cause?.toList
  | .input error => [error.message, error.cause]

/-- The line about a failure. -/
def Fault.line (fault : Fault) : String :=
  "Error: " ++ String.intercalate ": " fault.causes

/-! ### Starting -/

/-- A shell that was started, and the world it works on. -/
structure Running where
  shell : Shell
  world : World

/-- What came of a start: the log, the directory of the store if it is a durable one, what was put
out, and the shell or what went wrong. -/
structure Launch where
  logger : Log.Logger
  storePath : Option String
  output : List Output
  result : Except Fault Running

/-- The start that ended before a store was opened. -/
def Launch.failed (logger : Log.Logger) (fault : Fault) : Launch :=
  ⟨logger, none, [], .error fault⟩

/-- A store that was opened, its directory if it is a durable one, and the report of it. -/
structure OpenedStore where
  store : Store
  path : Option String
  event : Log.Event

/-- The shell that some settings make. -/
def shellOf (s : Settings) : Shell where
  registry := Registry.builtins
  palette := ⟨s.shell.color⟩
  options := s.storage.sessionOptions
  user := s.shell.user
  host := s.shell.host

/-- Opens the store, and reports which one. -/
def openStore (o : Options) (s : Settings) (place : Surroundings) :
    HostTask (Except Fault OpenedStore) := do
  if o.ephemeral then
    return .ok ⟨.memory .empty, none,
      Log.Source.host.event .info "Using in-memory node store" []⟩
  else
    match s.storage.directory place with
    | .error fault => return .error (.directories fault)
    | .ok path =>
      match ← HostTask.openStore path with
      | .error e => return .error (.store e)
      | .ok store =>
        return .ok ⟨.durable store, some path,
          Log.Source.durableStore.event .info "Opened node store"
            [("path", .text path), ("nodes", .count store.entries.size)]⟩

/-- Starts a shell on a store. -/
def startShell (s : Settings) (logger : Log.Logger) (opened : OpenedStore) (now : Timestamp) :
    Launch :=
  let shell := shellOf s
  let start : World := ⟨opened.store, Path.root, now, [.event opened.event]⟩
  match Action.run (shell.start s.shell.bootstrap) start with
  | (.error e, w) => ⟨logger, opened.path, w.output, .error (.store e)⟩
  | (.ok (), w) => ⟨logger, opened.path, w.output, .ok ⟨shell, { w with output := [] }⟩⟩

/-- The settings, with what the options set. -/
def loadSettings (o : Options) (place : Surroundings) :
    HostTask (Except Settings.Fault Settings) := do
  return (← Settings.load place o.config).map o.override

/-- Does all that comes before the first line. -/
def launch (o : Options) (place : Surroundings) (now : Timestamp) : HostTask Launch := do
  match ← loadSettings o place with
  | .error fault => return .failed .silent (.settings fault)
  | .ok s =>
    match ← Log.setup s.logging place false with
    | .error fault => return .failed .silent (.log fault)
    | .ok logger =>
      match ← openStore o s place with
      | .error fault => return .failed logger fault
      | .ok opened => return startShell s logger opened now

/-! ### Where output goes -/

/-- The ways out of the program. -/
inductive Channel where
  | stdout
  | stderr
  | log
  deriving DecidableEq, Repr

/-- What clears a terminal and puts its cursor at the top. -/
def clearScreen : String := "\x1b[2J\x1b[H"

/-- The texts that an output is, and where they go. An event is logged at some time. -/
def emissions (logger : Log.Logger) (time : String) : Output → List (Channel × String)
  | .text s => [(.stdout, s)]
  | .clear => [(.stdout, clearScreen)]
  | .event e =>
    if logger.filter.admits e then
      let line := logger.format.line time e
      (if logger.file.isSome then [(.log, line)] else []) ++
        (if logger.stdout then [(.stdout, line)] else []) ++
        (if logger.stderr then [(.stderr, line)] else [])
    else []

/-- All that goes one way. -/
def onChannel (channel : Channel) (emitted : List (Channel × String)) : String :=
  String.join ((emitted.filter (·.1 = channel)).map (·.2))

/-! ### A whole run -/

/-- What a run shows. -/
structure Report where
  code : Nat
  stdout : String
  stderr : String
  deriving DecidableEq, Repr

/-- The lines that a shell is given, and how it ends: the exit code, or what went wrong. -/
def Running.work (r : Running) (command : Option String) (input : List UInt8) :
    Except Fault Nat × World :=
  match command with
  | some line =>
    let (outcome, w) := (r.shell.execute line).run r.world
    (.ok outcome.exitCode, w)
  | none =>
    match (Interactive.run r.shell input).run r.world with
    | (.ok (), w) => (.ok 0, w)
    | (.error e, w) => (.error (.input e), w)

/-- Some lines with their ends. -/
def endedLines (lines : List String) : String :=
  String.join (lines.map (· ++ "\n"))

/-- What a run shows that ended in some way, and the disk with what went to the log. -/
def conclude (disk : Disk) (logger : Log.Logger) (time : String) (output : List Output)
    (ending : Except Fault Nat) : Report × Disk :=
  let emitted := output.flatMap (emissions logger time)
  let written := onChannel .log emitted
  let disk := match logger.file with
    | some path => disk.append path written
    | none => disk
  let complaint := match ending with
    | .ok _ => ""
    | .error fault => fault.line ++ "\n"
  let code := match ending with
    | .ok code => code
    | .error _ => 1
  (⟨code, onChannel .stdout emitted,
    endedLines disk.warnings ++ onChannel .stderr emitted ++ complaint⟩, disk)

/-- The disk with what the store of a world holds, if it is a durable one. -/
def keep (disk : Disk) (path : Option String) (store : Store) : Disk :=
  match path, store with
  | some path, .durable s => disk.keepStore path s
  | _, _ => disk

/-- Runs the program with some arguments on a disk. The clock stands still, and lines of the log
show the time as a given text. -/
def run (disk : Disk) (environment : Environment) (systemHome : Option String)
    (arguments : List String) (input : List UInt8) (now : Timestamp) (time : String) :
    Report × Disk :=
  let disk := { disk with warnings := [] }
  match CommandLine.read arguments with
  | .error .help => (⟨0, CommandLine.Refusal.help.message ++ "\n", ""⟩, disk)
  | .error refusal => (⟨refusal.exitCode, "", refusal.message ++ "\n"⟩, disk)
  | .ok o =>
    let place : Surroundings :=
      ⟨environment, systemHome, NativePath.ofComponents true disk.workingDirectory⟩
    let (launched, disk) := (launch o place now).run Disk.answer disk
    match launched.result with
    | .error fault => conclude disk launched.logger time launched.output (.error fault)
    | .ok running =>
      let (ending, w) := running.work o.command input
      conclude (keep disk launched.storePath w.store) launched.logger time (launched.output ++ w.output) ending

end Program
end VirtualShell
