import Std.Time.DateTime.Timestamp
import VirtualShell.Log.Clock
import VirtualShell.Program
import VirtualShell.Store.Image

/-!
# The command

Everything that is done here is done elsewhere first: this module carries out the calls of host
tasks, passes lines of the standard input on one by one, and writes what comes of them.
-/

namespace VirtualShell
namespace Console

open Program (Launch Running Fault)

/-! ### The machine -/

/-- What the system said, as a cause of a failure. -/
def systemError (e : IO.Error) : SystemError :=
  match e with
  | .noFileOrDirectory .. => .notFound
  | .alreadyExists .. => .alreadyExists
  | .inappropriateType _ code _ => if code = 21 then .isADirectory else .notADirectory
  | .invalidArgument _ 36 _ => .nameTooLong
  | e => .other e.toString

/-- Does something that the system may refuse. -/
def attempt {α : Type} (act : IO α) : IO (Except SystemError α) := do
  try return .ok (← act) catch e => return .error (systemError e)

/-- Whether there is a file under a path. -/
def isFile (path : String) : IO Bool := do
  try
    let place := (← IO.currentDir) / path
    return (← place.metadata).type == .file
  catch _ => return false

/-- The bytes of a file. -/
def content (path : String) : IO (List UInt8) := do
  return (← IO.FS.readBinFile path).toList

/-- Whether there is a directory under a path. -/
def isDirectory (path : String) : IO Bool := do
  let place := (← IO.currentDir) / path
  place.isDir

/-- Makes a directory unless it is there. -/
def ensureDirectory (path : String) : IO Unit := do
  try IO.FS.createDir path
  catch e =>
    match e with
    | .noFileOrDirectory .. => throw e
    | _ => unless ← isDirectory path do throw e

/-- Makes a directory whose parents are given, and first those of them that are missing. A path
without parents is there. -/
def createDirectories (path : String) : List String → IO Unit
  | [] => pure ()
  | above :: further => do
    try ensureDirectory path
    catch e =>
      match e with
      | .noFileOrDirectory .. =>
        createDirectories above further
        ensureDirectory path
      | _ => throw e

/-- The home directory that the system has for the user, if it has one: the sixth field of the
user's line among those of all accounts. -/
def systemHome : IO (Option String) := do
  try
    let status := Text.Utf8.decodeLossy (← content "/proc/self/status")
    let accounts := Text.Utf8.decodeLossy (← content "/etc/passwd")
    let user? := (status.splitOn "\n").findSome? fun line =>
      match line.splitOn "\t" with
      | "Uid:" :: user :: _ => some user
      | _ => none
    return (accounts.splitOn "\n").findSome? fun line =>
      match line.splitOn ":" with
      | [_, _, user, _, _, home, _] => if user? = some user then some home else none
      | _ => none
  catch _ => return none

/-- The file in the directory of a store that its entries are kept in. -/
def imagePath (directory : String) : String :=
  NativePath.join directory "nodes"

/-- The file in the directory of a store by which it is seen to be in use. -/
def lockPath (directory : String) : String :=
  NativePath.join directory "lock"

/-- Takes what a store holds, unless the store is in use. The lock is kept with the others. -/
def openStore (locks : IO.Ref (List IO.FS.Handle)) (directory : String) :
    IO (Except StorageError DurableStore) := do
  try
    createDirectories directory (NativePath.parents directory)
    let lock ← IO.FS.Handle.mk (lockPath directory) .append
    if ← lock.tryLock then
      locks.modify (lock :: ·)
      if ← isFile (imagePath directory) then
        return .ok (.ofImage (← content (imagePath directory)))
      else return .ok .empty
    else return .error .inUse
  catch e => return .error (.system (systemError e))

/-- Keeps what a store holds: the new file is complete before it takes the place of the old one. -/
def keepStore (directory : String) (store : DurableStore) : IO Unit := do
  let draft := imagePath directory ++ ".new"
  IO.FS.writeBinFile draft ⟨store.image.toArray⟩
  IO.FS.rename draft (imagePath directory)

/-- Appends a text to a file. -/
def appendTo (path s : String) : IO Unit := do
  let handle ← IO.FS.Handle.mk path .append
  handle.putStr s
  handle.flush

/-- Carries out a call. -/
def answer (locks : IO.Ref (List IO.FS.Handle)) : (c : HostCall) → IO c.Answer
  | .isFile path => isFile path
  | .content path => attempt (content path)
  | .createDirectories path => attempt (createDirectories path (NativePath.parents path))
  | .openLog path => attempt (appendTo path "")
  | .openStore path => openStore locks path
  | .warn line => do (← IO.getStderr).putStrLn line

/-- Carries out a task. -/
def perform {α : Type} (locks : IO.Ref (List IO.FS.Handle)) : HostTask α → IO α
  | .done value => return value
  | .call c next => do perform locks (next (← answer locks c))

/-! ### Output -/

/-- The time, in nanoseconds since the start of 1970. -/
def nanoseconds : IO Nat := do
  return (← Std.Time.Timestamp.now).toNanosecondsSinceUnixEpoch.val.toNat

/-- The time, in milliseconds since the start of 1970. -/
def milliseconds : IO Timestamp := do
  return Int64.ofNat ((← nanoseconds) / 1000000)

/-- Writes a text to where it goes. -/
def emit (log : Option String) (emission : Program.Channel × String) : IO Unit :=
  match emission.1 with
  | .stdout => do
    let out ← IO.getStdout
    out.putStr emission.2
    out.flush
  | .stderr => do (← IO.getStderr).putStr emission.2
  | .log =>
    match log with
    | some path => appendTo path emission.2
    | none => pure ()

/-- Writes what was put out. -/
def present (logger : Log.Logger) (output : List Output) : IO Unit := do
  let time := Log.timeText (← nanoseconds)
  for o in output do
    for emission in Program.emissions logger time o do
      emit logger.file emission

/-- Tells of a failure, and gives its exit code. -/
def complain (fault : Fault) : IO UInt32 := do
  (← IO.getStderr).putStrLn fault.line
  return 1

/-! ### The shell -/

/-- A shell at work: its log, the directory of its store if that is a durable one, the shell, and
the world after all that was presented. -/
structure Desk where
  logger : Log.Logger
  storePath : Option String
  shell : Shell
  world : World

/-- Runs a routine at the time it is now, keeps what it changed, and presents what it put out. -/
def Desk.run {α : Type} (desk : Desk) (routine : Routine α) : IO (α × Desk) := do
  let (value, w) := routine.run { desk.world with now := ← milliseconds }
  match desk.storePath, desk.world.store, w.store with
  | some path, .durable old, .durable new =>
    if old.entries.entries ≠ new.entries.entries then keepStore path new
  | _, _, _ => pure ()
  present desk.logger w.output
  return (value, { desk with world := { w with output := [] } })

/-- The bytes of the next line, with its end if it has one, and the bytes read after it. There are
none at the end of the input. -/
partial def readLine (input : IO.FS.Stream) (ahead : List UInt8) :
    IO (List UInt8 × List UInt8) := do
  match ahead.span (· != 0x0A) with
  | (line, lineFeed :: rest) => return (line ++ [lineFeed], rest)
  | (line, []) =>
    let more ← input.read 4096
    if more.isEmpty then return (line, [])
    else readLine input (line ++ more.toList)

/-- Prompts, reads and runs lines until there is no more to do. -/
partial def Desk.serve (desk : Desk) (input : IO.FS.Stream) (ahead : List UInt8) : IO UInt32 := do
  let ((), desk) ← desk.run (Interactive.showPrompt desk.shell)
  let (raw, ahead) ← readLine input ahead
  if raw.isEmpty then
    let ((), _) ← desk.run Interactive.endOfInput
    return 0
  else
    let (continuation, desk) ← desk.run (Interactive.handle desk.shell raw)
    match continuation with
    | .more => desk.serve input ahead
    | .finished (.ok ()) => return 0
    | .finished (.error e) => complain (.input e)

/-- Does what there is to do after a start. -/
def proceed (launched : Launch) (command : Option String) : IO UInt32 := do
  match launched.result with
  | .error fault =>
    present launched.logger launched.output
    complain fault
  | .ok running =>
    match launched.storePath, running.world.store with
    | some path, .durable store => keepStore path store
    | _, _ => pure ()
    present launched.logger launched.output
    let desk : Desk := ⟨launched.logger, launched.storePath, running.shell, running.world⟩
    match command with
    | some line =>
      let (outcome, _) ← desk.run (desk.shell.execute line)
      return outcome.exitCode.toUInt32
    | none => desk.serve (← IO.getStdin) []

/-- Runs the program. -/
def start (arguments : List String) : IO UInt32 := do
  match CommandLine.read arguments with
  | .error .help =>
    IO.println CommandLine.Refusal.help.message
    return 0
  | .error refusal =>
    (← IO.getStderr).putStrLn refusal.message
    return refusal.exitCode.toUInt32
  | .ok o =>
    let environment := Environment.ofBlock (← content "/proc/self/environ")
    let place : Surroundings := ⟨environment, ← systemHome, (← IO.currentDir).toString⟩
    let locks ← IO.mkRef []
    proceed (← perform locks (Program.launch o place (← milliseconds))) o.command

end Console
end VirtualShell

/-- The command. -/
def main (arguments : List String) : IO UInt32 :=
  VirtualShell.Console.start arguments
