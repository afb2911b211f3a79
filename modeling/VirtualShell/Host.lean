import VirtualShell.Store.Change
import VirtualShell.Store.Durable

/-!
# What the program asks of its machine

Before a session starts, the program looks for files, sets up its log and opens its store. What it
does for this is a host task: a finite tree of calls, each of which waits for its answer.
-/

namespace VirtualShell

/-- A call on the machine. -/
inductive HostCall where
  /-- Whether there is a file under a path. -/
  | isFile (path : String)
  /-- The bytes of a file. -/
  | content (path : String)
  /-- Makes a directory and those above it, as far as they are missing. -/
  | createDirectories (path : String)
  /-- Makes a file if there is none, to append to it. -/
  | openLog (path : String)
  /-- Makes a directory for a store if there is none, and takes what it holds. -/
  | openStore (path : String)
  /-- Writes a line for the user that is no output of the program. -/
  | warn (line : String)
  deriving DecidableEq, Repr

/-- The type of the answer to a call. -/
def HostCall.Answer : HostCall → Type
  | .isFile _ => Bool
  | .content _ => Except SystemError (List UInt8)
  | .createDirectories _ => Except SystemError Unit
  | .openLog _ => Except SystemError Unit
  | .openStore _ => Except StorageError DurableStore
  | .warn _ => Unit

/-- A task that ends with a value. -/
inductive HostTask (α : Type) where
  | done (value : α)
  | call (c : HostCall) (next : c.Answer → HostTask α)

namespace HostTask

/-- Goes on with another task. -/
def bind {α β : Type} : HostTask α → (α → HostTask β) → HostTask β
  | .done value, f => f value
  | .call c next, f => .call c fun answer => (next answer).bind f

instance : Monad HostTask where
  pure := .done
  bind := .bind

/-- The task that makes one call. -/
def ofCall (c : HostCall) : HostTask c.Answer :=
  .call c .done

/-- Whether there is a file under a path. -/
def isFile (path : String) : HostTask Bool :=
  ofCall (.isFile path)

/-- The bytes of a file. -/
def content (path : String) : HostTask (Except SystemError (List UInt8)) :=
  ofCall (.content path)

/-- Makes a directory and those above it. -/
def createDirectories (path : String) : HostTask (Except SystemError Unit) :=
  ofCall (.createDirectories path)

/-- Makes a file if there is none, to append to it. -/
def openLog (path : String) : HostTask (Except SystemError Unit) :=
  ofCall (.openLog path)

/-- Opens the store in a directory. -/
def openStore (path : String) : HostTask (Except StorageError DurableStore) :=
  ofCall (.openStore path)

/-- Writes some lines for the user. -/
def warn : List String → HostTask Unit
  | [] => .done ()
  | line :: rest => .call (.warn line) fun _ => warn rest

/-- Runs a task to its end on a machine, which may change with each call. -/
def run {α μ : Type} (answer : μ → (c : HostCall) → c.Answer × μ) : HostTask α → μ → α × μ
  | .done value, m => (value, m)
  | .call c next, m => (next (answer m c).1).run answer (answer m c).2

end HostTask
end VirtualShell
