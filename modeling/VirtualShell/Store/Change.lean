import VirtualShell.Json.Fault
import VirtualShell.Node.Encoding

/-!
# Changes to a store, and how they fail
-/

namespace VirtualShell

/-- One change: a node is put under its path, or whatever is under a path is removed. -/
inductive Change where
  | put (node : Node)
  | remove (path : String)
  deriving DecidableEq, Repr

/-- What the system under a store, or under a log, can refuse. -/
inductive SystemError where
  | simulatedWriteFailure
  | notFound
  | alreadyExists
  | notADirectory
  | isADirectory
  | nameTooLong
  | nulInName
  | other (description : String)
  deriving DecidableEq, Repr

/-- The words for a system error. -/
def SystemError.message : SystemError → String
  | .simulatedWriteFailure => "simulated write failure"
  | .notFound => "No such file or directory (os error 2)"
  | .alreadyExists => "File exists (os error 17)"
  | .notADirectory => "Not a directory (os error 20)"
  | .isADirectory => "Is a directory (os error 21)"
  | .nameTooLong => "File name too long (os error 36)"
  | .nulInName => "file name contained an unexpected NUL byte"
  | .other description => description

/-- Why a store did not do what was asked of it. -/
inductive StorageError where
  | inUse
  | undecodable (fault : Json.Fault) (bytes : List UInt8)
  | system (cause : SystemError)
  | quotaExceeded (used quota : Nat)
  deriving DecidableEq, Repr

/-- What lies under a storage error, in words, if anything does. -/
def StorageError.cause? : StorageError → Option String
  | .inUse => some "the store is in use"
  | .undecodable fault bytes => some (fault.message bytes)
  | .system cause => some cause.message
  | .quotaExceeded _ _ => none

/-- The words for a storage error. -/
def StorageError.message : StorageError → String
  | .inUse => "database error: the store is in use"
  | .undecodable fault bytes => "record serialization failed: " ++ fault.message bytes
  | .system cause => "I/O error: " ++ cause.message
  | .quotaExceeded used quota => s!"storage quota exceeded: {used} of {quota} bytes used"

end VirtualShell
