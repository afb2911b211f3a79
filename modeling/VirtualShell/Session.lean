import VirtualShell.Routine

/-!
# Sessions

A session works on the tree of directories and files that a store holds, from a working directory
of its own. Missing paths, wrong kinds of nodes and malformed paths are answers, not errors; only
the store itself fails. Every change is one commit, made after all that can be refused was looked
at.
-/

namespace VirtualShell

/-- What is set for a session: the bytes its store may come to use, and whether it waits after
each change until the change is kept for good. -/
structure SessionOptions where
  quotaBytes : Nat
  flushOnWrite : Bool
  deriving DecidableEq, Repr

/-- The quota when none is set: fifty megabytes. -/
def defaultQuotaBytes : Nat := 50 * 1024 * 1024

/-- Bytes used and bytes allowed. -/
structure Usage where
  used : Nat
  quota : Nat
  deriving DecidableEq, Repr

/-- The whole percentage of the quota that is used. Without a quota it is zero. -/
def Usage.percent (u : Usage) : Nat :=
  if u.quota = 0 then 0 else u.used * 100 / u.quota

namespace Session

open Log (Level)

/-- Reports an event of the session. -/
def report (level : Level) (message : String) (fields : List (String × Log.Value)) :
    Action Unit :=
  Action.log (Log.Source.session.event level message fields)

/-- The canonical path that a text means here, if it means one. -/
def resolve (raw : String) : Action (Option String) := do
  match Path.resolve raw (← Action.cursor) with
  | .ok path => return some path
  | .error e =>
    report .debug "Rejected path" [("error", .text e.message)]
    return none

/-- Waits for earlier changes if the session is set to. -/
def flushIfWanted (options : SessionOptions) : Action Unit :=
  if options.flushOnWrite then Action.flush else pure ()

/-- Starts on a store, which gets a root directory if it has none. -/
def mount (options : SessionOptions) : Action Unit := do
  if (← Action.get Path.root).isNone then
    Action.commit [.put (.emptyDirectory Path.root Path.root)]
    flushIfWanted options
    report .debug "Created root directory" []

/-- Whether anything is stored under a path. -/
def pathExists (raw : String) : Action Bool := do
  match ← resolve raw with
  | none => return false
  | some path => return (← Action.get path).isSome

/-- The entries of a directory for the names of its children. Names under which nothing is stored
are reported and left out. -/
def entries (directory : String) : List String → Action (List Entry)
  | [] => return []
  | name :: rest => do
    let path := Path.join directory name
    match ← Action.get path with
    | some node => return ⟨name, node.kind⟩ :: (← entries directory rest)
    | none =>
      report .warn "Directory lists a missing child, skipping" [("path", .text path)]
      entries directory rest

/-- The entries of a directory in the order they were added. -/
def listDirectory (raw : String) : Action (Option (List Entry)) := do
  match ← resolve raw with
  | none => return none
  | some path =>
    match ← Action.get path with
    | some (.directory _ _ children) => return some (← entries path children)
    | _ => return none

/-- Makes a directory the working directory. -/
def changeDirectory (raw : String) : Action Bool := do
  match ← resolve raw with
  | none => return false
  | some path =>
    match ← Action.get path with
    | some (.directory _ _ _) =>
      report .debug "Changed directory"
        [("from", .text (← Action.cursor)), ("to", .text path)]
      Action.moveCursor path
      return true
    | _ => return false

/-- The content of a file. -/
def fileText (raw : String) : Action (Option String) := do
  match ← resolve raw with
  | none => return none
  | some path =>
    match ← Action.get path with
    | some (.file _ content _ _) => return some content
    | _ => return none

/-- Refuses a node whose stored text would take the store past the quota. -/
def checkQuota (options : SessionOptions) (node : Node) : Action Unit := do
  let incoming := node.encode.utf8ByteSize
  let used ← Action.usage
  if options.quotaBytes < used + incoming then
    report .warn "Storage quota exceeded"
      [("used", .count used), ("incoming", .count incoming),
        ("quota", .count options.quotaBytes)]
    throw (.quotaExceeded used options.quotaBytes)

/-- The changes that put a node into a directory. The directory is written only if it does not
list the name yet. -/
def insertion (node : Node) (name : String) (parentPath parentName : String)
    (children : List String) : List Change :=
  if children.contains name then [.put node]
  else [.put node, .put (.directory parentPath parentName (children ++ [name]))]

/-- Puts a node under a path and into the directory above it, if there is one. -/
def insert (options : SessionOptions) (path : String) (node : Node) : Action Bool := do
  match Path.parent? path with
  | none => return false
  | some parent =>
    match ← Action.get parent with
    | some (.directory parentPath parentName children) =>
      checkQuota options node
      Action.commit (insertion node (Path.name path) parentPath parentName children)
      flushIfWanted options
      return true
    | _ => return false

/-- Writes a file, which may be there already. A directory is not overwritten. -/
def createFile (options : SessionOptions) (raw content : String) : Action Bool := do
  match ← resolve raw with
  | none => return false
  | some path =>
    let now ← Action.clock
    match ← Action.get path with
    | some (.directory _ _ _) => return false
    | node =>
      let created :=
        match node with
        | some (.file _ _ created _) => created
        | _ => now
      let inserted ← insert options path (.file path content created now)
      if inserted then
        report .debug "Wrote file"
          [("path", .text path), ("bytes", .count content.utf8ByteSize)]
      return inserted

/-- Writes an empty file, or does nothing to a directory. -/
def touch (options : SessionOptions) (raw : String) : Action Bool := do
  match ← resolve raw with
  | none => return false
  | some path =>
    match ← Action.get path with
    | some (.directory _ _ _) => return true
    | _ => createFile options path ""

/-- Makes a directory, which may be there already. -/
def createDirectory (options : SessionOptions) (raw : String) : Action Bool := do
  match ← resolve raw with
  | none => return false
  | some path =>
    match ← Action.get path with
    | some (.directory _ _ _) => return true
    | some (.file _ _ _ _) => return false
    | none =>
      let created ← insert options path (.emptyDirectory path (Path.name path))
      if created then
        report .debug "Created directory" [("path", .text path)]
      return created

/-- The changes that remove paths, and a name from the directory above. -/
def removal (doomed : List String) (name : String) (parent : Option Node) : List Change :=
  doomed.map .remove ++
    match parent with
    | some (.directory path parentName children) =>
      [.put (.directory path parentName (children.filter (· ≠ name)))]
    | _ => []

/-- Removes a file, or a directory with all that lies below it. The root stays. If the working
directory is removed, the one above the removed node takes its place. -/
def delete (options : SessionOptions) (raw : String) : Action Bool := do
  match ← resolve raw with
  | none => return false
  | some path =>
    match Path.parent? path with
    | none => return false
    | some parent =>
      match ← Action.get path with
      | none => return false
      | some node =>
        let doomed ←
          match node.kind with
          | .directory => Action.subtree path
          | .file => pure [path]
        Action.commit (removal doomed (Path.name path) (← Action.get parent))
        flushIfWanted options
        report .debug "Deleted" [("path", .text path), ("removed", .count doomed.length)]
        if Path.isWithin (← Action.cursor) path then
          Action.moveCursor parent
        return true

/-- What the store uses against the quota. -/
def usage (options : SessionOptions) : Action Usage := do
  return ⟨← Action.usage, options.quotaBytes⟩

end Session
end VirtualShell
