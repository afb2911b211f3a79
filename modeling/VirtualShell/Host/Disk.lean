import VirtualShell.Host
import VirtualShell.Host.NativePath
import VirtualShell.SortedMap
import VirtualShell.Text.Utf8

/-!
# Disks

A disk is a machine of its own: a tree of directories and text files, some of the directories
holding stores, and the lines that were written for the user.
-/

namespace VirtualShell

/-- What lies under a name: a directory with what lies in it, or a text file. -/
inductive DiskEntry where
  | directory (entries : List (String × DiskEntry))
  | file (text : String)
  deriving Repr

namespace DiskEntry

/-- Whether it is a directory. -/
def isDirectory : DiskEntry → Bool
  | .directory _ => true
  | .file _ => false

/-- The entries with one more, which takes the place of one with its name. -/
def putAmong (name : String) (entry : DiskEntry) :
    List (String × DiskEntry) → List (String × DiskEntry)
  | [] => [(name, entry)]
  | other :: rest =>
    if other.1 = name then (name, entry) :: rest else other :: putAmong name entry rest

/-- Puts an entry where some names lead to, last to first. The directories on the way must be
there; otherwise nothing changes. -/
def put (entry : DiskEntry) : List String → DiskEntry → DiskEntry
  | [], _ => entry
  | name :: rest, .directory entries =>
    match entries.lookup name with
    | some inner => .directory (putAmong name (put entry rest inner) entries)
    | none => if rest.isEmpty then .directory (putAmong name entry entries) else .directory entries
  | _ :: _, .file text => .file text

end DiskEntry

/-- The way from the root to a place: the names with what lies under each of them, last to first.
There may be nothing under the last one. -/
abbrev Trail := List (String × Option DiskEntry)

/-- The names on the way, from the root. -/
def Trail.names (t : Trail) : List String :=
  (t.map (·.1)).reverse

/-- What is on a disk, from the root, which is a directory. -/
structure Disk where
  root : DiskEntry
  workingDirectory : List String
  stores : SortedMap (List String) DurableStore
  warnings : List String

namespace Disk

/-- A disk with nothing on it. -/
def empty (workingDirectory : List String) : Disk :=
  ⟨.directory [], workingDirectory, .empty, []⟩

/-- What lies at the end of a trail. -/
def entry? (d : Disk) : Trail → Option DiskEntry
  | [] => some d.root
  | (_, entry) :: _ => entry

/-- Puts something at the end of a trail. -/
def set (d : Disk) (t : Trail) (entry : DiskEntry) : Disk :=
  { d with root := entry.put t.names d.root }

/-- The greatest number of bytes in a name. -/
def maxNameSize : Nat := 255

/-- The greatest number of bytes in a path. -/
def maxPathSize : Nat := 4095

/-- Whether the system takes a path at all. -/
def checkPath (path : String) : Except SystemError Unit :=
  if path.toList.contains '\x00' then .error .nulInName
  else if maxPathSize < path.utf8ByteSize then .error .nameTooLong
  else .ok ()

/-- Follows names from the end of a trail. Only a directory can be gone through, or stayed in. -/
def follow (d : Disk) (t : Trail) : List String → Except SystemError Trail
  | [] => .ok t
  | name :: rest =>
    match d.entry? t with
    | some (.directory entries) =>
      if name = "." then d.follow t rest
      else if name = ".." then d.follow t.tail rest
      else if maxNameSize < name.utf8ByteSize then .error .nameTooLong
      else d.follow ((name, entries.lookup name) :: t) rest
    | some (.file _) => .error .notADirectory
    | none => .error .notFound

/-- The names that a path leads through, from the root. -/
def route (d : Disk) (path : String) : List String :=
  (if NativePath.isAbsolute path then [] else d.workingDirectory) ++ NativePath.steps path

/-- The way to the place that a path means, whether or not anything lies there. -/
def locate (d : Disk) (path : String) : Except SystemError Trail := do
  checkPath path
  d.follow [] (d.route path)

/-- The text of the file under a path. -/
def fileText (d : Disk) (path : String) : Except SystemError String := do
  match d.entry? (← d.locate path) with
  | some (.file text) =>
    if NativePath.endsWithSlash path then .error .notADirectory else .ok text
  | some (.directory _) => .error .isADirectory
  | none => .error .notFound

/-- Whether a file lies under a path. -/
def isFile (d : Disk) (path : String) : Bool :=
  match d.fileText path with
  | .ok _ => true
  | .error _ => false

/-- Whether a path leads to a directory. -/
def leadsToDirectory (d : Disk) (path : String) : Bool :=
  match d.locate path with
  | .ok t => (d.entry? t).any DiskEntry.isDirectory
  | .error _ => false

/-- Makes a directory where nothing is yet. The one above it must be there. -/
def makeDirectory (d : Disk) (path : String) : Except SystemError Disk := do
  let t ← d.locate path
  match d.entry? t with
  | none => return d.set t (.directory [])
  | some _ => throw .alreadyExists

/-- Makes a directory unless it is there. -/
def ensureDirectory (d : Disk) (path : String) : Except SystemError Unit × Disk :=
  match d.makeDirectory path with
  | .ok changed => (.ok (), changed)
  | .error e => (if e = .alreadyExists ∧ d.leadsToDirectory path then .ok () else .error e, d)

/-- Makes a directory whose parents are given. If one of them is missing, they are made first. A
path without parents is there. -/
def makeDirectories (d : Disk) (path : String) : List String → Except SystemError Unit × Disk
  | [] => (.ok (), d)
  | above :: further =>
    match d.ensureDirectory path with
    | (.error .notFound, d) =>
      match d.makeDirectories above further with
      | (.ok (), d) => d.ensureDirectory path
      | refused => refused
    | finished => finished

/-- Makes a directory and those above it, as far as they are missing. What was made before the
system refused stays. -/
def createDirectories (d : Disk) (path : String) : Except SystemError Unit × Disk :=
  d.makeDirectories path (NativePath.parents path)

/-- Makes an empty file under a path if there is no file. A slash at the end is refused as soon as
the directory is found in which the file would lie. -/
def touch (d : Disk) (path : String) : Except SystemError Disk := do
  checkPath path
  if NativePath.endsWithSlash path then
    let _ ← d.follow [] ((d.route path).dropLast ++ ["."])
    throw .isADirectory
  else
    let t ← d.follow [] (d.route path)
    match d.entry? t with
    | some (.file _) => return d
    | some (.directory _) => throw .isADirectory
    | none => return d.set t (.file "")

/-- Appends a text to the file under a path. -/
def append (d : Disk) (path s : String) : Disk :=
  match d.locate path with
  | .ok t =>
    match d.entry? t with
    | some (.file text) => d.set t (.file (text ++ s))
    | _ => d
  | .error _ => d

/-- Puts a text file under a path, and makes the directories above it. -/
def write (d : Disk) (path s : String) : Except SystemError Unit × Disk :=
  match d.createDirectories ((NativePath.parent? path).getD "") with
  | (.error e, d) => (.error e, d)
  | (.ok (), d) =>
    match d.locate path with
    | .ok t => (.ok (), d.set t (.file s))
    | .error e => (.error e, d)

/-- What the store in a directory holds. -/
def storeAt (d : Disk) (path : String) : Except SystemError DurableStore := do
  return (d.stores.find? (← d.locate path).names).getD .empty

/-- Makes the directory of a store, and takes what the store holds. -/
def openStore (d : Disk) (path : String) : Except SystemError DurableStore × Disk :=
  match d.createDirectories path with
  | (.ok (), d) => (d.storeAt path, d)
  | (.error e, d) => (.error e, d)

/-- Keeps what a store holds now. -/
def keepStore (d : Disk) (path : String) (store : DurableStore) : Disk :=
  match d.locate path with
  | .ok t => { d with stores := d.stores.insert t.names store }
  | .error _ => d

/-- The answer to a call, and the disk after it. -/
def answer (d : Disk) : (c : HostCall) → c.Answer × Disk
  | .isFile path => (d.isFile path, d)
  | .content path => ((d.fileText path).map Text.Utf8.encode, d)
  | .createDirectories path => d.createDirectories path
  | .openLog path =>
    match d.touch path with
    | .ok changed => (.ok (), changed)
    | .error e => (.error e, d)
  | .openStore path =>
    let (opened, d) := d.openStore path
    (opened.mapError .system, d)
  | .warn line => ((), { d with warnings := d.warnings ++ [line] })

end Disk
end VirtualShell
