import VirtualShell.SortedMap
import VirtualShell.Store.Change
import VirtualShell.Total

/-!
# The memory store

Nodes under their paths, in the order of the paths. A memory store can be told to refuse writes.
-/

namespace VirtualShell

/-- A store that lasts as long as the program. -/
structure MemoryStore where
  nodes : SortedMap String Node
  refusesWrites : Bool

namespace MemoryStore

/-- The store without nodes. -/
def empty : MemoryStore where
  nodes := .empty
  refusesWrites := false

/-- The node under a path. -/
def get (s : MemoryStore) (path : String) : Option Node :=
  s.nodes.find? path

/-- The paths one component below `path`, in increasing order: from the first key that is not
before the stem on, as long as keys begin with the stem. -/
def children (s : MemoryStore) (path : String) : List String :=
  let stem := Path.childStem path
  ((s.nodes.keys.dropWhile (· < stem)).takeWhile fun key =>
    stem.toList.isPrefixOf key.toList).filter fun key => Path.isDirectChild key stem

/-- The nodes after one change. -/
def applyChange (nodes : SortedMap String Node) : Change → SortedMap String Node
  | .put node => nodes.insert node.path node
  | .remove path => nodes.erase path

/-- All of the changes in order, or none of them. -/
def commit (s : MemoryStore) (changes : List Change) : Except StorageError MemoryStore :=
  if s.refusesWrites then .error (.system .simulatedWriteFailure)
  else .ok { s with nodes := changes.foldl applyChange s.nodes }

/-- The bytes that an entry takes: its path and its stored text. -/
def entrySize (path : String) (node : Node) : Nat :=
  path.utf8ByteSize + node.encode.utf8ByteSize

/-- The bytes of all entries. -/
def usage (s : MemoryStore) : Nat :=
  total (s.nodes.entries.map fun entry => entrySize entry.1 entry.2)

/-- The length of the longest path. -/
def extent (s : MemoryStore) : Nat :=
  (s.nodes.keys.map String.length).foldl max 0

end MemoryStore
end VirtualShell
