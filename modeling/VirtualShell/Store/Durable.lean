import VirtualShell.SortedMap
import VirtualShell.Store.Change
import VirtualShell.Total

/-!
# The durable store

Bytes under bytes, in the order of the keys. Keys are the bytes of paths and values those of stored
nodes, but nothing keeps other bytes out. Changes are gathered into one batch, in which the last
change of a key counts, and the batch takes effect at once.
-/

namespace VirtualShell

/-- A store that outlives the program. -/
structure DurableStore where
  entries : SortedMap (List UInt8) (List UInt8)

namespace DurableStore

/-- The store without entries. -/
def empty : DurableStore where
  entries := .empty

/-- The node under a path. -/
def get (s : DurableStore) (path : String) : Except StorageError (Option Node) :=
  match s.entries.find? (Text.Utf8.encode path) with
  | none => .ok none
  | some bytes =>
    match Node.decode bytes with
    | .ok node => .ok (some node)
    | .error fault => .error (.undecodable fault bytes)

/-- The paths one component below `path`, in the order of their bytes. What is no text in a key is
replaced, so that two keys may look the same. -/
def children (s : DurableStore) (path : String) : List String :=
  let stem := Path.childStem path
  let stemBytes := Text.Utf8.encode stem
  ((s.entries.keys.filter fun key => stemBytes.isPrefixOf key).map
    Text.Utf8.decodeLossy).filter fun key => Path.isDirectChild key stem

/-- What a batch does to each key: it gets a value or loses the one it has. -/
abbrev Batch := SortedMap (List UInt8) (Option (List UInt8))

/-- A batch with one more change. -/
def Batch.add (batch : Batch) : Change → Batch
  | .put node => batch.insert (Text.Utf8.encode node.path) (some node.encodeBytes)
  | .remove path => batch.insert (Text.Utf8.encode path) none

/-- The batch of some changes. -/
def Batch.ofChanges (changes : List Change) : Batch :=
  changes.foldl Batch.add .empty

/-- The entries after what a batch does to one key. -/
def applyEntry (entries : SortedMap (List UInt8) (List UInt8))
    (action : List UInt8 × Option (List UInt8)) : SortedMap (List UInt8) (List UInt8) :=
  match action.2 with
  | some value => entries.insert action.1 value
  | none => entries.erase action.1

/-- All of the changes at once. -/
def commit (s : DurableStore) (changes : List Change) : DurableStore :=
  { s with entries := (Batch.ofChanges changes).entries.foldl applyEntry s.entries }

/-- The bytes of all keys and values. -/
def usage (s : DurableStore) : Nat :=
  total (s.entries.entries.map fun entry => entry.1.length + entry.2.length)

/-- The length of the longest key. -/
def extent (s : DurableStore) : Nat :=
  (s.entries.keys.map List.length).foldl max 0

end DurableStore
end VirtualShell
