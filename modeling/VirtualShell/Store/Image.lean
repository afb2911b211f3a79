import VirtualShell.Store.Durable

/-!
# The file of a durable store

The entries of a store are kept in one file, each after the other: how many bytes key and value
have, as eight bytes each, and then those bytes.
-/

namespace VirtualShell
namespace DurableStore

/-- A number as some bytes, the least significant first. -/
def sizeBytes : Nat → Nat → List UInt8
  | 0, _ => []
  | count + 1, n => (n % 256).toUInt8 :: sizeBytes count (n / 256)

/-- The number that bytes are, the least significant first. -/
def sizeOfBytes : List UInt8 → Nat
  | [] => 0
  | b :: rest => b.toNat + 256 * sizeOfBytes rest

/-- The bytes of one entry. -/
def entryImage (entry : List UInt8 × List UInt8) : List UInt8 :=
  sizeBytes 8 entry.1.length ++ sizeBytes 8 entry.2.length ++ entry.1 ++ entry.2

/-- The bytes of a store. -/
def image (s : DurableStore) : List UInt8 :=
  s.entries.entries.flatMap entryImage

/-- Puts the entries that bytes hold into a store, as far as the bytes go. -/
def addImage : Nat → List UInt8 → DurableStore → DurableStore
  | 0, _, s => s
  | steps + 1, bytes, s =>
    let keySize := sizeOfBytes (bytes.take 8)
    let valueSize := sizeOfBytes ((bytes.drop 8).take 8)
    let content := bytes.drop 16
    if bytes.length < 16 ∨ content.length < keySize + valueSize then s
    else
      addImage steps (content.drop (keySize + valueSize))
        ⟨s.entries.insert (content.take keySize) ((content.drop keySize).take valueSize)⟩

/-- The store that bytes hold. -/
def ofImage (bytes : List UInt8) : DurableStore :=
  addImage bytes.length bytes .empty

end DurableStore
end VirtualShell
