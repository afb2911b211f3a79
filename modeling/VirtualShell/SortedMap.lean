/-!
# Sorted maps

A map kept as the list of its entries in strictly increasing order of their keys, so that two maps
with the same entries are equal, and a range of keys is a stretch of the list.
-/

namespace VirtualShell

/-- Keys that can be sorted: of two different ones exactly one comes first. -/
class SortKey (κ : Type) [LT κ] : Prop where
  lt_trichotomy (a b : κ) : a < b ∨ a = b ∨ b < a
  lt_trans {a b c : κ} : a < b → b < c → a < c

instance : SortKey String where
  lt_trichotomy := Std.lt_trichotomy
  lt_trans := Std.lt_trans

instance : SortKey (List UInt8) where
  lt_trichotomy := Std.lt_trichotomy
  lt_trans := Std.lt_trans

instance : SortKey (List String) where
  lt_trichotomy := Std.lt_trichotomy
  lt_trans := Std.lt_trans

/-- A map from keys to values, sorted by key. -/
structure SortedMap (κ ν : Type) [LT κ] where
  entries : List (κ × ν)
  ordered : entries.Pairwise fun a b => a.1 < b.1

namespace SortedMap

variable {κ ν : Type} [LT κ]

/-- The map without entries. -/
def empty : SortedMap κ ν where
  entries := []
  ordered := .nil

instance : Inhabited (SortedMap κ ν) :=
  ⟨empty⟩

/-- The keys in increasing order. -/
def keys (m : SortedMap κ ν) : List κ :=
  m.entries.map (·.1)

/-- The number of entries. -/
def size (m : SortedMap κ ν) : Nat :=
  m.entries.length

variable [DecidableLT κ] [DecidableEq κ]

/-- The value of a key. -/
def find? (m : SortedMap κ ν) (key : κ) : Option ν :=
  (m.entries.find? fun entry => entry.1 = key).map (·.2)

/-- The entries without that of a key. -/
def erase (m : SortedMap κ ν) (key : κ) : SortedMap κ ν where
  entries := m.entries.filter fun entry => entry.1 ≠ key
  ordered := m.ordered.filter _

/-- Puts an entry in its place among sorted entries, instead of one with the same key. -/
def insertEntry (key : κ) (value : ν) : List (κ × ν) → List (κ × ν)
  | [] => [(key, value)]
  | entry :: rest =>
    if key < entry.1 then (key, value) :: entry :: rest
    else if key = entry.1 then (key, value) :: rest
    else entry :: insertEntry key value rest

theorem mem_of_mem_insertEntry {key : κ} {value : ν} {entries : List (κ × ν)} {entry : κ × ν}
    (h : entry ∈ insertEntry key value entries) : entry = (key, value) ∨ entry ∈ entries := by
  induction entries with
  | nil => simpa [insertEntry] using h
  | cons first rest ih =>
    rw [insertEntry] at h
    split at h
    · simpa using h
    · split at h
      · rcases List.mem_cons.1 h with h | h
        · exact .inl h
        · exact .inr (List.mem_cons_of_mem _ h)
      · rcases List.mem_cons.1 h with h | h
        · exact .inr (h ▸ List.mem_cons_self)
        · exact (ih h).imp_right (List.mem_cons_of_mem _)

variable [SortKey κ]

theorem pairwise_insertEntry (key : κ) (value : ν) {entries : List (κ × ν)}
    (h : entries.Pairwise fun a b => a.1 < b.1) :
    (insertEntry key value entries).Pairwise fun a b => a.1 < b.1 := by
  induction entries with
  | nil => simp [insertEntry]
  | cons first rest ih =>
    have ⟨hfirst, hrest⟩ := List.pairwise_cons.1 h
    rw [insertEntry]
    split
    · rename_i hlt
      refine List.pairwise_cons.2 ⟨fun entry hmem => ?_, h⟩
      rcases List.mem_cons.1 hmem with rfl | hmem
      · exact hlt
      · exact SortKey.lt_trans hlt (hfirst entry hmem)
    · rename_i hlt
      split
      · rename_i heq
        refine List.pairwise_cons.2 ⟨fun entry hmem => ?_, hrest⟩
        simpa [heq] using hfirst entry hmem
      · rename_i hne
        refine List.pairwise_cons.2 ⟨fun entry hmem => ?_, ih hrest⟩
        rcases mem_of_mem_insertEntry hmem with rfl | hmem
        · rcases SortKey.lt_trichotomy key first.1 with h | h | h
          · exact absurd h hlt
          · exact absurd h hne
          · exact h
        · exact hfirst entry hmem

/-- The map with one more entry, or another value for its key. -/
def insert (m : SortedMap κ ν) (key : κ) (value : ν) : SortedMap κ ν where
  entries := insertEntry key value m.entries
  ordered := pairwise_insertEntry key value m.ordered

end SortedMap
end VirtualShell
