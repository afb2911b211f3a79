import VirtualShell.Proofs.Store.Contents

/-!
# What a store shows

A durable store can spell one node in many ways, and only one of them is how the node is written
there.  `Shows` says less than `Holds`: under each path the store gives back the node that is among
some nodes, and it has no keys but paths.  This is all that the calls of a session can tell, and
every change keeps it.
-/

namespace VirtualShell
namespace Store

open Text.Utf8 (encode encode_inj decodeLossy_encode)

/-- The bytes that the store keeps something under. -/
def keyBytes : Store → List (List UInt8)
  | .memory s => s.nodes.keys.map encode
  | .durable s => s.entries.keys

/-- Under each path the store gives back what is among the nodes, and it has no keys but paths. -/
structure Shows (s : Store) (nodes : SortedMap String Node) : Prop where
  get (path : String) : s.get path = .ok (nodes.find? path)
  isPath {key : List UInt8} (hkey : key ∈ s.keyBytes) : ∃ path, encode path = key

section

variable {s : Store} {nodes : SortedMap String Node}

/-- A store in memory shows what it keeps. -/
theorem shows_memory (s : MemoryStore) : (Store.memory s).Shows s.nodes where
  get _ := rfl
  isPath hkey := by
    obtain ⟨path, -, hpath⟩ := List.mem_map.mp hkey
    exact ⟨path, hpath⟩

theorem Shows.nodes_eq {s : MemoryStore} (hs : (Store.memory s).Shows nodes) : s.nodes = nodes :=
  SortedMap.ext_find? fun path => Except.ok.inj (hs.get path)

/-- A store shows what it holds. -/
theorem Holds.shows (hs : s.Holds nodes) : s.Shows nodes where
  get := hs.get
  isPath hkey := by
    cases s with
    | memory s => exact (shows_memory s).isPath hkey
    | durable s =>
        obtain rfl : s = DurableStore.ofNodes nodes := hs
        rw [keyBytes, DurableStore.keys_ofNodes] at hkey
        obtain ⟨path, -, hpath⟩ := List.mem_map.mp hkey
        exact ⟨path, hpath⟩

theorem Shows.mem_keyBytes (hs : s.Shows nodes) (path : String) :
    encode path ∈ s.keyBytes ↔ (nodes.find? path).isSome := by
  have hget := hs.get path
  cases s with
  | memory s =>
      rw [keyBytes, List.mem_map_of_injective fun _ _ => encode_inj.mp, ← hs.nodes_eq,
        SortedMap.mem_keys_iff, Option.isSome_iff_exists]
  | durable s =>
      rw [keyBytes, SortedMap.mem_keys_iff]
      rw [Store.get, DurableStore.get] at hget
      split at hget
      · rename_i hnone
        rw [hnone, ← Except.ok.inj hget]
        simp
      · rename_i bytes hbytes
        rw [hbytes]
        split at hget
        · rw [← Except.ok.inj hget]
          simp
        · cases hget

/-- The children of a path are what is shown one component below it. -/
theorem Shows.mem_children (hs : s.Shows nodes) {path child : String} :
    child ∈ s.children path ↔
      (nodes.find? child).isSome ∧
        ∃ name, name ≠ "" ∧ Path.separator ∉ name.toList ∧ child = Path.join path name := by
  rw [← Path.isDirectChild_iff, ← hs.mem_keyBytes]
  cases s with
  | memory s =>
      rw [children, MemoryStore.children_eq_filter, List.mem_filter, keyBytes,
        List.mem_map_of_injective fun _ _ => encode_inj.mp]
  | durable s =>
      rw [children, DurableStore.children, List.mem_filter, List.mem_map]
      refine and_congr_left fun hchild => ?_
      -- all keys are bytes of paths, so that no two of them are decoded to the same
      constructor
      · rintro ⟨key, hkey, hdecoded⟩
        obtain ⟨path', rfl⟩ := hs.isPath (List.mem_of_mem_filter hkey)
        rw [decodeLossy_encode] at hdecoded
        exact hdecoded ▸ List.mem_of_mem_filter hkey
      · intro hkey
        rw [Path.isDirectChild, Bool.and_eq_true, List.isPrefixOf_iff_prefix] at hchild
        have hstem := DurableStore.encode_prefix_encode hchild.1
        exact ⟨encode child, List.mem_filter.mpr ⟨hkey, List.isPrefixOf_iff_prefix.mpr hstem⟩,
          decodeLossy_encode child⟩

/-! ### Changes -/

theorem Shows.apply (hs : s.Shows nodes) (change : Change) :
    (s.apply change).Shows (MemoryStore.applyChange nodes change) where
  get path := by
    rw [get_apply, hs.get, MemoryStore.find?_applyChange]
    split <;> rfl
  isPath {key} hkey := by
    cases s with
    | memory s => exact (shows_memory _).isPath hkey
    | durable s =>
        rw [Store.apply, keyBytes, SortedMap.mem_keys_iff] at hkey
        obtain ⟨value, hvalue⟩ := hkey
        rw [DurableStore.find?_applyEntry] at hvalue
        split at hvalue
        · rename_i hown
          exact ⟨change.path, by cases change <;> exact hown.symm⟩
        · exact hs.isPath (SortedMap.mem_keys_of_find? hvalue)

theorem Shows.foldl_apply (hs : s.Shows nodes) (changes : List Change) :
    (changes.foldl Store.apply s).Shows (changes.foldl MemoryStore.applyChange nodes) := by
  induction changes generalizing s nodes with
  | nil => exact hs
  | cons change changes ih => exact ih (hs.apply change)

end

end Store
end VirtualShell
