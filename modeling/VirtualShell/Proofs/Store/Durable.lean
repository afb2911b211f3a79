import VirtualShell.Proofs.Node.RoundTrip
import VirtualShell.Proofs.Path.Containment
import VirtualShell.Proofs.SortedMap
import VirtualShell.Store.Durable
import VirtualShell.Store.Memory

/-!
# What a durable store answers

Two facts carry everything.  A batch does what its changes do one after the other, although it keeps
only the last change of each key.  And a store that holds the encodings of some nodes, and nothing
else, answers as a memory store with these nodes does.  The first fact holds of any bytes.
-/

namespace VirtualShell
namespace DurableStore

open Text.Utf8 (encode encode_inj)

/-! ### Batches -/

/-- What a change does to the bytes of a store. -/
def actionOf : Change → List UInt8 × Option (List UInt8)
  | .put node => (encode node.path, some node.encodeBytes)
  | .remove path => (encode path, none)

theorem find?_applyEntry (entries : SortedMap (List UInt8) (List UInt8))
    (action : List UInt8 × Option (List UInt8)) (key : List UInt8) :
    (applyEntry entries action).find? key =
      if key = action.1 then action.2 else entries.find? key := by
  obtain ⟨own, value⟩ := action
  cases value <;> simp [applyEntry]

theorem find?_add (batch : Batch) (change : Change) (key : List UInt8) :
    (Batch.add batch change).find? key =
      if key = (actionOf change).1 then some (actionOf change).2 else batch.find? key := by
  cases change <;> exact SortedMap.find?_insert _ _ _ _

/-- After a batch, each key has what the batch says, or what it had. -/
theorem find?_foldl_applyEntry {actions : List (List UInt8 × Option (List UInt8))}
    (hnodup : (actions.map (·.1)).Nodup) (entries : SortedMap (List UInt8) (List UInt8))
    (key : List UInt8) :
    (actions.foldl applyEntry entries).find? key =
      ((actions.find? fun action => action.1 = key).map (·.2)).getD (entries.find? key) := by
  induction actions generalizing entries with
  | nil => rfl
  | cons action actions ih =>
      rw [List.map_cons, List.nodup_cons] at hnodup
      rw [List.foldl_cons, ih hnodup.2, find?_applyEntry]
      by_cases hkey : action.1 = key
      · have hnone : actions.find? (fun other => decide (other.1 = key)) = none := by
          rw [List.find?_eq_none]
          intro other hother hsame
          refine hnodup.1 ?_
          rw [hkey, ← of_decide_eq_true hsame]
          exact List.mem_map_of_mem hother
        simp [hkey, hnone]
      · simp [hkey, Ne.symm hkey]

theorem find?_commit (s : DurableStore) (changes : List Change) (key : List UInt8) :
    (s.commit changes).entries.find? key =
      ((Batch.ofChanges changes).find? key).getD (s.entries.find? key) :=
  find?_foldl_applyEntry (SortedMap.nodup_keys (Batch.ofChanges changes)) s.entries key

/-- A batch does what its changes do one after the other. -/
theorem commit_eq_foldl (s : DurableStore) (changes : List Change) :
    s.commit changes =
      ⟨changes.foldl (fun entries change => applyEntry entries (actionOf change)) s.entries⟩ := by
  -- the batch so far, laid over the store, is what the changes so far have made of it
  have hover : ∀ (batch : Batch) (entries : SortedMap (List UInt8) (List UInt8)),
      (∀ key, (batch.find? key).getD (s.entries.find? key) = entries.find? key) →
      ∀ key, ((changes.foldl Batch.add batch).find? key).getD (s.entries.find? key) =
        (changes.foldl (fun entries change => applyEntry entries (actionOf change))
          entries).find? key := by
    induction changes with
    | nil => exact fun batch entries hsame => hsame
    | cons change changes ih =>
        intro batch entries hsame
        refine ih _ _ fun key => ?_
        rw [find?_add, find?_applyEntry]
        by_cases hkey : key = (actionOf change).1
        · simp [hkey]
        · simpa [hkey] using hsame key
  have hentries : (s.commit changes).entries =
      changes.foldl (fun entries change => applyEntry entries (actionOf change)) s.entries := by
    refine SortedMap.ext_find? fun key => ?_
    rw [find?_commit]
    exact hover .empty s.entries (fun key => rfl) key
  exact congrArg DurableStore.mk hentries

/-! ### Stores of encoded nodes -/

/-- The store that holds some nodes and nothing else. -/
def ofNodes (nodes : SortedMap String Node) : DurableStore where
  entries :=
    { entries := nodes.entries.map fun entry => (encode entry.1, entry.2.encodeBytes)
      ordered := List.pairwise_map.mpr (nodes.ordered.imp Text.Utf8.encode_lt) }

theorem keys_ofNodes (nodes : SortedMap String Node) :
    (ofNodes nodes).entries.keys = nodes.keys.map encode := by
  simp [ofNodes, SortedMap.keys]

theorem find?_ofNodes (nodes : SortedMap String Node) (path : String) :
    (ofNodes nodes).entries.find? (encode path) = (nodes.find? path).map Node.encodeBytes := by
  simp only [ofNodes, SortedMap.find?, List.find?_map, Option.map_map, Function.comp_def,
    encode_inj]

/-- Keys that are no text are not there. -/
theorem find?_ofNodes_eq_none {nodes : SortedMap String Node} {key : List UInt8}
    (hkey : ∀ path, encode path ≠ key) : (ofNodes nodes).entries.find? key = none := by
  rw [SortedMap.find?_eq_none_iff, keys_ofNodes]
  intro hmem
  obtain ⟨path, -, hpath⟩ := List.mem_map.mp hmem
  exact hkey path hpath

theorem get_ofNodes (nodes : SortedMap String Node) (path : String) :
    (ofNodes nodes).get path = .ok (nodes.find? path) := by
  rw [get, find?_ofNodes]
  cases nodes.find? path with
  | none => rfl
  | some node => simp [Node.decode_encodeBytes]

theorem encode_prefix_encode {stem key : String} (hstem : stem.toList <+: key.toList) :
    encode stem <+: encode key := by
  obtain ⟨rest, hrest⟩ := hstem
  refine ⟨Text.Utf8.encodeChars rest, ?_⟩
  rw [encode, encode, ← Text.Utf8.encodeChars_append, hrest]

theorem children_ofNodes (nodes : SortedMap String Node) (path : String) :
    (ofNodes nodes).children path =
      nodes.keys.filter fun key => Path.isDirectChild key (Path.childStem path) := by
  simp only [children, keys_ofNodes, List.filter_map, List.map_map, Function.comp_def,
    Text.Utf8.decodeLossy_encode, List.map_id', List.filter_filter]
  refine List.filter_congr fun key _ => ?_
  rw [Bool.and_eq_left_iff_imp]
  intro hchild
  rw [Path.isDirectChild, Bool.and_eq_true, List.isPrefixOf_iff_prefix] at hchild
  exact List.isPrefixOf_iff_prefix.mpr (encode_prefix_encode hchild.1)

/-- One change to the bytes is one change to the nodes. -/
theorem applyEntry_ofNodes (nodes : SortedMap String Node) (change : Change) :
    applyEntry (ofNodes nodes).entries (actionOf change) =
      (ofNodes (MemoryStore.applyChange nodes change)).entries := by
  refine SortedMap.ext_find? fun key => ?_
  rw [find?_applyEntry]
  by_cases hkey : ∃ path, encode path = key
  · obtain ⟨path, rfl⟩ := hkey
    rw [find?_ofNodes, find?_ofNodes]
    cases change with
    | put node =>
        by_cases hpath : path = node.path <;>
          simp [MemoryStore.applyChange, actionOf, encode_inj, hpath]
    | remove other =>
        by_cases hpath : path = other <;>
          simp [MemoryStore.applyChange, actionOf, encode_inj, hpath]
  · rw [not_exists] at hkey
    have hother : key ≠ (actionOf change).1 := by
      cases change <;> exact fun heq => hkey _ heq.symm
    rw [if_neg hother, find?_ofNodes_eq_none hkey, find?_ofNodes_eq_none hkey]

end DurableStore
end VirtualShell
