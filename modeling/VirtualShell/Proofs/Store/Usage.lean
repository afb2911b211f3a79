import Mathlib.Algebra.Order.BigOperators.Group.List
import Mathlib.Data.List.Induction
import VirtualShell.Proofs.Tree.Planting

/-!
# The bytes in use

The bytes that a memory store uses are added up over its entries.  So putting an entry adds what it
takes and gives back what the entry took that it replaces.  Putting a node into a tree puts one
entry or two: if something new is listed, the directory above is written again with one more name,
and takes as many bytes more as the name takes among the others.
-/

namespace VirtualShell

/-! ### Totals -/

namespace SortedMap

variable {κ ν : Type} [LT κ] [DecidableEq κ] [DecidableLT κ] [SortKey κ]
  [Std.Irrefl fun a b : κ => a < b]

omit [DecidableLT κ] in
theorem find?_eq_none_of_lt {key : κ} {first : κ × ν} {rest : List (κ × ν)}
    (hordered : (first :: rest).Pairwise fun a b => a.1 < b.1) (hlt : key < first.1) :
    ((first :: rest).find? fun entry => entry.1 = key) = none := by
  rw [List.find?_eq_none]
  intro entry hentry hkey
  have hsame : entry.1 = key := of_decide_eq_true hkey
  rcases List.mem_cons.mp hentry with rfl | hentry
  · exact Std.Irrefl.irrefl _ (hsame ▸ hlt)
  · have hafter : first.1 < entry.1 := (List.pairwise_cons.mp hordered).1 entry hentry
    exact Std.Irrefl.irrefl _ (hsame ▸ SortKey.lt_trans hlt hafter)

theorem total_insertEntry (f : κ → ν → Nat) (key : κ) (value : ν)
    {entries : List (κ × ν)} (hordered : entries.Pairwise fun a b => a.1 < b.1) :
    total ((insertEntry key value entries).map fun entry => f entry.1 entry.2) +
        (((entries.find? fun entry => entry.1 = key).map (·.2)).map (f key)).getD 0 =
      total (entries.map fun entry => f entry.1 entry.2) + f key value := by
  induction entries with
  | nil => simp [insertEntry]
  | cons first rest ih =>
      rw [insertEntry]
      by_cases hlt : key < first.1
      · rw [if_pos hlt, find?_eq_none_of_lt hordered hlt]
        simp only [List.map_cons, total, List.sum_cons, Option.map_none, Option.getD_none]
        omega
      · rw [if_neg hlt]
        by_cases hkey : key = first.1
        · subst hkey
          simp only [if_pos, List.map_cons, total, List.sum_cons, List.find?_cons, decide_true,
            Option.map_some, Option.getD_some]
          omega
        · have hrest := ih (List.pairwise_cons.mp hordered).2
          rw [if_neg hkey, List.find?_cons_of_neg (by simpa using Ne.symm hkey)]
          simp only [List.map_cons, total, List.sum_cons] at hrest ⊢
          omega

/-- An entry that is put adds to a total, less what it replaces. -/
theorem total_insert (f : κ → ν → Nat) (m : SortedMap κ ν) (key : κ) (value : ν) :
    total ((m.insert key value).entries.map fun entry => f entry.1 entry.2) +
        ((m.find? key).map (f key)).getD 0 =
      total (m.entries.map fun entry => f entry.1 entry.2) + f key value :=
  total_insertEntry f key value m.ordered

end SortedMap

/-! ### The stored text of a directory -/

namespace Json

/-- The bytes of some characters. -/
def charsSize (cs : List Char) : Nat :=
  (String.ofList cs).utf8ByteSize

@[simp]
theorem charsSize_append (cs ds : List Char) :
    charsSize (cs ++ ds) = charsSize cs + charsSize ds := by
  rw [charsSize, String.ofList_append, String.utf8ByteSize_append, charsSize, charsSize]

theorem writeItems_concat (items : List Json) (item : Json) :
    writeItems (items ++ [item]) =
      writeItems items ++ ((if items = [] then [] else [',']) ++ writeChars item) := by
  induction items with
  | nil => simp [writeItems]
  | cons first items ih =>
      cases items with
      | nil => simp [writeItems]
      | cons second items =>
          have hfirst (later : List Json) : writeItems (first :: second :: later) =
              writeChars first ++ [','] ++ writeItems (second :: later) := by
            rw [writeItems]
            exact List.cons_ne_nil second later
          rw [List.cons_append] at ih
          rw [List.cons_append, List.cons_append, hfirst, hfirst, ih]
          simp

end Json

/-- The bytes that a name takes in the stored text of a directory, behind some other names. -/
def listedSize (names : List String) (name : String) : Nat :=
  (if names = [] then 0 else 1) + (Json.write (.text name)).utf8ByteSize

theorem Node.utf8ByteSize_encode_concat (path own : String) (names : List String)
    (name : String) :
    (Node.directory path own (names ++ [name])).encode.utf8ByteSize =
      (Node.directory path own names).encode.utf8ByteSize + listedSize names name := by
  have hcomma : Json.charsSize (if names = [] then [] else [',']) =
      if names = [] then 0 else 1 := by
    split <;> rfl
  show Json.charsSize (Json.writeChars (Node.directory path own (names ++ [name])).toJson) =
    Json.charsSize (Json.writeChars (Node.directory path own names).toJson) +
      ((if names = [] then 0 else 1) + Json.charsSize (Json.writeChars (.text name)))
  simp only [Node.toJson, Json.writeChars, Json.writeEntries, List.map_append, List.map_cons,
    List.map_nil, Json.writeItems_concat, List.map_eq_nil_iff, Json.charsSize_append, hcomma]
  omega

/-- A directory with fewer names takes no more bytes. -/
theorem Node.utf8ByteSize_encode_filter_le (path own : String) (keep : String → Bool)
    (names : List String) :
    (Node.directory path own (names.filter keep)).encode.utf8ByteSize ≤
      (Node.directory path own names).encode.utf8ByteSize := by
  induction names using List.reverseRecOn with
  | nil => exact Nat.le_refl _
  | append_singleton names name ih =>
      rw [List.filter_append, Node.utf8ByteSize_encode_concat]
      by_cases hkeep : keep name = true
      · -- a comma before the name is there only if it was there before
        have hlisted : listedSize (names.filter keep) name ≤ listedSize names name := by
          rw [listedSize, listedSize]
          refine Nat.add_le_add_right ?_ _
          by_cases hnames : names = []
          · simp [hnames]
          · rw [if_neg hnames]
            split <;> simp
        rw [List.filter_cons_of_pos hkeep, List.filter_nil, Node.utf8ByteSize_encode_concat]
        omega
      · rw [List.filter_cons_of_neg hkeep, List.filter_nil, List.append_nil]
        omega

theorem MemoryStore.entrySize_pos (path : String) (node : Node) : 0 < entrySize path node := by
  have hbrace : Json.charsSize ['\x7b'] = 1 := rfl
  have hencode : 0 < node.encode.utf8ByteSize := by
    show 0 < Json.charsSize (Json.writeChars node.toJson)
    cases node <;>
      rw [Node.toJson, Json.writeChars, Json.charsSize_append, Json.charsSize_append, hbrace] <;>
      omega
  rw [entrySize]
  omega

namespace Contents

/-! ### Putting nodes -/

/-- The bytes of all entries. -/
def usage (nodes : Contents) : Nat :=
  total (nodes.entries.map fun entry => MemoryStore.entrySize entry.1 entry.2)

/-- The bytes of the stored text under a path, if anything is stored there. -/
def recordSize (nodes : Contents) (path : String) : Nat :=
  ((nodes.find? path).map fun node => node.encode.utf8ByteSize).getD 0

/-- The bytes that a path takes besides its stored text when it is put into the directory above it:
none if something is stored under it, and otherwise those of the path and of its name there. -/
def overhead (nodes : Contents) (path : String) : Nat :=
  if (nodes.find? path).isSome then 0
  else
    path.utf8ByteSize +
      listedSize (((Path.parent? path).map nodes.names).getD []) (Path.name path)

variable {nodes : Contents}

theorem usage_put_of_none {node : Node} (hfree : nodes.find? node.path = none) :
    usage (MemoryStore.applyChange nodes (.put node)) =
      nodes.usage + (node.path.utf8ByteSize + node.encode.utf8ByteSize) := by
  have htotal := SortedMap.total_insert MemoryStore.entrySize nodes node.path node
  rw [hfree] at htotal
  exact htotal

/-- Where something is stored already, the path is there and only the text is replaced. -/
theorem usage_put_of_some {node old : Node} (hstored : nodes.find? node.path = some old) :
    usage (MemoryStore.applyChange nodes (.put node)) + old.encode.utf8ByteSize =
      nodes.usage + node.encode.utf8ByteSize := by
  have htotal := SortedMap.total_insert MemoryStore.entrySize nodes node.path node
  rw [hstored, Option.map_some, Option.getD_some, MemoryStore.entrySize,
    MemoryStore.entrySize] at htotal
  rw [usage, usage, MemoryStore.applyChange]
  omega

/-- What putting a node into a tree does to the bytes in use. -/
theorem usage_plant (htree : nodes.Tree) {node : Node} {parent : String}
    (hplant : Plantable nodes node parent) :
    (nodes.plant node).usage + nodes.recordSize node.path =
      nodes.usage + node.encode.utf8ByteSize + nodes.overhead node.path := by
  have habove := htree.find?_directory hplant.directory
  have hbind : (Path.parent? node.path).bind nodes.find? =
      some (.directory parent (Path.name parent) (nodes.names parent)) := by
    rw [hplant.parent_eq, Option.bind_some, habove]
  obtain ⟨-, hname, hpath⟩ := hplant.canonical.of_parent? hplant.parent_eq
  have hlisted : Path.name node.path ∈ nodes.names parent ↔ (nodes.find? node.path).isSome := by
    rw [htree.mem_names hname, ← hpath]
  cases hfind : nodes.find? node.path with
  | some old =>
      have hmem : (nodes.names parent).contains (Path.name node.path) = true := by
        rw [List.contains_iff_mem, hlisted, hfind]
        rfl
      have hput := usage_put_of_some hfind
      rw [plant, hbind, recordSize, overhead, hfind]
      simp only [Session.insertion, if_pos hmem, List.foldl_cons, List.foldl_nil, Option.map_some,
        Option.getD_some, Option.isSome_some, if_true]
      omega
  | none =>
      have hmem : ¬ (nodes.names parent).contains (Path.name node.path) = true := by
        rw [List.contains_iff_mem, hlisted, hfind]
        simp
      have hput := usage_put_of_none hfind
      -- the directory above is another entry, so that it is still what it was
      have hstays : (MemoryStore.applyChange nodes (.put node)).find? parent =
          some (.directory parent (Path.name parent) (nodes.names parent)) := by
        rw [MemoryStore.find?_put, if_neg hplant.ne, habove]
      have hrelisted : usage (MemoryStore.applyChange (MemoryStore.applyChange nodes (.put node))
            (.put (.directory parent (Path.name parent)
              (nodes.names parent ++ [Path.name node.path])))) +
            (Node.directory parent (Path.name parent) (nodes.names parent)).encode.utf8ByteSize =
          usage (MemoryStore.applyChange nodes (.put node)) +
            (Node.directory parent (Path.name parent)
              (nodes.names parent ++ [Path.name node.path])).encode.utf8ByteSize :=
        usage_put_of_some hstays
      rw [Node.utf8ByteSize_encode_concat] at hrelisted
      rw [plant, hbind, recordSize, overhead, hfind, hplant.parent_eq]
      simp only [Session.insertion, if_neg hmem, List.foldl_cons, List.foldl_nil, Option.map_none,
        Option.map_some, Option.getD_none, Option.getD_some, Option.isSome_none,
        Bool.false_eq_true, if_false]
      omega

end Contents
end VirtualShell
