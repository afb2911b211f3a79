import VirtualShell.Proofs.Node.Fields
import VirtualShell.Proofs.Node.Spelling

/-!
# A stored node is read back

A node has many texts: its fields come in any order, or as a list, with other entries, space and
escapes as one likes.  All of them decode to the node.  What is stored for it is one of them, so it
is read back, and storing what was read is a normal form of the text.
-/

namespace VirtualShell
namespace Node

open Json (Separated IsSpace SpellsText SpellsValue byte)
open Text.Utf8 (encodeChars encodeChars_append)

/-- The bytes are a text of the node: they spell a value that describes it, with space around. -/
inductive Spells (node : Node) : List UInt8 → Prop
  | mk {value : Json} {lead text trail : List UInt8} (hvalue : Describes node value)
      (htext : SpellsNode value text) (hlead : IsSpace lead) (htrail : IsSpace trail) :
      Spells node (lead ++ (text ++ trail))

/-- Every text of a node decodes to it. -/
theorem decode_of_spells {node : Node} {bytes : List UInt8} (hbytes : Spells node bytes) :
    decode bytes = .ok node := by
  cases hbytes with
  | mk hvalue htext hlead htrail =>
      exact decode_spelled hlead htrail htext (ofJson_of_describes hvalue)

/-! ### The stored text -/

/-- An entry as it is written, without what separates it from others. -/
def entryChars (entry : String × Json) : List Char :=
  Json.writeString entry.1 ++ ':' :: Json.writeChars entry.2

theorem writeEntries_singleton (entry : String × Json) :
    Json.writeEntries [entry] = entryChars entry := by
  simp [Json.writeEntries, entryChars]

theorem spellsEntry_entryChars {entry : String × Json}
    (hentry : SpellsValue entry.2 (encodeChars (Json.writeChars entry.2))) :
    SpellsEntry entry (encodeChars (entryChars entry)) := by
  rw [entryChars, encodeChars_append, Json.encodeChars_ascii_cons (by decide)]
  exact .field (Json.spellsText_writeString entry.1) Json.isSpace_nil Json.isSpace_nil hentry

/-- Written entries stand between commas. -/
theorem separated_writeEntries {entries : List (String × Json)}
    (hentries : ∀ entry ∈ entries,
      SpellsValue entry.2 (encodeChars (Json.writeChars entry.2))) :
    Separated (byte '\x7d') SpellsEntry true entries
      (encodeChars (Json.writeEntries entries) ++ [byte '\x7d']) := by
  have hmore : ∀ (entry next : String × Json) (entries : List (String × Json)),
      Json.writeEntries (entry :: next :: entries) =
        entryChars entry ++ [','] ++ Json.writeEntries (next :: entries) := by
    intro entry next entries
    rw [Json.writeEntries_cons_cons, entryChars]
    simp
  exact Json.separated_joined entryChars Json.writeEntries (by rw [Json.writeEntries])
    writeEntries_singleton hmore fun entry hentry => spellsEntry_entryChars (hentries entry hentry)

theorem spellsValue_timestamp (time : Timestamp) :
    SpellsValue (.integer time.toInt) (encodeChars (Json.writeChars (.integer time.toInt))) := by
  rw [Json.writeChars]
  exact .integer (Int64.le_toInt time) (Int64.toInt_lt time)

theorem spellsValue_text (s : String) :
    SpellsValue (.text s) (encodeChars (Json.writeChars (.text s))) := by
  rw [Json.writeChars]
  exact .text (Json.spellsText_writeString s)

/-- What is stored for a node is an object of its fields. -/
theorem exists_toJson_eq (node : Node) :
    ∃ entries, node.toJson = .object entries ∧ Fields node entries ∧
      ∀ entry ∈ entries, SpellsValue entry.2 (encodeChars (Json.writeChars entry.2)) := by
  cases node with
  | directory path name children =>
      refine ⟨_, rfl, .directory path name children, ?_⟩
      simp [spellsValue_text, Json.spellsValue_texts]
  | file path content created modified =>
      refine ⟨_, rfl, .file path content created modified, ?_⟩
      simp [spellsValue_text, spellsValue_timestamp]

theorem spells_encodeBytes (node : Node) : Spells node node.encodeBytes := by
  obtain ⟨entries, hjson, hfields, hentries⟩ := node.exists_toJson_eq
  have hbytes : node.encodeBytes =
      [] ++ (byte '\x7b' :: (encodeChars (Json.writeEntries entries) ++ [byte '\x7d']) ++ []) := by
    rw [encodeBytes, encode, hjson, Text.Utf8.encode, Json.write, String.toList_ofList,
      Json.writeChars, List.append_assoc, List.singleton_append,
      Json.encodeChars_ascii_cons (by decide), encodeChars_append, List.append_nil,
      List.nil_append]
    rfl
  have hvalue : Describes node (.object entries) :=
    .object hfields (fun entry hentry => absurd hentry List.not_mem_nil) (by simp)
  rw [hbytes]
  exact .mk hvalue (.object (separated_writeEntries hentries)) Json.isSpace_nil Json.isSpace_nil

/-- Whatever a node holds, its stored bytes decode to it. -/
theorem decode_encodeBytes (node : Node) : decode node.encodeBytes = .ok node :=
  decode_of_spells node.spells_encodeBytes

/-! ### Storing what was read -/

/-- The bytes that are stored for what is read from some bytes. -/
def restore (bytes : List UInt8) : Except Json.Fault (List UInt8) :=
  (decode bytes).map encodeBytes

theorem restore_of_decode {node : Node} {bytes : List UInt8} (hdecode : decode bytes = .ok node) :
    restore bytes = .ok node.encodeBytes := by
  rw [restore, hdecode]
  rfl

theorem encodeBytes_inj {node node' : Node} :
    node.encodeBytes = node'.encodeBytes ↔ node = node' := by
  constructor
  · intro hbytes
    have hdecode := node.decode_encodeBytes
    rw [hbytes, node'.decode_encodeBytes] at hdecode
    exact (Except.ok.inj hdecode).symm
  · rintro rfl
    rfl

/-- Texts are stored alike exactly if they are read alike. -/
theorem restore_eq_restore_iff {bytes bytes' : List UInt8} :
    restore bytes = restore bytes' ↔ decode bytes = decode bytes' := by
  constructor
  · intro hrestore
    rw [restore, restore] at hrestore
    cases hdecode : decode bytes with
    | error fault =>
        cases hdecode' : decode bytes' with
        | error fault' =>
            rw [hdecode, hdecode'] at hrestore
            exact congrArg Except.error (Except.error.inj hrestore)
        | ok node' =>
            rw [hdecode, hdecode'] at hrestore
            cases hrestore
    | ok node =>
        cases hdecode' : decode bytes' with
        | error fault' =>
            rw [hdecode, hdecode'] at hrestore
            cases hrestore
        | ok node' =>
            rw [hdecode, hdecode'] at hrestore
            exact congrArg Except.ok (encodeBytes_inj.mp (Except.ok.inj hrestore))
  · intro hdecode
    rw [restore, restore, hdecode]

/-- What is stored for a node is one of its texts and is read back, every other of its texts is
read as well, and whatever is read comes to the stored text and stays there. -/
theorem encodeBytes_normalForm :
    (∀ node : Node, Spells node node.encodeBytes ∧ decode node.encodeBytes = .ok node) ∧
    (∀ (node : Node) (bytes : List UInt8), Spells node bytes → decode bytes = .ok node) ∧
    (∀ (node : Node) (bytes : List UInt8), decode bytes = .ok node →
      restore bytes = .ok node.encodeBytes ∧ decode node.encodeBytes = .ok node ∧
        restore node.encodeBytes = .ok node.encodeBytes) ∧
    ∀ bytes bytes' : List UInt8, restore bytes = restore bytes' ↔ decode bytes = decode bytes' := by
  refine ⟨fun node => ⟨node.spells_encodeBytes, node.decode_encodeBytes⟩,
    fun _ _ => decode_of_spells, fun node bytes hdecode => ?_, fun _ _ => restore_eq_restore_iff⟩
  have hback : decode node.encodeBytes = .ok node := node.decode_encodeBytes
  exact ⟨restore_of_decode hdecode, hback, restore_of_decode hback⟩

/-- A directory without children as someone else may write it: the tag behind the name and with an
escape in its key, a surrogate pair, a field that nodes do not have, and space around. -/
def looseText : String :=
  " \x7b\"name\" :\"a\", \"\\u0074ype\": \"directory\", " ++
    "\"path\": \"\\ud83d\\ude00/a\" ,\"owner\":null\x7d\n"

theorem spells_looseText :
    Spells (.directory "😀/a" "a" []) (Text.Utf8.encode looseText) := by
  let name : String × Json := ("name", .text "a")
  let tag : String × Json := ("type", .text "directory")
  let path : String × Json := ("path", .text "😀/a")
  let owner : String × Json := ("owner", .null)
  have horder : [name, tag, path, owner].Perm ([tag, path, name] ++ [owner]) :=
    (List.perm_middle : ([tag, path] ++ name :: [owner]).Perm _).symm
  have hfields : Describes (.directory "😀/a" "a" []) (.object [name, tag, path, owner]) :=
    .object (.childless "😀/a" "a") (by simp [owner, fieldKeys, kind]) horder
  have hnone : IsSpace [] := Json.isSpace_nil
  have hblank : IsSpace [0x20] := by simp [IsSpace, Json.isSpace]
  have hbreak : IsSpace [0x0A] := by simp [IsSpace, Json.isSpace]
  have hword : ∀ s : String, SpellsText s (encodeChars (Json.writeString s)) :=
    Json.spellsText_writeString
  have htype : SpellsText "type" _ :=
    .quoted (.cons (.number (Json.spellsHex_digits (by decide)))
      (Json.spellsChars_flatMap ['y', 'p', 'e']))
  have hface : Json.SpellsChar '😀' _ :=
    .pair (by decide : 0x3D < 0x400) (by decide : 0x200 < 0x400) (by decide)
      (Json.spellsHex_digits (by decide)) (Json.spellsHex_digits (by decide))
  have hpath : SpellsText "😀/a" _ :=
    .quoted (.cons hface (Json.spellsChars_flatMap ['/', 'a']))
  have hnull : Readable .null [0x6E, 0x75, 0x6C, 0x6C] := fun _ _ _ => ⟨_, rfl⟩
  have hentries : Separated (byte '\x7d') SpellsEntry true [name, tag, path, owner] _ :=
    .first hnone (.field (hword "name") hblank hnone (.text (hword "a")))
      (.further hnone hblank (.field htype hnone hblank (.text (hword "directory")))
        (.further hnone hblank (.field (hword "path") hnone hblank (.text hpath))
          (.further hblank hnone (.other (hword "owner") (by decide) hnone hnull) (.close hnone))))
  convert Spells.mk hfields (.object hentries) hblank hbreak using 1
  decide +kernel

theorem encodeBytes_normalForm_looseText :
    Spells (.directory "😀/a" "a" []) (Text.Utf8.encode looseText) ∧
      decode (Text.Utf8.encode looseText) = .ok (.directory "😀/a" "a" []) ∧
      restore (Text.Utf8.encode looseText) = .ok (encodeBytes (.directory "😀/a" "a" [])) ∧
      Text.Utf8.encode looseText ≠ encodeBytes (.directory "😀/a" "a" []) := by
  obtain ⟨-, hread, hnormal, -⟩ := encodeBytes_normalForm
  have hdecode := hread _ _ spells_looseText
  exact ⟨spells_looseText, hdecode, (hnormal _ _ hdecode).1, by decide +kernel⟩

end Node
end VirtualShell
