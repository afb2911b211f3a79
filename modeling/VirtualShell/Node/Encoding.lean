import VirtualShell.Json.Reader
import VirtualShell.Json.Writer
import VirtualShell.Node

/-!
# The stored form of a node

A node is stored as a JSON object whose `type` says whether it is a directory or a file. The order
of the written fields is fixed. Reading takes the fields in any order, ignores others, lets a
directory leave out its children, and also takes a list of the tag and the fields in order.
-/

namespace VirtualShell
namespace Node

/-- A node as a JSON value. -/
def toJson : Node → Json
  | .directory path name children =>
    .object [("type", .text "directory"), ("path", .text path), ("name", .text name),
      ("children", .list (children.map .text))]
  | .file path content created modified =>
    .object [("type", .text "file"), ("path", .text path), ("content", .text content),
      ("created", .integer created.toInt), ("modified", .integer modified.toInt)]

/-- The stored text of a node. -/
def encode (node : Node) : String :=
  Json.write node.toJson

/-- The stored bytes of a node. -/
def encodeBytes (node : Node) : List UInt8 :=
  Text.Utf8.encode node.encode

/-! ### Fields -/

/-- A value of the wrong type. -/
def unexpected (value : Json) (expected : String) : String :=
  s!"invalid type: {value.describe}, expected {expected}"

/-- A text. -/
def readText : Json → Except String String
  | .text s => .ok s
  | value => .error (unexpected value "a string")

/-- Some texts, one after the other. -/
def readTextList : List Json → Except String (List String)
  | [] => .ok []
  | value :: rest => do
    let s ← readText value
    let more ← readTextList rest
    return s :: more

/-- A list of texts. -/
def readTexts : Json → Except String (List String)
  | .list items => readTextList items
  | value => .error (unexpected value "a sequence")

/-- A whole number in the range of timestamps. -/
def readTimestamp : Json → Except String Timestamp
  | .integer n =>
    if n ≤ Int64.maxValue.toInt then .ok (Int64.ofInt n)
    else .error s!"invalid value: integer `{n}`, expected i64"
  | value => .error (unexpected value "i64")

/-- Fills a field that was not given yet. -/
def fill {α : Type} (field : String) (slot : Option α) (value : Except String α) :
    Except String (Option α) :=
  match slot with
  | some _ => .error s!"duplicate field `{field}`"
  | none => value.map some

/-- The value of a field that has to be given. -/
def require {α : Type} (field : String) : Option α → Except String α
  | some value => .ok value
  | none => .error s!"missing field `{field}`"

/-- The fields of a directory as far as they were given. -/
structure DirectoryFields where
  path : Option String := none
  name : Option String := none
  children : Option (List String) := none

/-- Takes one entry of an object. -/
def DirectoryFields.add (fields : DirectoryFields) (key : String) (value : Json) :
    Except String DirectoryFields :=
  if key = "path" then do
    return { fields with path := ← fill key fields.path (readText value) }
  else if key = "name" then do
    return { fields with name := ← fill key fields.name (readText value) }
  else if key = "children" then do
    return { fields with children := ← fill key fields.children (readTexts value) }
  else .ok fields

/-- The fields of a file as far as they were given. -/
structure FileFields where
  path : Option String := none
  content : Option String := none
  created : Option Timestamp := none
  modified : Option Timestamp := none

/-- Takes one entry of an object. -/
def FileFields.add (fields : FileFields) (key : String) (value : Json) :
    Except String FileFields :=
  if key = "path" then do
    return { fields with path := ← fill key fields.path (readText value) }
  else if key = "content" then do
    return { fields with content := ← fill key fields.content (readText value) }
  else if key = "created" then do
    return { fields with created := ← fill key fields.created (readTimestamp value) }
  else if key = "modified" then do
    return { fields with modified := ← fill key fields.modified (readTimestamp value) }
  else .ok fields

/-- A directory from the entries of an object. -/
def directoryOfEntries (entries : List (String × Json)) : Except String Node := do
  let fields ← entries.foldlM
    (fun (fields : DirectoryFields) entry => fields.add entry.1 entry.2) {}
  let path ← require "path" fields.path
  let name ← require "name" fields.name
  return .directory path name (fields.children.getD [])

/-- A file from the entries of an object. -/
def fileOfEntries (entries : List (String × Json)) : Except String Node := do
  let fields ← entries.foldlM (fun (fields : FileFields) entry => fields.add entry.1 entry.2) {}
  let path ← require "path" fields.path
  let content ← require "content" fields.content
  let created ← require "created" fields.created
  let modified ← require "modified" fields.modified
  return .file path content created modified

/-- The value at a place in a list of fields. -/
def requireItem (index : Nat) (expected : String) : Option Json → Except String Json
  | some value => .ok value
  | none => .error s!"invalid length {index}, expected {expected}"

/-- Refuses more values than there are fields. -/
def refuseMore (items : List Json) (count : Nat) : Except String Unit :=
  if count < items.length then
    .error s!"invalid length {items.length}, expected {count} elements in sequence"
  else .ok ()

/-- A directory from its fields in order. -/
def directoryOfItems (items : List Json) : Except String Node := do
  let expected := "struct variant NodeRecord::Directory with 3 elements"
  let path ← readText (← requireItem 0 expected items[0]?)
  let name ← readText (← requireItem 1 expected items[1]?)
  let children ← (items[2]?.map readTexts).getD (.ok [])
  refuseMore items 3
  return .directory path name children

/-- A file from its fields in order. -/
def fileOfItems (items : List Json) : Except String Node := do
  let expected := "struct variant NodeRecord::File with 4 elements"
  let path ← readText (← requireItem 0 expected items[0]?)
  let content ← readText (← requireItem 1 expected items[1]?)
  let created ← readTimestamp (← requireItem 2 expected items[2]?)
  let modified ← readTimestamp (← requireItem 3 expected items[3]?)
  refuseMore items 4
  return .file path content created modified

/-- What stands beside the tag of a node: entries of an object, or the rest of a list. -/
inductive Body where
  | entries (entries : List (String × Json))
  | items (items : List Json)

/-- The node of a kind with a body. -/
def ofBody : NodeKind → Body → Except String Node
  | .directory, .entries entries => directoryOfEntries entries
  | .directory, .items items => directoryOfItems items
  | .file, .entries entries => fileOfEntries entries
  | .file, .items items => fileOfItems items

/-! ### Reading stored bytes -/

/-- The kind that a tag names. -/
def kindOfTag (tag : String) : Except String NodeKind :=
  if tag = "directory" then .ok .directory
  else if tag = "file" then .ok .file
  else .error s!"unknown variant `{tag}`, expected `directory` or `file`"

/-- The message for a value that is neither object nor list. -/
def untagged (value : Json) : String :=
  unexpected value "internally tagged enum NodeRecord"

/-- The message for a node without a tag. -/
def tagMissing : String := "missing field `type`"

open Json (Fault Input)

/-- An unsuitable value, noticed at the end of what was read. -/
def unsuitableAt (input : Input) (message : String) : Fault :=
  input.fault (.unsuitable message)

/-- Reads the tag of a node. A list or an object in its place is not read at all. -/
def readTag (input : Input) : Except Fault (NodeKind × Input) := do
  let input := input.skipSpace
  let b := input.rest.headD 0
  if b = Json.byte '[' then
    throw (unsuitableAt input (unexpected (.list []) "variant identifier"))
  else if b = Json.byte '\x7b' then
    throw (unsuitableAt input (unexpected (.object []) "variant identifier"))
  else
    match ← Json.readScalar input with
    | (.text tag, input) =>
      match kindOfTag tag with
      | .ok kind => return (kind, input)
      | .error message => throw (unsuitableAt input message)
    | (value, input) => throw (unsuitableAt input (unexpected value "variant identifier"))

/-- The input after an attempt to close an object. -/
def afterObject (input : Input) : Input :=
  let input := input.skipSpace
  if input.rest.head? = some (Json.byte '\x7d') then input.advance 1 else input

/-- Reads the entries of an object, among which the tag is found once. `depth` bounds the nesting
of the values, and the number of entries is below the number of bytes. -/
def readTagged (depth : Nat) : Nat → Bool → Option NodeKind → Input →
    Except Fault (NodeKind × List (String × Json) × Input)
  | 0, _, _, input => .error (input.fault .objectUnfinished)
  | fuel + 1, first, kind, input => do
    match ← Json.nextEntry first input with
    | (.finished, input) =>
      let input := input.advance 1
      match kind with
      | some kind => return (kind, [], input)
      | none => throw (unsuitableAt input tagMissing)
    | (.more, input) =>
      let (key, input) ← Json.readString (input.advance 1)
      if key = "type" then
        if kind.isSome then
          throw (unsuitableAt (afterObject input) "duplicate field `type`")
        let input ← Json.readColon input
        let (kind, input) ← readTag input
        readTagged depth fuel false (some kind) input
      else
        let input ← Json.readColon input
        let (value, input) ← Json.readValue depth input
        let (kind, entries, input) ← readTagged depth fuel false kind input
        return (kind, (key, value) :: entries, input)

/-- Reads the elements of a list, of which the first is the tag. -/
def readTaggedItems (depth : Nat) (input : Input) :
    Except Fault (NodeKind × List Json × Input) := do
  match ← Json.nextItem true input with
  | (.finished, input) => throw (unsuitableAt (input.advance 1) tagMissing)
  | (.more, input) =>
    let (kind, input) ← readTag input
    let (items, input) ← Json.readItems depth false input
    return (kind, items, input.advance 1)

/-- Reads the tag of a node and what stands beside it. -/
def readBody (input : Input) : Except Fault (NodeKind × Body × Input) := do
  let input := input.skipSpace
  let depth := Json.nestingLimit - 1
  let b := input.rest.headD 0
  if b = Json.byte '\x7b' then
    let (kind, entries, input) ←
      readTagged depth (input.rest.length + 1) true none (input.advance 1)
    return (kind, .entries entries, input)
  else if b = Json.byte '[' then
    let (kind, items, input) ← readTaggedItems depth (input.advance 1)
    return (kind, .items items, input)
  else
    let (value, input) ← Json.readScalar input
    throw (unsuitableAt input (untagged value))

/-- The node that some bytes store. What is wrong with the fields has no place in the text. -/
def decode (bytes : List UInt8) : Except Fault Node := do
  let (kind, body, input) ← readBody (Input.ofBytes bytes)
  match ofBody kind body with
  | .error message => throw ⟨.unsuitable message, none⟩
  | .ok node =>
    Json.finish input
    return node

/-! ### Reading a JSON value -/

/-- The kind that a value names. -/
def kindOfValue : Json → Except String NodeKind
  | .text tag => kindOfTag tag
  | value => .error (unexpected value "variant identifier")

/-- Takes the tag out of the entries of an object. -/
def takeTag : Option NodeKind → List (String × Json) →
    Except String (NodeKind × List (String × Json))
  | some kind, [] => .ok (kind, [])
  | none, [] => .error tagMissing
  | kind, (key, value) :: rest =>
    if key = "type" then
      if kind.isSome then .error "duplicate field `type`"
      else do takeTag (some (← kindOfValue value)) rest
    else do
      let (kind, entries) ← takeTag kind rest
      return (kind, (key, value) :: entries)

/-- The node that a JSON value stands for. -/
def ofJson : Json → Except String Node
  | .object entries => do
    let (kind, entries) ← takeTag none entries
    ofBody kind (.entries entries)
  | .list [] => .error tagMissing
  | .list (tag :: items) => do ofBody (← kindOfValue tag) (.items items)
  | value => .error (untagged value)

end Node
end VirtualShell
