import VirtualShell.Toml.Moment
import VirtualShell.Toml.Text

/-!
# TOML documents

A document is lines of entries and headers, which together make up one table. Nesting is bounded by
the format as it is read here: fewer than eighty brackets inside each other, and fewer than eighty
keys joined by points.
-/

namespace VirtualShell
namespace Toml

/-- The greatest number of brackets inside each other, and of keys joined by points. -/
def maxNesting : Nat := 79

/-! ### Keys -/

/-- The characters of keys without quotes. -/
def isKeyChar (c : Char) : Bool :=
  c.isAlphanum || c == '-' || c == '_'

/-- Reads one key. -/
def readKey (cs : List Char) : Option (String × List Char) :=
  match cs with
  | '"' :: _ | '\'' :: _ => readLineText cs
  | cs =>
    let (key, rest) := cs.span isKeyChar
    if key.isEmpty then none else some (String.ofList key, rest)

/-- Reads keys joined by points, at most `limit` of them. Blanks may stand around each. -/
def readKeys : Nat → List Char → Option (List String × List Char)
  | 0, _ => none
  | limit + 1, cs => do
    let (key, rest) ← readKey (skipBlanks cs)
    match skipBlanks rest with
    | '.' :: rest =>
      let (keys, rest) ← readKeys limit rest
      return (key :: keys, rest)
    | rest => return ([key], rest)

/-- Keys joined by points: the path to a table, and the key in it. -/
structure KeyPath where
  path : List String
  key : String

/-- The last key apart from those before it. -/
def KeyPath.ofKeys : List String → Option KeyPath
  | [] => none
  | [key] => some ⟨[], key⟩
  | first :: rest => (ofKeys rest).map fun p => ⟨first :: p.path, p.key⟩

/-- Reads keys joined by points. -/
def readKeyPath (cs : List Char) : Option (KeyPath × List Char) := do
  let (keys, rest) ← readKeys maxNesting cs
  return (← KeyPath.ofKeys keys, rest)

/-! ### Values -/

/-- A reader of values. -/
abbrev ValueReader := List Char → Option (Value × List Char)

/-- Reads the values of a list up to its closing bracket. Lines may end and comments may stand
between them, and a comma may follow the last one. `steps` bounds their number. -/
def readItems (read : ValueReader) : Nat → List Char → Option (List Value × List Char)
  | 0, _ => none
  | steps + 1, cs => do
    match ← skipLines false cs with
    | ']' :: rest => return ([], rest)
    | cs =>
      let (item, rest) ← read cs
      match ← skipLines false rest with
      | ',' :: rest =>
        let (items, rest) ← readItems read steps rest
        return (item :: items, rest)
      | ']' :: rest => return ([item], rest)
      | _ => none

/-- Reads a key path, an equals sign and a value. -/
def readEntry (read : ValueReader) (cs : List Char) : Option ((KeyPath × Value) × List Char) := do
  let (keyPath, rest) ← readKeyPath cs
  match rest with
  | '=' :: rest =>
    let (value, rest) ← read (skipBlanks rest)
    return ((keyPath, value), rest)
  | _ => none

/-- Reads the entries of a table up to its closing brace, at least one. They stand on one line, and
a comma stands between them only. `steps` bounds their number. -/
def readEntries (read : ValueReader) : Nat → Table → List Char → Option (Table × List Char)
  | 0, _, _ => none
  | steps + 1, table, cs => do
    let ((keyPath, value), rest) ← readEntry read cs
    let table ← table.addDotted keyPath.path keyPath.key value
    match skipBlanks rest with
    | ',' :: rest => readEntries read steps table rest
    | '\x7d' :: rest => return (table, rest)
    | _ => none

/-- Reads a value with at most `depth` brackets inside each other. -/
def readValue (depth : Nat) (cs : List Char) : Option (Value × List Char) :=
  match cs with
  | '"' :: _ | '\'' :: _ => (readText cs).map fun read => (.text read.1, read.2)
  | '[' :: rest =>
    match depth with
    | 0 => none
    | depth + 1 =>
      (readItems (readValue depth) cs.length rest).map fun read => (.list read.1, read.2)
  | '\x7b' :: rest =>
    match depth with
    | 0 => none
    | depth + 1 =>
      match skipBlanks rest with
      | '\x7d' :: rest => some (.table .closed [], rest)
      | rest =>
        (readEntries (readValue depth) cs.length ⟨.explicit, []⟩ rest).map fun read =>
          (.table .closed read.1.entries, read.2)
  | cs => readScalar cs

/-! ### Lines -/

/-- What was read of a document: the whole table, and the path to the part that entries go to. -/
structure Document where
  root : Table
  here : List String

namespace Document

/-- The document before its first line. -/
def empty : Document where
  root := ⟨.explicit, []⟩
  here := []

/-- The document with an entry in the table of the last header. -/
def addEntry (d : Document) (keyPath : KeyPath) (value : Value) : Option Document := do
  let root ← d.root.alter .passedThrough (Table.addDotted keyPath.path keyPath.key value) d.here
  return { d with root }

/-- Opens a table in the one above it: a new one, or one that was only passed through. It comes
last in the one above it. -/
def openTable (key : String) (parent : Table) : Option Table :=
  match parent.find? key with
  | none => some (parent.set key (.table .explicit []))
  | some (.table .passedThrough entries) =>
    some ((parent.erase key).set key (.table .explicit entries))
  | some _ => none

/-- Adds a table to a table array in the one above it. -/
def openRow (key : String) (parent : Table) : Option Table :=
  match parent.find? key with
  | none => some (parent.set key (.tables [[]]))
  | some (.tables rows) => some (parent.set key (.tables (rows ++ [[]])))
  | some _ => none

/-- The document after a header. -/
def enter (d : Document) (opening : String → Table → Option Table) (keyPath : KeyPath) :
    Option Document := do
  let root ← d.root.alter .passedThrough (opening keyPath.key) keyPath.path
  return ⟨root, keyPath.path ++ [keyPath.key]⟩

/-- Reads one line that is neither empty nor a comment. -/
def readLine (d : Document) (cs : List Char) : Option (Document × List Char) :=
  match cs with
  | '[' :: '[' :: rest => do
    let (keyPath, rest) ← readKeyPath rest
    match rest with
    | ']' :: ']' :: rest => return (← d.enter openRow keyPath, ← lineEnd? rest)
    | _ => none
  | '[' :: rest => do
    let (keyPath, rest) ← readKeyPath rest
    match rest with
    | ']' :: rest => return (← d.enter openTable keyPath, ← lineEnd? rest)
    | _ => none
  | cs => do
    let ((keyPath, value), rest) ← readEntry (readValue maxNesting) cs
    return (← d.addEntry keyPath value, ← lineEnd? rest)

/-- Reads all lines. `steps` bounds their number. -/
def readLines : Nat → Document → List Char → Option Document
  | 0, _, _ => none
  | steps + 1, d, cs =>
    match skipBlanks cs with
    | [] => some d
    | '#' :: rest => do readLines steps d (← lineEnd? ('#' :: rest))
    | c :: rest =>
      match newline? (c :: rest) with
      | some rest => readLines steps d rest
      | none => do
        let (d, rest) ← d.readLine (c :: rest)
        readLines steps d rest

end Document

/-- The text without a byte order mark at its start. -/
def skipMark : List Char → List Char
  | '\ufeff' :: rest => rest
  | cs => cs

/-- The entries of the table that a text is. -/
def read (s : String) : Option (List (String × Value)) := do
  let cs := skipMark s.toList
  let d ← Document.readLines (cs.length + 1) .empty cs
  settleDocument d.root.entries

end Toml
end VirtualShell
