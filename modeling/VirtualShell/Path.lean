import VirtualShell.Text.Quoted

/-!
# Paths

A canonical path is the root `~`, or the root followed by components that each have a `/` before
them; no component is empty, `.` or `..`. Canonical paths are the keys of a store. What a user
types is resolved to a canonical path against a working directory; the operations on paths are
defined for every text, canonical or not.
-/

namespace VirtualShell

/-- What keeps a text from being a path. -/
inductive PathError where
  | controlCharacter (raw : String)
  deriving DecidableEq, Repr

/-- The words for a path error. -/
def PathError.message : PathError → String
  | .controlCharacter raw => "invalid path: " ++ Text.quoted raw

namespace Path

/-- The path of the root directory, which is also its name. -/
def root : String := "~"

/-- The character between components. -/
def separator : Char := '/'

/-- The parts of a text between its separators. -/
def split : List Char → List (List Char)
  | [] => [[]]
  | c :: cs =>
    if c = separator then [] :: split cs
    else
      match split cs with
      | [] => [[c]]
      | part :: parts => (c :: part) :: parts

/-- The components below the root, for a text that starts at the root or leaves it out. -/
def components (path : String) : List (List Char) :=
  let parts := split path.toList
  let below := if parts.head? = some root.toList then parts.tail else parts
  below.filter fun part => !part.isEmpty

/-- The path of some components below the root. -/
def ofComponents (parts : List (List Char)) : String :=
  String.ofList (root.toList ++ parts.flatMap fun part => separator :: part)

/-- Follows one segment of a path: nothing and `.` stay, `..` goes up but not above the root, and
any other segment goes down. -/
def follow (position : List (List Char)) (segment : List Char) : List (List Char) :=
  if segment = [] ∨ segment = ['.'] then position
  else if segment = ['.', '.'] then position.dropLast
  else position ++ [segment]

/-- The components where a path starts, and the text to be followed from there. A leading `~/` or
`/` starts at the root, anything else at the working directory. -/
def start (raw cwd : String) : List (List Char) × List Char :=
  match raw.toList with
  | '~' :: '/' :: rest => ([], rest)
  | '/' :: rest => ([], rest)
  | rest => (components cwd, rest)

/-- The canonical path that `raw` means in the working directory `cwd`. Only control characters
are refused. -/
def resolve (raw cwd : String) : Except PathError String :=
  if raw.toList.any Text.isControl then .error (.controlCharacter raw)
  else if raw = "" ∨ raw = root then .ok root
  else
    let (position, rest) := start raw cwd
    .ok (ofComponents ((split rest).foldl follow position))

/-- The part before the last separator. The root has none. -/
def parent? (path : String) : Option String :=
  match path.toList.reverse.dropWhile (· ≠ separator) with
  | [] => none
  | _ :: parent => some (String.ofList parent.reverse)

/-- The part after the last separator. The root's name is the root. -/
def name (path : String) : String :=
  String.ofList (path.toList.reverse.takeWhile (· ≠ separator)).reverse

/-- The path of an entry of a directory. -/
def join (parent name : String) : String :=
  parent ++ "/" ++ name

/-- What the paths of everything below a directory begin with. -/
def childStem (path : String) : String :=
  path ++ "/"

/-- Whether `path` is `ancestor` or lies below it. -/
def isWithin (path ancestor : String) : Bool :=
  path == ancestor || (childStem ancestor).toList.isPrefixOf path.toList

/-- Whether `key` is `stem` followed by one component. -/
def isDirectChild (key stem : String) : Bool :=
  stem.toList.isPrefixOf key.toList &&
    (let rest := key.toList.drop stem.length
     !rest.isEmpty && !rest.contains separator)

end Path
end VirtualShell
