/-!
# Paths of the machine

Files of the machine the program runs on have paths of their own, which start at the root or at the
working directory. Slashes may be repeated, and a component that is a single point stays where it
is. Two paths to one place can be different texts, and the machine looks at the text: how long it
is, how it ends, and what it leads through.
-/

namespace VirtualShell
namespace NativePath

/-- Whether a path starts at the root. -/
def isAbsolute (path : String) : Bool :=
  path.toList.head? == some '/'

/-- Whether a path ends with a slash, and so can only mean a directory. -/
def endsWithSlash (path : String) : Bool :=
  path.toList.getLast? == some '/'

/-- The stretches of characters between slashes. -/
def stretches : List Char → List (List Char)
  | [] => [[]]
  | c :: cs =>
    if c = '/' then [] :: stretches cs
    else
      match stretches cs with
      | [] => [[c]]
      | first :: rest => (c :: first) :: rest

/-- The names that the machine goes through one after the other, with single points for the
directory it is in and two points for the one above. -/
def steps (path : String) : List String :=
  ((stretches path.toList).map String.ofList).filter (· ≠ "")

/-- The names in a path. Two points count as a name, a single point does not. -/
def components (path : String) : List String :=
  (steps path).filter (· ≠ ".")

/-- A path below another one. A path from the root stays what it is, and so does one below the
empty path. -/
def join (base path : String) : String :=
  if isAbsolute path ∨ base.isEmpty then path
  else if endsWithSlash base then base ++ path
  else base ++ "/" ++ path

/-- The path that some names make up, from the root or not. -/
def ofComponents (absolute : Bool) (names : List String) : String :=
  (if absolute then "/" else "") ++ String.intercalate "/" names

/-! ### The last name -/

/-- A path as what it starts from, which is the slash of the root, a point for the working
directory, or nothing, and the stretches after that, last to first. -/
structure Cut where
  start : String
  stretches : List String

/-- The parts of a path. -/
def cut (path : String) : Cut :=
  let after (cs : List Char) : List String := ((stretches cs).map String.ofList).reverse
  match path.toList with
  | '/' :: rest => ⟨"/", after rest⟩
  | ['.'] => ⟨".", []⟩
  | '.' :: '/' :: rest => ⟨".", after ('/' :: rest)⟩
  | cs => ⟨"", after cs⟩

/-- The parts without the empty stretches and single points at the end. -/
def Cut.trim (c : Cut) : Cut :=
  { c with stretches := c.stretches.dropWhile fun stretch => stretch = "" || stretch = "." }

/-- The path of some parts. -/
def Cut.path (c : Cut) : String :=
  c.start ++ String.intercalate "/" c.stretches.reverse

/-- The path without its last name and what surrounds that. The rest of its text stays the same.
The root has none, and neither has an empty path. -/
def parent? (path : String) : Option String :=
  let c := (cut path).trim
  match c.stretches with
  | [] => if c.start = "." then some "" else none
  | _ :: above => some (Cut.trim ⟨c.start, above⟩).path

/-- The paths above a path, nearest first, at most `count` of them. -/
def parentsWith : Nat → String → List String
  | 0, _ => []
  | count + 1, path =>
    match parent? path with
    | some above => above :: parentsWith count above
    | none => []

/-- The paths above a path, nearest first. Each is shorter than the one before, so the length of
the path bounds how many there are. -/
def parents (path : String) : List String :=
  parentsWith path.length path

/-- The path with more characters at the end of its last name, and nothing after that. A path
without such a name stays what it is. -/
def extend (path ending : String) : String :=
  let c := (cut path).trim
  match c.stretches with
  | [] | ".." :: _ => path
  | _ => c.path ++ ending

/-! ### The way from a directory -/

/-- The names left of two lists after those that they start with in common. -/
def afterCommon : List String → List String → List String × List String
  | a :: as, b :: bs => if a = b then afterCommon as bs else (a :: as, b :: bs)
  | as, bs => (as, bs)

/-- The way to a path from the root, seen from a directory. -/
def relativeTo (directory path : String) : String :=
  let (names, above) := afterCommon (components path) (components directory)
  ofComponents false (above.map (fun _ => "..") ++ names)

end NativePath
end VirtualShell
