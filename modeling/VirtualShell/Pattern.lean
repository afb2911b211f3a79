import VirtualShell.Pattern.Brackets

/-!
# Patterns

Regular expressions as values of fields in a filter. They are only checked here, since nothing is
ever matched with them: a pattern is well formed, or it is not, or it asks for the ends of words,
which the machine behind the filter cannot tell. Parts may lie in each other up to a limit, where
brackets, groups, repetitions, sequences and choices each count.
-/

namespace VirtualShell
namespace Pattern

/-- Why a text is no pattern for a filter. -/
inductive Fault where
  | malformed
  | unsupported
  deriving DecidableEq, Repr

/-- The words for a fault of a pattern. -/
def Fault.message : Fault → String
  | .malformed => "error building NFA"
  | .unsupported =>
    "unsupported regex feature for DFAs: cannot build DFAs for regexes with Unicode word " ++
      "boundaries; switch to ASCII word boundaries, or heuristically enable Unicode word " ++
      "boundaries or use a different regex engine"

/-- How deep parts may lie in each other. -/
def maxDepth : Nat := 250

/-- A part of a pattern: how deep it is, and whether it can be repeated. -/
structure Part where
  depth : Nat := 0
  repeatable : Bool := true

/-- What was read of a pattern or of a group that is still open. -/
structure Reading where
  mode : Mode := {}
  /-- The names of the groups so far. -/
  names : List String := []
  /-- Whether the end of a word was asked for. -/
  asksForWords : Bool := false
  /-- The depths of the choices before the current one. -/
  choices : List Nat := []
  /-- The parts of the current choice, the last one first. -/
  parts : List Part := []

namespace Reading

/-- The reading with one more part. -/
def add (r : Reading) (part : Part) : Reading :=
  { r with parts := part :: r.parts }

/-- The depth of the current choice. -/
def choiceDepth (r : Reading) : Nat :=
  sequenceDepth (r.parts.map (·.depth))

/-- The reading at the start of another choice. -/
def choose (r : Reading) : Reading :=
  { r with choices := r.choiceDepth :: r.choices, parts := [] }

/-- The depth of all that was read. -/
def depth (r : Reading) : Nat :=
  if r.choices.isEmpty then r.choiceDepth else sequenceDepth (r.choiceDepth :: r.choices)

/-- The reading with its last part repeated. -/
def repeatLast (r : Reading) : Option Reading :=
  match r.parts with
  | part :: parts =>
    if part.repeatable then some { r with parts := { depth := part.depth + 1 } :: parts } else none
  | [] => none

/-- The reading with one more character or place. -/
def addAtom (r : Reading) (atom : Atom) : Option Reading :=
  if atom.isAllowed r.mode then
    some (add { r with asksForWords := r.asksForWords || atom.needsWords r.mode } {})
  else none

end Reading

/-! ### Groups -/

/-- Whether a group can have a name. -/
def isGroupName : List Char → Bool
  | [] => false
  | first :: rest =>
    (first == '_' || Text.isAlphabetic first) &&
      rest.all fun c => ['_', '.', '[', ']'].contains c || Text.isAlphanumeric c

/-- What an opening parenthesis does. -/
inductive Opening where
  /-- Sets the mode of what follows in the same group. -/
  | setting (mode : Mode)
  /-- Starts a group. -/
  | group (mode : Mode) (names : List String)

/-- Reads the name of a group, which no group before may have. -/
def readName (r : Reading) (cs : List Char) : Option (Opening × List Char) :=
  match cs.span (· != '>') with
  | (name, '>' :: rest) =>
    if isGroupName name ∧ String.ofList name ∉ r.names then
      some (.group r.mode (String.ofList name :: r.names), rest)
    else none
  | _ => none

/-- Reads what follows an opening parenthesis: a name, flags, or nothing. -/
def readOpening (r : Reading) (cs : List Char) : Option (Opening × List Char) :=
  match r.mode.skip cs with
  | '?' :: 'P' :: '<' :: rest | '?' :: '<' :: rest => readName r rest
  | '?' :: rest =>
    match rest.span fun c => c != ':' && c != ')' with
    | (flags, last :: rest) =>
      if areFlags flags then
        let mode := r.mode.set true flags
        if last = ':' then some (.group mode r.names, rest)
        else if flags.isEmpty then none
        else some (.setting mode, rest)
      else none
    | _ => none
  | rest => some (.group r.mode r.names, rest)

/-! ### Parts -/

/-- A reader of groups. -/
abbrev GroupReader := Reading → List Char → Option (Reading × List Char)

/-- Reads the part that starts with a character. -/
def readPart (readGroup : GroupReader) (r : Reading) (c : Char) (rest : List Char) :
    Option (Reading × List Char) :=
  match c with
  | '(' => readGroup r rest
  | '|' => some (r.choose, rest)
  | '[' => (readBrackets r.mode maxDepth rest).map fun (depth, rest) => (r.add { depth }, rest)
  | '?' | '*' | '+' => do
    let r ← r.repeatLast
    match rest with
    | '?' :: rest => some (r, rest)
    | rest => some (r, rest)
  | '\x7b' => none
  | '\\' => do
    let (atom, rest) ← readEscape r.mode rest
    return (← r.addAtom atom, rest)
  | '.' => (r.addAtom .anything).map (·, rest)
  | '^' | '$' => (r.addAtom (.place false)).map (·, rest)
  | c => (r.addAtom (.literal c false)).map (·, rest)

/-- Reads parts up to the end of the group or of the text. `steps` bounds their number. -/
def readParts (readGroup : GroupReader) : Nat → GroupReader
  | 0, _, _ => none
  | steps + 1, r, cs =>
    match r.mode.skip cs with
    | [] => some (r, [])
    | ')' :: rest => some (r, ')' :: rest)
    | c :: rest => do
      let (r, rest) ← readPart readGroup r c rest
      readParts readGroup steps r rest

/-- Reads a group after its opening parenthesis, with fewer than `nesting` inside each other. The
mode is again what it was after the group. -/
def readGroup : Nat → GroupReader
  | 0, _, _ => none
  | nesting + 1, r, cs => do
    match ← readOpening r cs with
    | (.setting mode, rest) => some (Reading.add { r with mode } { repeatable := false }, rest)
    | (.group mode names, rest) =>
      let inside : Reading := { mode, names, asksForWords := r.asksForWords }
      match ← readParts (readGroup nesting) (rest.length + 1) inside rest with
      | (inside, ')' :: rest) =>
        let r := { r with names := inside.names, asksForWords := inside.asksForWords }
        some (r.add { depth := inside.depth + 1 }, rest)
      | _ => none

/-- Checks that a text is a pattern for a filter. -/
def check (s : String) : Except Fault Unit :=
  let cs := s.toList
  match readParts (readGroup (maxDepth + 1)) (cs.length + 1) {} cs with
  | some (r, []) =>
    if maxDepth < r.depth then .error .malformed
    else if r.asksForWords then .error .unsupported
    else .ok ()
  | _ => .error .malformed

end Pattern
end VirtualShell
