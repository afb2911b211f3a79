import VirtualShell.Pattern.Atom

/-!
# Brackets of a pattern

Brackets hold the characters to choose from: single ones, ranges, classes with a name, and more
brackets. Two signs of a kind between them intersect or subtract. What is read of brackets is only
how deep they are.
-/

namespace VirtualShell
namespace Pattern

/-- How deep a sequence of parts is: one part is no sequence. -/
def sequenceDepth : List Nat → Nat
  | [] => 0
  | [depth] => depth
  | depths => depths.foldl max 0 + 1

/-- What was read of brackets that are still open. -/
structure OpenBrackets where
  /-- Whether nothing was read but hyphens. -/
  fresh : Bool := true
  /-- The depths of the items since the last operator. -/
  items : List Nat := []
  /-- The depth of what stands before the last operator, if there is one. -/
  operand : Option Nat := none

namespace OpenBrackets

/-- The brackets with one more item. -/
def add (b : OpenBrackets) (depth : Nat) : OpenBrackets :=
  { b with fresh := false, items := depth :: b.items }

/-- How deep the brackets are inside. -/
def depth (b : OpenBrackets) : Nat :=
  match b.operand with
  | none => sequenceDepth b.items
  | some operand => max operand (sequenceDepth b.items) + 1

/-- The brackets after an operator. -/
def operate (b : OpenBrackets) : OpenBrackets where
  fresh := false
  operand := some b.depth

end OpenBrackets

/-- The names of classes. -/
def classNames : List String :=
  ["alnum", "alpha", "ascii", "blank", "cntrl", "digit", "graph", "lower", "print", "punct",
    "space", "upper", "word", "xdigit"]

/-- Reads a class with a name after its opening bracket. The flag tells whether it is negated. -/
def readNamedClass : List Char → Option (Bool × List Char)
  | ':' :: rest =>
    let (negated, rest) := match rest with
      | '^' :: rest => (true, rest)
      | rest => (false, rest)
    match rest.span (· != ':') with
    | (name, ':' :: ']' :: rest) =>
      if classNames.contains (String.ofList name) then some (negated, rest) else none
    | _ => none
  | _ => none

/-- Whether a class with a name can be matched. -/
def namedClassIsAllowed (mode : Mode) (negated : Bool) : Bool :=
  if mode.unicode then !mode.caseless else !negated

/-- Reads what can stand at either end of a range. -/
def readInside (mode : Mode) : List Char → Option (Atom × List Char)
  | [] => none
  | '\\' :: rest => do
    let (atom, rest) ← readEscape mode rest
    if atom.isAllowedInside mode then some (atom, rest) else none
  | c :: rest =>
    let atom := Atom.literal c false
    if atom.isAllowedInside mode then some (atom, rest) else none

/-- Reads on after a hyphen to the end of a range, which must not lie before its start. -/
def readRangeEnd (mode : Mode) (first : Atom) (cs : List Char) : Option (List Char) := do
  let (last, rest) ← readInside mode (mode.skip cs)
  match first, last with
  | .literal first _, .literal last _ => if first ≤ last then some rest else none
  | _, _ => none

/-- Reads a single item or a range, and gives what follows. A hyphen before a bracket or another
hyphen makes no range. -/
def readRange (mode : Mode) (cs : List Char) : Option (List Char) := do
  let (first, rest) ← readInside mode cs
  match mode.skip rest with
  | '-' :: after =>
    match mode.peek after with
    | some ']' | some '-' => some ('-' :: after)
    | _ => readRangeEnd mode first after
  | rest => some rest

/-- Reads items up to the closing bracket, and gives the depth of the brackets. `steps` bounds the
number of items. -/
def readItems (mode : Mode) (readNested : List Char → Option (Nat × List Char)) :
    Nat → OpenBrackets → List Char → Option (Nat × List Char)
  | 0, _, _ => none
  | steps + 1, b, cs =>
    match mode.skip cs with
    | [] => none
    | c :: rest =>
      if b.fresh ∧ (c = '-' ∨ (c = ']' ∧ b.items.isEmpty)) then
        if (Atom.literal c false).isAllowedInside mode then
          readItems mode readNested steps { b.add 0 with fresh := c == '-' } rest
        else none
      else if c = ']' then some (b.depth + 1, rest)
      else if (c = '&' ∨ c = '-' ∨ c = '~') ∧ rest.head? = some c then
        readItems mode readNested steps b.operate (rest.drop 1)
      else if c = '[' then
        match readNamedClass rest with
        | some (negated, rest) =>
          if namedClassIsAllowed mode negated then
            readItems mode readNested steps (b.add 0) rest
          else none
        | none => do
          let (depth, rest) ← readNested rest
          readItems mode readNested steps (b.add depth) rest
      else do
        let rest ← readRange mode (c :: rest)
        readItems mode readNested steps (b.add 0) rest

/-- Reads brackets after the opening one, with fewer than `nesting` inside each other, and gives
their depth. Bytes outside ASCII cannot be matched, so brackets of bytes are not negated. -/
def readBrackets (mode : Mode) : Nat → List Char → Option (Nat × List Char)
  | 0, _ => none
  | nesting + 1, cs =>
    match mode.skip cs with
    | '^' :: rest =>
      if mode.unicode then
        readItems mode (readBrackets mode nesting) (rest.length + 1) {} rest
      else none
    | rest => readItems mode (readBrackets mode nesting) (rest.length + 1) {} rest

end Pattern
end VirtualShell
