/-!
# What can be wrong with a JSON text

A fault names the problem and, where one is known, the number of bytes before the place it was
noticed at. A message gives that place as line and column.
-/

namespace VirtualShell
namespace Json

/-- The problems of a text that is no JSON, and those of a JSON value that is not the one
wanted. -/
inductive Problem where
  | listUnfinished
  | objectUnfinished
  | stringUnfinished
  | valueUnfinished
  | colonExpected
  | listSeparatorExpected
  | objectSeparatorExpected
  | wordExpected
  | valueExpected
  | escapeInvalid
  | numberInvalid
  | numberOutOfRange
  | characterInvalid
  | controlCharacter
  | keyNotString
  | surrogateAlone
  | commaTrailing
  | charactersTrailing
  | surrogateUnfinished
  | nestingTooDeep
  | unsuitable (message : String)
  deriving DecidableEq, Repr

/-- The kinds of problems: the text ends too early, it is malformed, or its value is wrong. -/
inductive ProblemKind where
  | unfinished
  | malformed
  | unsuitable
  deriving DecidableEq, Repr

/-- The kind of a problem. -/
def Problem.kind : Problem → ProblemKind
  | .listUnfinished | .objectUnfinished | .stringUnfinished | .valueUnfinished => .unfinished
  | .unsuitable _ => .unsuitable
  | _ => .malformed

/-- The words for a problem. -/
def Problem.message : Problem → String
  | .listUnfinished => "EOF while parsing a list"
  | .objectUnfinished => "EOF while parsing an object"
  | .stringUnfinished => "EOF while parsing a string"
  | .valueUnfinished => "EOF while parsing a value"
  | .colonExpected => "expected `:`"
  | .listSeparatorExpected => "expected `,` or `]`"
  | .objectSeparatorExpected => "expected `,` or `\x7d`"
  | .wordExpected => "expected ident"
  | .valueExpected => "expected value"
  | .escapeInvalid => "invalid escape"
  | .numberInvalid => "invalid number"
  | .numberOutOfRange => "number out of range"
  | .characterInvalid => "invalid unicode code point"
  | .controlCharacter => "control character (\\u0000-\\u001F) found while parsing a string"
  | .keyNotString => "key must be a string"
  | .surrogateAlone => "lone leading surrogate in hex escape"
  | .commaTrailing => "trailing comma"
  | .charactersTrailing => "trailing characters"
  | .surrogateUnfinished => "unexpected end of hex escape"
  | .nestingTooDeep => "recursion limit exceeded"
  | .unsuitable message => message

/-- A problem, with the number of bytes before its place. -/
structure Fault where
  problem : Problem
  index : Option Nat
  deriving DecidableEq, Repr

/-- The line of the place after some bytes, counted from one, and the bytes of that line before
it. -/
def linePosition (before : List UInt8) : Nat × Nat :=
  (before.count 0x0A + 1, (before.reverse.takeWhile (· ≠ 0x0A)).length)

/-- The words for a fault in a text. -/
def Fault.message (fault : Fault) (text : List UInt8) : String :=
  match fault.index with
  | none => fault.problem.message
  | some index =>
    let position := linePosition (text.take index)
    s!"{fault.problem.message} at line {position.1} column {position.2}"

/-- Gives a fault without a place the place `index`. -/
def Fault.placedAt (index : Nat) (fault : Fault) : Fault :=
  match fault.index with
  | some _ => fault
  | none => { fault with index := some index }

end Json
end VirtualShell
