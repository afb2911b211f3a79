import VirtualShell.Json.Fault
import VirtualShell.Json.Value
import VirtualShell.Text.Utf8

/-!
# Reading JSON

A reader of bytes that stops at the first problem. The place of a problem is the end of what was
read so far, or one byte further when the next byte was only looked at. Whole numbers that fit into
64 bits stay whole; a number with a point, an exponent or too many digits is real.
-/

namespace VirtualShell
namespace Json

open Decimal (Binary64)

/-- The bytes still to be read and the number of those already read. -/
structure Input where
  rest : List UInt8
  index : Nat

/-- The whole of a text. -/
def Input.ofBytes (bytes : List UInt8) : Input :=
  ⟨bytes, 0⟩

/-- The input after `count` more bytes. -/
def Input.advance (input : Input) (count : Nat) : Input :=
  ⟨input.rest.drop count, input.index + count⟩

/-- A problem at the end of what was read. -/
def Input.fault (input : Input) (problem : Problem) : Fault :=
  ⟨problem, some input.index⟩

/-- A problem with the next byte, or with there being none. -/
def Input.faultAtNext (input : Input) (problem : Problem) : Fault :=
  ⟨problem, some (if input.rest.isEmpty then input.index else input.index + 1)⟩

/-- Space, tab, line feed and carriage return. -/
def isSpace (b : UInt8) : Bool :=
  b == 0x20 || b == 0x09 || b == 0x0A || b == 0x0D

/-- The input without leading space. -/
def Input.skipSpace (input : Input) : Input :=
  input.advance (input.rest.takeWhile isSpace).length

/-- The decimal digits, as bytes. -/
def isDigit (b : UInt8) : Bool :=
  0x30 ≤ b && b ≤ 0x39

/-- The byte of an ASCII character. -/
def byte (c : Char) : UInt8 :=
  c.toNat.toUInt8

/-! ### Numbers -/

/-- The greatest whole number of 64 bits. -/
def maxUnsigned : Nat := Decimal.twoTo 64 - 1

/-- The greatest signed number of 32 bits, beyond which an exponent is not kept. -/
def maxExponent : Nat := Decimal.twoTo 31 - 1

/-- Digits appended to a number as long as it stays up to `limit`. -/
structure DigitRun where
  value : Nat
  count : Nat
  /-- Whether one more digit follows that would take the number past the limit. -/
  overflows : Bool

/-- Reads digits into `value`. -/
def readDigits (limit : Nat) (value count : Nat) : List UInt8 → DigitRun
  | [] => ⟨value, count, false⟩
  | b :: rest =>
    if isDigit b then
      let next := value * 10 + (b.toNat - 0x30)
      if limit < next then ⟨value, count, true⟩ else readDigits limit next (count + 1) rest
    else ⟨value, count, false⟩

/-- Divides by `10 ^ 308` as often as the exponent is below what one division can settle, and then
settles the rest. A nonzero number that leaves the range upwards gives nothing. -/
def scaleDown : Nat → Binary64 → Int → Option Binary64
  | 0, x, _ => some x
  | fuel + 1, x, exponent =>
    if exponent.natAbs ≤ 308 then
      match x.scaleByTen exponent with
      | .infinite _ => none
      | scaled => some scaled
    else if x.isZero then some x
    else if 0 ≤ exponent then none
    else scaleDown fuel (x.scaleByTen (-308)) (exponent + 308)

/-- The real number `significand * 10 ^ exponent`, rounded after each step. -/
def realNumber (negative : Bool) (significand : Nat) (exponent : Int) (input : Input) :
    Except Fault (Json × Input) :=
  match scaleDown 4 (Binary64.ofNat significand) exponent with
  | none => .error (input.fault .numberOutOfRange)
  | some x => .ok (.real (if negative then x.negate else x), input)

/-- Reads the power of ten of a number, whose mark is the next byte. -/
def readExponent (negative : Bool) (significand : Nat) (start : Int) (input : Input) :
    Except Fault (Json × Input) :=
  let input := input.advance 1
  let signed := input.rest.head? == some (byte '+') || input.rest.head? == some (byte '-')
  let down := input.rest.head? == some (byte '-')
  let input := if signed then input.advance 1 else input
  match input.rest with
  | [] => .error (input.fault .valueUnfinished)
  | b :: _ =>
    if isDigit b then
      let run := readDigits maxExponent 0 0 input.rest
      let input := input.advance run.count
      if run.overflows then
        let input := input.advance 1
        if significand ≠ 0 ∧ !down then .error (input.fault .numberOutOfRange)
        else
          let input := input.advance (input.rest.takeWhile isDigit).length
          .ok (.real (.finite negative 0 Binary64.minExponent), input)
      else
        realNumber negative significand (if down then start - run.value else start + run.value)
          input
    else .error ((input.advance 1).fault .numberInvalid)

/-- Whether the next byte marks a power of ten. -/
def Input.atExponent (input : Input) : Bool :=
  input.rest.head? == some (byte 'e') || input.rest.head? == some (byte 'E')

/-- Reads on after the digits of a fraction. -/
def readAfterFraction (negative : Bool) (significand : Nat) (exponent : Int) (input : Input) :
    Except Fault (Json × Input) :=
  if input.atExponent then readExponent negative significand exponent input
  else realNumber negative significand exponent input

/-- Reads a fraction, whose point is the next byte. Digits past 64 bits are skipped. -/
def readFraction (negative : Bool) (significand : Nat) (start : Int) (input : Input) :
    Except Fault (Json × Input) :=
  let input := input.advance 1
  let run := readDigits maxUnsigned significand 0 input.rest
  let input := input.advance run.count
  let exponent := start - run.count
  if run.overflows then
    readAfterFraction negative run.value exponent
      (input.advance (input.rest.takeWhile isDigit).length)
  else if run.count = 0 then
    .error (input.faultAtNext (if input.rest.isEmpty then .valueUnfinished else .numberInvalid))
  else readAfterFraction negative run.value exponent input

/-- Reads on after the whole part of a number that fits into 64 bits. -/
def readAfterWhole (negative : Bool) (significand : Nat) (input : Input) :
    Except Fault (Json × Input) :=
  if input.rest.head? == some (byte '.') then readFraction negative significand 0 input
  else if input.atExponent then readExponent negative significand 0 input
  else if !negative then .ok (.integer significand, input)
  else if significand = 0 ∨ Decimal.twoTo 63 < significand then
    .ok (.real (Binary64.ofNat significand).negate, input)
  else .ok (.integer (-significand), input)

/-- Reads a number after its sign. -/
def readNumber (negative : Bool) (input : Input) : Except Fault (Json × Input) :=
  match input.rest with
  | [] => .error (input.fault .valueUnfinished)
  | b :: rest =>
    if b = byte '0' then
      if (rest.head?.map isDigit).getD false then
        .error ((input.advance 1).faultAtNext .numberInvalid)
      else readAfterWhole negative 0 (input.advance 1)
    else if isDigit b then
      let run := readDigits maxUnsigned 0 0 input.rest
      let input := input.advance run.count
      if run.overflows then
        let extra := (input.rest.takeWhile isDigit).length
        let input := input.advance extra
        if input.rest.head? == some (byte '.') then readFraction negative run.value extra input
        else readAfterFraction negative run.value extra input
      else readAfterWhole negative run.value input
    else .error ((input.advance 1).fault .numberInvalid)

/-! ### Strings -/

/-- The value of a hexadecimal digit. -/
def hexDigit? (b : UInt8) : Option Nat :=
  if isDigit b then some (b.toNat - 0x30)
  else if 0x61 ≤ b && b ≤ 0x66 then some (b.toNat - 0x57)
  else if 0x41 ≤ b && b ≤ 0x46 then some (b.toNat - 0x37)
  else none

/-- The value of four hexadecimal digits. -/
def hexFour? (a b c d : UInt8) : Option Nat := do
  let a ← hexDigit? a
  let b ← hexDigit? b
  let c ← hexDigit? c
  let d ← hexDigit? d
  return ((a * 16 + b) * 16 + c) * 16 + d

/-- Reads four hexadecimal digits, with `index` bytes before them. -/
def readHexFour (index : Nat) : List UInt8 → Except Fault Nat
  | a :: b :: c :: d :: _ =>
    match hexFour? a b c d with
    | some n => .ok n
    | none => .error ⟨.escapeInvalid, some (index + 4)⟩
  | short => .error ⟨.stringUnfinished, some (index + short.length)⟩

/-- Reads the second half of a surrogate pair, with `index` bytes before it. -/
def readLowSurrogate (index : Nat) : List UInt8 → Except Fault Nat
  | [] => .error ⟨.stringUnfinished, some index⟩
  | s :: rest =>
    if s ≠ byte '\\' then .error ⟨.surrogateUnfinished, some (index + 1)⟩
    else
      match rest with
      | [] => .error ⟨.stringUnfinished, some (index + 1)⟩
      | u :: rest =>
        if u ≠ byte 'u' then .error ⟨.surrogateUnfinished, some (index + 2)⟩
        else do
          let low ← readHexFour (index + 2) rest
          if low < 0xDC00 ∨ 0xDFFF < low then .error ⟨.surrogateAlone, some (index + 6)⟩
          else .ok low

/-- The character that a one-letter escape stands for. -/
def simpleEscape? (b : UInt8) : Option Char :=
  if b = byte '"' then some '"'
  else if b = byte '\\' then some '\\'
  else if b = byte '/' then some '/'
  else if b = byte 'b' then some '\x08'
  else if b = byte 'f' then some '\x0c'
  else if b = byte 'n' then some '\n'
  else if b = byte 'r' then some '\r'
  else if b = byte 't' then some '\t'
  else none

/-- Reads an escape after its backslash, up to which there are `index` bytes: the character that it
stands for, and the number of its bytes. -/
def readEscape (index : Nat) : List UInt8 → Except Fault (Char × Nat)
  | [] => .error ⟨.stringUnfinished, some index⟩
  | e :: rest =>
    if e = byte 'u' then do
      let high ← readHexFour (index + 1) rest
      if 0xDC00 ≤ high ∧ high ≤ 0xDFFF then .error ⟨.surrogateAlone, some (index + 5)⟩
      else if 0xD800 ≤ high ∧ high ≤ 0xDBFF then
        let low ← readLowSurrogate (index + 5) (rest.drop 4)
        .ok (Char.ofNat (0x10000 + (high - 0xD800) * 0x400 + (low - 0xDC00)), 11)
      else .ok (Char.ofNat high, 5)
    else
      match simpleEscape? e with
      | some c => .ok (c, 1)
      | none => .error ⟨.escapeInvalid, some (index + 1)⟩

/-- The text that the bytes of a string are once its escapes are replaced, where the string ends
after `index` bytes. Of bytes that are no text the place is told by how far they are from the end,
as if no escape had gone before them. -/
def decodeString (bytes : List UInt8) (index : Nat) : Except Fault String :=
  match Text.Utf8.decode bytes with
  | .ok s => .ok s
  | .error fault => .error ⟨.characterInvalid, some (index - (bytes.length - fault.index))⟩

/-- Reads on to the closing quote of a string. `done` holds its bytes so far, last to first, with
those of a character in place of every escape. The next `skipped` bytes belong to an escape. -/
def readStringAfter (skipped : Nat) (done : List UInt8) (index : Nat) :
    List UInt8 → Except Fault (List UInt8 × Input)
  | [] => .error ⟨.stringUnfinished, some index⟩
  | b :: rest =>
    match skipped with
    | skipped + 1 => readStringAfter skipped done (index + 1) rest
    | 0 =>
      if b = byte '"' then .ok (done.reverse, ⟨rest, index + 1⟩)
      else if b = byte '\\' then do
        let (c, size) ← readEscape (index + 1) rest
        readStringAfter size ((String.utf8EncodeChar c).reverse ++ done) (index + 1) rest
      else if b < 0x20 then .error ⟨.controlCharacter, some (index + 1)⟩
      else readStringAfter 0 (b :: done) (index + 1) rest

/-- Reads a string after its opening quote. What its bytes mean is looked at when all of them are
read, so a fault of an escape comes before one of a character. -/
def readString (input : Input) : Except Fault (String × Input) := do
  let (bytes, input) ← readStringAfter 0 [] input.index input.rest
  return (← decodeString bytes input.index, input)

/-! ### Values -/

/-- Reads the bytes of a word. -/
def readWord : List Char → Input → Except Fault Input
  | [], input => .ok input
  | c :: cs, input =>
    match input.rest with
    | [] => .error (input.fault .valueUnfinished)
    | b :: _ =>
      if b = byte c then readWord cs (input.advance 1)
      else .error ((input.advance 1).fault .wordExpected)

/-- Reads a value that is neither list nor object, whose first byte is next. -/
def readScalar (input : Input) : Except Fault (Json × Input) :=
  match input.rest with
  | [] => .error (input.faultAtNext .valueUnfinished)
  | b :: _ =>
    if b = byte 'n' then
      (readWord ['u', 'l', 'l'] (input.advance 1)).map fun input => (.null, input)
    else if b = byte 't' then
      (readWord ['r', 'u', 'e'] (input.advance 1)).map fun input => (.boolean true, input)
    else if b = byte 'f' then
      (readWord ['a', 'l', 's', 'e'] (input.advance 1)).map fun input => (.boolean false, input)
    else if b = byte '-' then readNumber true (input.advance 1)
    else if isDigit b then readNumber false input
    else if b = byte '"' then
      (readString (input.advance 1)).map fun (s, input) => (.text s, input)
    else .error (input.faultAtNext .valueExpected)

/-- What follows in a list or an object: its end, or one more element. -/
inductive Continuation where
  | finished
  | more

/-- Looks for the next element of a list, after an element or at the first one. -/
def nextItem (first : Bool) (input : Input) : Except Fault (Continuation × Input) :=
  let input := input.skipSpace
  match input.rest with
  | [] => .error (input.faultAtNext .listUnfinished)
  | b :: _ =>
    if b = byte ']' then .ok (.finished, input)
    else if first then .ok (.more, input)
    else if b = byte ',' then
      let input := (input.advance 1).skipSpace
      match input.rest with
      | [] => .error (input.faultAtNext .valueUnfinished)
      | b :: _ =>
        if b = byte ']' then .error (input.faultAtNext .commaTrailing) else .ok (.more, input)
    else .error (input.faultAtNext .listSeparatorExpected)

/-- Looks for the next entry of an object. Its key then starts at the next byte. -/
def nextEntry (first : Bool) (input : Input) : Except Fault (Continuation × Input) :=
  let input := input.skipSpace
  match input.rest with
  | [] => .error (input.faultAtNext .objectUnfinished)
  | b :: _ =>
    if b = byte '\x7d' then .ok (.finished, input)
    else if first then
      if b = byte '"' then .ok (.more, input) else .error (input.faultAtNext .keyNotString)
    else if b = byte ',' then
      let input := (input.advance 1).skipSpace
      match input.rest with
      | [] => .error (input.faultAtNext .valueUnfinished)
      | b :: _ =>
        if b = byte '"' then .ok (.more, input)
        else if b = byte '\x7d' then .error (input.faultAtNext .commaTrailing)
        else .error (input.faultAtNext .keyNotString)
    else .error (input.faultAtNext .objectSeparatorExpected)

/-- Reads the colon between key and value. -/
def readColon (input : Input) : Except Fault Input :=
  let input := input.skipSpace
  match input.rest with
  | [] => .error (input.faultAtNext .objectUnfinished)
  | b :: _ =>
    if b = byte ':' then .ok (input.advance 1) else .error (input.faultAtNext .colonExpected)

mutual

/-- Reads a value. `depth` is the number of lists and objects that may still be entered, plus
one. -/
def readValueWith : Nat → Nat → Input → Except Fault (Json × Input)
  | 0, _, input => .error (input.fault .valueUnfinished)
  | fuel + 1, depth, input =>
    let input := input.skipSpace
    let b := input.rest.headD 0
    if b = byte '[' then
      if depth ≤ 1 then .error (input.faultAtNext .nestingTooDeep)
      else do
        let (items, input) ← readItemsWith fuel (depth - 1) true (input.advance 1)
        return (.list items, input.advance 1)
    else if b = byte '\x7b' then
      if depth ≤ 1 then .error (input.faultAtNext .nestingTooDeep)
      else do
        let (entries, input) ← readEntriesWith fuel (depth - 1) true (input.advance 1)
        return (.object entries, input.advance 1)
    else readScalar input

/-- Reads the elements of a list up to its closing bracket. -/
def readItemsWith : Nat → Nat → Bool → Input → Except Fault (List Json × Input)
  | 0, _, _, input => .error (input.fault .listUnfinished)
  | fuel + 1, depth, first, input => do
    match ← nextItem first input with
    | (.finished, input) => return ([], input)
    | (.more, input) =>
      let (item, input) ← readValueWith fuel depth input
      let (items, input) ← readItemsWith fuel depth false input
      return (item :: items, input)

/-- Reads the entries of an object up to its closing brace. -/
def readEntriesWith : Nat → Nat → Bool → Input → Except Fault (List (String × Json) × Input)
  | 0, _, _, input => .error (input.fault .objectUnfinished)
  | fuel + 1, depth, first, input => do
    match ← nextEntry first input with
    | (.finished, input) => return ([], input)
    | (.more, input) =>
      let (key, input) ← readString (input.advance 1)
      let input ← readColon input
      let (value, input) ← readValueWith fuel depth input
      let (entries, input) ← readEntriesWith fuel depth false input
      return ((key, value) :: entries, input)

end

/-- Lists and objects may be nested in each other 127 deep. -/
def nestingLimit : Nat := 128

/-- Reads a value. Every step takes at least one byte, so the number of bytes bounds the steps. -/
def readValue (depth : Nat) (input : Input) : Except Fault (Json × Input) :=
  readValueWith (2 * input.rest.length + 2) depth input

/-- Reads the rest of a list's elements. -/
def readItems (depth : Nat) (first : Bool) (input : Input) : Except Fault (List Json × Input) :=
  readItemsWith (2 * input.rest.length + 2) depth first input

/-- Refuses anything but space at the end of a text. -/
def finish (input : Input) : Except Fault Unit :=
  let input := input.skipSpace
  if input.rest.isEmpty then .ok () else .error (input.faultAtNext .charactersTrailing)

/-- The value that a text is. -/
def read (text : List UInt8) : Except Fault Json := do
  let (value, input) ← readValue nestingLimit (Input.ofBytes text)
  finish input
  return value

end Json
end VirtualShell
