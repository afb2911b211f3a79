import VirtualShell.Decimal.Numeral
import VirtualShell.Toml.Value

/-!
# Numbers, dates and times in TOML

A value that is neither quoted nor bracketed is one stretch of letters, digits and a few signs. Its
form tells what it is: a word, a date or a time, a real or a whole number. Underscores may stand
between digits.
-/

namespace VirtualShell
namespace Toml

open Decimal (Binary64 isDigit valueOfDigits splitSign)

/-- The characters of unquoted values. -/
def isScalarChar (c : Char) : Bool :=
  c.isAlphanum || c == '+' || c == '-' || c == '_' || c == '.' || c == ':'

/-! ### Numbers -/

/-- The digits without underscores, each of which must stand between two digits. -/
def ungroup? (isDigit : Char → Bool) : List Char → Option (List Char)
  | [] => none
  | [c] => if isDigit c then some [c] else none
  | c :: '_' :: rest => if isDigit c then (ungroup? isDigit rest).map (c :: ·) else none
  | c :: rest => if isDigit c then (ungroup? isDigit rest).map (c :: ·) else none

/-- Digits that do not start with a needless zero. -/
def wholeDigits? (cs : List Char) : Option (List Char) :=
  match ungroup? isDigit cs with
  | some ['0'] => some ['0']
  | some ('0' :: _) => none
  | digits => digits

/-- The digits that a base has. -/
def isDigitOf (base : Nat) (c : Char) : Bool :=
  if base = 16 then isDigit c || ('a' ≤ c && c ≤ 'f') || ('A' ≤ c && c ≤ 'F')
  else isDigit c && c.toNat - 0x30 < base

/-- A whole number of 64 bits with sign. -/
def inRange (n : Int) : Option Value :=
  if -(Decimal.twoTo 63 : Int) ≤ n ∧ n < (Decimal.twoTo 63 : Int) then some (.integer n) else none

/-- A whole number in another base than ten. It has no sign. -/
def basedInteger? (base : Nat) (cs : List Char) : Option Value := do
  inRange (valueOfDigits base (← ungroup? (isDigitOf base) cs))

/-- A whole number. -/
def integer? (cs : List Char) : Option Value :=
  match cs with
  | '0' :: 'x' :: rest => basedInteger? 16 rest
  | '0' :: 'o' :: rest => basedInteger? 8 rest
  | '0' :: 'b' :: rest => basedInteger? 2 rest
  | cs => do
    let (negative, rest) := splitSign cs
    let n := valueOfDigits 10 (← wholeDigits? rest)
    inRange (if negative then -n else n)

/-- Digits and underscores at the start of a text, and what follows. -/
def spanDigits (cs : List Char) : List Char × List Char :=
  cs.span fun c => isDigit c || c == '_'

/-- The power of ten at the end of a real number. -/
def power? : List Char → Option Int
  | [] => some 0
  | c :: rest => do
    if c = 'e' ∨ c = 'E' then
      let (negative, cs) := splitSign rest
      let n : Int := valueOfDigits 10 (← ungroup? isDigit cs)
      return if negative then -n else n
    else none

/-- The digits of the fraction after a whole part, and what follows them. -/
def fraction? : List Char → Option (List Char × List Char)
  | '.' :: rest => do
    let (digits, rest) := spanDigits rest
    return (← ungroup? isDigit digits, rest)
  | rest => some ([], rest)

/-- A real number, written with a fraction or a power of ten. One that is too large is refused. -/
def decimalReal? (negative : Bool) (cs : List Char) : Option Value := do
  let (whole, afterWhole) := spanDigits cs
  if afterWhole.isEmpty then none
  else
    let whole ← wholeDigits? whole
    let (fraction, afterFraction) ← fraction? afterWhole
    let power ← power? afterFraction
    match Binary64.ofDecimal negative (valueOfDigits 10 (whole ++ fraction))
      (power - fraction.length) with
    | .infinite false => none
    | x => some (.real x)

/-- A real number, infinity or NaN. -/
def real? (cs : List Char) : Option Value :=
  let (negative, rest) := splitSign cs
  match String.ofList rest with
  | "inf" => some (.real (.infinite negative))
  | "nan" => some (.real .nan)
  | _ => decimalReal? negative rest

/-! ### Dates and times -/

/-- The number of two digits, if it is in a range. -/
def pair? (low high : Nat) (a b : Char) : Option Nat := do
  let n ← Decimal.digits? [a, b]
  if low ≤ n ∧ n ≤ high then some n else none

/-- The number of days of a month. -/
def daysOfMonth (year month : Nat) : Nat :=
  if month = 2 then
    if year % 4 = 0 ∧ (year % 100 ≠ 0 ∨ year % 400 = 0) then 29 else 28
  else if month = 4 ∨ month = 6 ∨ month = 9 ∨ month = 11 then 30
  else 31

/-- A date at the start of a text, and what follows. -/
def date? : List Char → Option (String × List Char)
  | a :: b :: c :: d :: '-' :: e :: f :: '-' :: g :: h :: rest => do
    let year ← Decimal.digits? [a, b, c, d]
    let month ← pair? 1 12 e f
    let _ ← pair? 1 (daysOfMonth year month) g h
    return (String.ofList [a, b, c, d, '-', e, f, '-', g, h], rest)
  | _ => none

/-- The fraction of a second, of which nine digits are kept and zeros at the end are not. -/
def secondFraction? : List Char → Option (String × List Char)
  | '.' :: rest =>
    let (digits, rest) := rest.span isDigit
    if digits.isEmpty then none
    else
      let kept := ((digits.take 9).reverse.dropWhile (· == '0')).reverse
      some (String.ofList (if kept.isEmpty then [] else '.' :: kept), rest)
  | rest => some ("", rest)

/-- A time up to an hour at the start of a text, and what follows. -/
def timeUpTo? (lastHour : Nat) : List Char → Option (String × List Char)
  | a :: b :: ':' :: c :: d :: ':' :: e :: f :: rest => do
    let _ ← pair? 0 lastHour a b
    let _ ← pair? 0 59 c d
    let _ ← pair? 0 60 e f
    let (fraction, rest) ← secondFraction? rest
    return (String.ofList [a, b, ':', c, d, ':', e, f] ++ fraction, rest)
  | _ => none

/-- A time at the start of a text, and what follows. -/
def time? (cs : List Char) : Option (String × List Char) :=
  timeUpTo? 23 cs

/-- The distance from universal time that a text is. None at all is written with a plus. -/
def offset? : List Char → Option String
  | [] => some ""
  | ['Z'] | ['z'] => some "Z"
  | [sign, a, b, ':', c, d] => do
    if sign ≠ '+' ∧ sign ≠ '-' then none
    else
      let hours ← pair? 0 23 a b
      let minutes ← pair? 0 59 c d
      let sign := if hours = 0 ∧ minutes = 0 then '+' else sign
      return String.ofList [sign, a, b, ':', c, d]
  | _ => none

/-- A time with its offset, which a text is. -/
def timeWithOffset? (cs : List Char) : Option String := do
  let (time, rest) ← time? cs
  return time ++ (← offset? rest)

/-- A date with a time after a letter, a date or a time, which a text is. -/
def moment? (cs : List Char) : Option Value :=
  match date? cs with
  | some (date, []) => some (.moment date)
  | some (date, mark :: rest) => do
    if mark = 'T' ∨ mark = 't' then
      return .moment (date ++ "T" ++ (← timeWithOffset? rest))
    else none
  | none =>
    match time? cs with
    | some (time, []) => some (.moment time)
    | _ => none

/-! ### All of them -/

/-- The value that a stretch of characters is. -/
def scalar? (cs : List Char) : Option Value :=
  match String.ofList cs with
  | "true" => some (.boolean true)
  | "false" => some (.boolean false)
  | _ => (moment? cs).or ((real? cs).or (integer? cs))

/-- Reads an unquoted value. A blank may stand between a date and its time. -/
def readScalar (cs : List Char) : Option (Value × List Char) := do
  let (word, rest) := cs.span isScalarChar
  let value ← scalar? word
  match date? word, rest with
  | some (date, []), ' ' :: next =>
    let (word, after) := next.span isScalarChar
    if word.isEmpty then some (value, rest)
    else some (.moment (date ++ "T" ++ (← timeWithOffset? word)), after)
  | _, _ => some (value, rest)

end Toml
end VirtualShell
