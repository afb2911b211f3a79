import VirtualShell.Decimal.Binary64

/-!
# Numbers out of texts

A whole number is written with digits and a sign before them. A real number may have a point among
its digits and a power of ten after them; infinity and NaN have names.
-/

namespace VirtualShell
namespace Decimal

/-- The decimal digits. -/
def isDigit (c : Char) : Bool :=
  '0' ≤ c && c ≤ '9'

/-- The number that digits stand for in a base. Letters count on from ten, in either case. -/
def valueOfDigits (base : Nat) (cs : List Char) : Nat :=
  cs.foldl (fun value c =>
    base * value +
      (if isDigit c then c.toNat - 0x30 else c.toLower.toNat - 0x61 + 10)) 0

/-- A number of one or more decimal digits. -/
def digits? (cs : List Char) : Option Nat :=
  if cs.isEmpty || !cs.all isDigit then none else some (valueOfDigits 10 cs)

/-- Whether a text starts with a minus, and what follows its sign. -/
def splitSign : List Char → Bool × List Char
  | '-' :: rest => (true, rest)
  | '+' :: rest => (false, rest)
  | cs => (false, cs)

/-- A whole number in the range of 64 bits with sign. -/
def integer? (s : String) : Option Int :=
  let (negative, cs) := splitSign s.toList
  match digits? cs with
  | none => none
  | some n =>
    let value : Int := if negative then -n else n
    if -(twoTo 63 : Int) ≤ value ∧ value < (twoTo 63 : Int) then some value else none

/-- A whole number in the range of 64 bits without sign. A plus may stand before it. -/
def natural? (s : String) : Option Nat :=
  let cs := match s.toList with
    | '+' :: rest => rest
    | cs => cs
  match digits? cs with
  | none => none
  | some n => if n < twoTo 64 then some n else none

/-- The power of ten at the end of a number, its mark included. -/
def power? : List Char → Option Int
  | [] => some 0
  | c :: rest =>
    if c = 'e' ∨ c = 'E' then
      let (negative, cs) := splitSign rest
      (digits? cs).map fun n => if negative then -(n : Int) else n
    else none

/-- The number without a sign that digits, a point among them and a power of ten stand for. -/
def magnitude? (negative : Bool) (cs : List Char) : Option Binary64 :=
  let whole := cs.takeWhile isDigit
  let afterWhole := cs.dropWhile isDigit
  let (fraction, rest) :=
    match afterWhole with
    | '.' :: rest => (rest.takeWhile isDigit, rest.dropWhile isDigit)
    | rest => ([], rest)
  if whole.isEmpty && fraction.isEmpty then none
  else
    (power? rest).map fun power =>
      Binary64.ofDecimal negative (valueOfDigits 10 (whole ++ fraction))
        (power - fraction.length)

/-- A real number. -/
def real? (s : String) : Option Binary64 :=
  let (negative, cs) := splitSign s.toList
  let name := String.ofList (cs.map Char.toLower)
  if name = "inf" ∨ name = "infinity" then some (.infinite negative)
  else if name = "nan" then some .nan
  else magnitude? negative cs

end Decimal
end VirtualShell
