import VirtualShell.Decimal.Binary64

/-!
# The fewest digits that read back

Among the decimals that round to a given binary number, those with the fewest digits are looked
for on one decimal grid after the other, from coarse to fine. If a point of a grid rounds to the
number, so does one of the two grid points next to it, so only these two are tried. A number can
lie halfway between two points that both round to it; a rule says which one is taken then.
-/

namespace VirtualShell
namespace Decimal

/-- Decimal digits without trailing zeros and the power of ten they are multiplied by. -/
structure Digits where
  digits : Nat
  exponent : Int
  deriving DecidableEq, Repr

/-- Where a number goes that lies halfway between two decimals: to the one with the even last digit,
or to the one further from zero. -/
inductive TieRule where
  | even
  | up
  deriving DecidableEq, Repr

/-- Whether the lower of two neighbours is taken. -/
def TieRule.takesLower (rule : TieRule) (lower : Nat) : Bool :=
  match rule with
  | .even => lower % 2 = 0
  | .up => false

/-- The reals that round to a number, in quarter units of its last place: `low` to `high` around
`value`, with the ends when the significand is even. -/
structure RoundingInterval where
  low : Nat
  value : Nat
  high : Nat
  closed : Bool
  exponent : Int

/-- The interval of `significand * 2 ^ exponent`. Below a power of two the spacing is half of that
above it. -/
def RoundingInterval.ofBinary (significand : Nat) (exponent : Int) : RoundingInterval where
  low := 4 * significand -
    (if significand = twoTo 52 ∧ Binary64.minExponent < exponent then 1 else 2)
  value := 4 * significand
  high := 4 * significand + 2
  closed := significand % 2 = 0
  exponent := exponent - 2

/-- The factors that bring `x * 2 ^ binary` and `c * 10 ^ decimal` to one scale. -/
def commonScale (binary decimal : Int) : Nat × Nat :=
  (twoTo binary.toNat * tenTo (-decimal).toNat,
    twoTo (-binary).toNat * tenTo decimal.toNat)

/-- The point of the grid `10 ^ exponent` nearest to the value, if one lies in the interval. -/
def RoundingInterval.onGrid? (i : RoundingInterval) (tie : TieRule) (exponent : Int) :
    Option Nat :=
  let (binaryScale, decimalScale) := commonScale i.exponent exponent
  let value := i.value * binaryScale
  let inside (c : Nat) : Bool :=
    let point := c * decimalScale
    let low := i.low * binaryScale
    let high := i.high * binaryScale
    if i.closed then low ≤ point && point ≤ high else low < point && point < high
  let below := value / decimalScale
  let above := below + 1
  match inside below, inside above with
  | false, false => none
  | true, false => some below
  | false, true => some above
  | true, true =>
    let down := value - below * decimalScale
    let up := above * decimalScale - value
    some (if down < up ∨ (down = up ∧ tie.takesLower below) then below else above)

/-- The exponent of the leading decimal digit of `significand * 2 ^ exponent`. -/
def leadingExponent (significand : Nat) (exponent : Int) : Int :=
  let reaches (decimal : Int) : Bool :=
    let (binaryScale, decimalScale) := commonScale exponent decimal
    decimalScale ≤ significand * binaryScale
  let guess : Int := ((significand.log2 : Int) + exponent) * 30103 / 100000
  if reaches (guess + 1) then guess + 1
  else if reaches guess then guess
  else guess - 1

/-- Moves trailing zeros of the digits to the exponent, at most `fuel` of them. -/
def Digits.strip : Nat → Digits → Digits
  | 0, d => d
  | fuel + 1, d =>
    if d.digits % 10 = 0 ∧ d.digits ≠ 0 then strip fuel ⟨d.digits / 10, d.exponent + 1⟩ else d

/-- Tries `count` grids, each ten times finer than the one before. -/
def RoundingInterval.search (i : RoundingInterval) (tie : TieRule) : Nat → Int → Digits
  | 0, exponent => ⟨(i.onGrid? tie exponent).getD 0, exponent⟩
  | count + 1, exponent =>
    match i.onGrid? tie exponent with
    | some digits => ⟨digits, exponent⟩
    | none => i.search tie count (exponent - 1)

/-- The fewest digits that read back as `significand * 2 ^ exponent`, and of those the nearest.
Seventeen digits always suffice. -/
def shortest (tie : TieRule) (significand : Nat) (exponent : Int) : Digits :=
  if significand = 0 then ⟨0, 0⟩
  else
    let interval := RoundingInterval.ofBinary significand exponent
    (interval.search tie 16 (leadingExponent significand exponent)).strip 20

end Decimal
end VirtualShell
