/-!
# Binary floating point numbers of 64 bits

A finite number is a significand below 2^53 times a power of two. Every operation computes its
exact result as a quotient of natural numbers and rounds it once, to nearest and on a tie to the
even significand.
-/

namespace VirtualShell
namespace Decimal

/-- A power of two. -/
def twoTo (exponent : Nat) : Nat :=
  Nat.pow 2 exponent

/-- A power of ten. -/
def tenTo (exponent : Nat) : Nat :=
  Nat.pow 10 exponent

/-- The quotient rounded to nearest, a tie going to the even neighbour. -/
def divHalfEven (numerator denominator : Nat) : Nat :=
  let floor := numerator / denominator
  let twice := 2 * (numerator % denominator)
  if denominator < twice ∨ (twice = denominator ∧ floor % 2 = 1) then floor + 1 else floor

/-- The quotient rounded to nearest, a tie going away from zero. -/
def divHalfUp (numerator denominator : Nat) : Nat :=
  (2 * numerator + denominator) / (2 * denominator)

/-- Zeros keep their sign. A finite number has the value `significand * 2 ^ exponent`. -/
inductive Binary64 where
  | finite (negative : Bool) (significand : Nat) (exponent : Int)
  | infinite (negative : Bool)
  | nan
  deriving DecidableEq, Repr

namespace Binary64

/-- The least exponent, that of the subnormal numbers. -/
def minExponent : Int := -1074

/-- The greatest exponent. -/
def maxExponent : Int := 971

/-- The number nearest to `numerator / denominator`. -/
def ofRatio (negative : Bool) (numerator denominator : Nat) : Binary64 :=
  if numerator = 0 then .finite negative 0 minExponent
  else
    let guess : Int := (numerator.log2 : Int) - (denominator.log2 : Int)
    let reached : Bool :=
      denominator * twoTo guess.toNat ≤ numerator * twoTo (-guess).toNat
    let binade : Int := if reached then guess else guess - 1
    let exponent : Int := max (binade - 52) minExponent
    let significand :=
      divHalfEven (numerator * twoTo (-exponent).toNat) (denominator * twoTo exponent.toNat)
    let carried := significand = twoTo 53
    let significand := if carried then twoTo 52 else significand
    let exponent := if carried then exponent + 1 else exponent
    if maxExponent < exponent then .infinite negative
    else .finite negative significand exponent

/-- The number nearest to `digits * 10 ^ exponent`. Exponents far out of range are settled
without writing the power out. -/
def ofDecimal (negative : Bool) (digits : Nat) (exponent : Int) : Binary64 :=
  let size : Int := (Nat.toDigits 10 digits).length
  if digits = 0 then .finite negative 0 minExponent
  else if 400 < size + exponent then .infinite negative
  else if size + exponent < -400 then .finite negative 0 minExponent
  else ofRatio negative (digits * tenTo exponent.toNat) (tenTo (-exponent).toNat)

/-- The number nearest to a natural number. -/
def ofNat (n : Nat) : Binary64 :=
  ofRatio false n 1

/-- The magnitude times `10 ^ exponent`, or divided by it, where that power is itself the nearest
number to a power of ten. -/
def scaleByTen (x : Binary64) (exponent : Int) : Binary64 :=
  match x, ofDecimal false 1 exponent.natAbs with
  | .finite negative m e, .finite _ p f =>
    let shift := if 0 ≤ exponent then e + f else e - f
    let numerator := if 0 ≤ exponent then m * p else m
    let denominator := if 0 ≤ exponent then 1 else p
    ofRatio negative (numerator * twoTo shift.toNat) (denominator * twoTo (-shift).toNat)
  | .finite negative m e, _ =>
    if 0 ≤ exponent ∧ m ≠ 0 then .infinite negative else .finite negative (0 * m) e
  | other, _ => other

/-- The same number with the other sign. -/
def negate : Binary64 → Binary64
  | .finite negative m e => .finite (!negative) m e
  | .infinite negative => .infinite (!negative)
  | .nan => .nan

/-- Whether the number is a zero of either sign. -/
def isZero : Binary64 → Bool
  | .finite _ m _ => m == 0
  | _ => false

/-- The nearest natural number up to `limit`, halves going up: negative numbers and NaN give zero,
and what is too large gives `limit`. -/
def toNatClamped (limit : Nat) : Binary64 → Nat
  | .finite true _ _ => 0
  | .finite false m e => min limit (divHalfUp (m * twoTo e.toNat) (twoTo (-e).toNat))
  | .infinite true => 0
  | .infinite false => limit
  | .nan => 0

end Binary64
end Decimal
end VirtualShell
