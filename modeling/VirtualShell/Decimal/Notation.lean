import VirtualShell.Decimal.Shortest

/-!
# How decimals are written

A layout says which exponents are written with a point in place and which with a power of ten, and
how. The digits are those of the shortest decimal, found with the layout's rule for ties.
-/

namespace VirtualShell
namespace Decimal

/-- The choices of a decimal layout. `positional` holds for the exponents of the leading digit that
are written without a power of ten. -/
structure Layout where
  tie : TieRule
  positional : Int → Bool
  wholeFraction : String
  nan : String
  infinity : String

/-- Digits with the point after the one of weight `10 ^ 0`. -/
def positionalText (layout : Layout) (digits : List Char) (exponent : Int) : String :=
  let size : Int := digits.length
  let point := size + exponent
  if 0 ≤ exponent then
    String.ofList (digits ++ List.replicate exponent.toNat '0') ++ layout.wholeFraction
  else if 0 < point then
    String.ofList (digits.take point.toNat ++ ['.'] ++ digits.drop point.toNat)
  else
    String.ofList (['0', '.'] ++ List.replicate (-point).toNat '0' ++ digits)

/-- One digit before the point and a power of ten with its sign. -/
def scientificText (digits : List Char) (exponent : Int) : String :=
  let leading : Int := exponent + digits.length - 1
  let power := Nat.toDigits 10 leading.natAbs
  let mantissa :=
    match digits with
    | [] => []
    | [d] => [d]
    | d :: rest => d :: '.' :: rest
  String.ofList (mantissa ++ ['e', if leading < 0 then '-' else '+'] ++ power)

/-- The text of a number. -/
def Layout.render (layout : Layout) : Binary64 → String
  | .nan => layout.nan
  | .infinite negative => (if negative then "-" else "") ++ layout.infinity
  | .finite negative significand exponent =>
    let shortest := shortest layout.tie significand exponent
    let digits := Nat.toDigits 10 shortest.digits
    let leading : Int := shortest.exponent + digits.length - 1
    (if negative then "-" else "") ++
      if layout.positional leading then positionalText layout digits shortest.exponent
      else scientificText digits shortest.exponent

/-- Always with the point in place, whole numbers without one. -/
def plainLayout : Layout where
  tie := .up
  positional _ := true
  wholeFraction := ""
  nan := "NaN"
  infinity := "inf"

/-- With a point in every number of moderate size, and a power of ten from `10 ^ 16` up and below
`10 ^ -5`. -/
def exactLayout : Layout where
  tie := .even
  positional leading := -5 ≤ leading && leading < 16
  wholeFraction := ".0"
  nan := "NaN"
  infinity := "inf"

/-- A quotient with a fixed number of places after the point, a tie going to the even digit. -/
def fixedText (places numerator denominator : Nat) : String :=
  let scaled := divHalfEven (numerator * tenTo places) denominator
  let digits := Nat.toDigits 10 (scaled % tenTo places)
  s!"{scaled / tenTo places}." ++
    String.ofList (List.replicate (places - digits.length) '0' ++ digits)

end Decimal
end VirtualShell
