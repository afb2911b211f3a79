import VirtualShell.Decimal.Notation

/-!
# Sizes for readers

A number of bytes is shown in the largest of the units B, KB, MB and GB, each 1024 of the one
before, that leaves at least one. Larger units show one place after the point.
-/

namespace VirtualShell
namespace ByteSize

/-- The nearest number that has 53 significant binary digits. Smaller numbers are kept. -/
def toPrecision (n : Nat) : Nat :=
  match Decimal.Binary64.ofNat n with
  | .finite _ significand exponent =>
    significand * Decimal.twoTo exponent.toNat / Decimal.twoTo (-exponent).toNat
  | _ => n

/-- The size of a kilobyte. -/
def kilobyte : Nat := 1024

/-- The size of a megabyte. -/
def megabyte : Nat := 1024 * kilobyte

/-- The size of a gigabyte. -/
def gigabyte : Nat := 1024 * megabyte

/-- The name and the size of the unit in which a number of bytes is shown. -/
def unit (n : Nat) : String × Nat :=
  if n < kilobyte then ("B", 1)
  else if n < megabyte then ("KB", kilobyte)
  else if n < gigabyte then ("MB", megabyte)
  else ("GB", gigabyte)

/-- A number of bytes with its unit. -/
def text (n : Nat) : String :=
  let value := toPrecision n
  let (name, size) := unit value
  if size = 1 then s!"{n} {name}"
  else Decimal.fixedText 1 value size ++ " " ++ name

end ByteSize
end VirtualShell
