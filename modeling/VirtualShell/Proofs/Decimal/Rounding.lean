import Mathlib.Algebra.Order.Field.Rat
import Mathlib.Tactic.Linarith
import Mathlib.Tactic.Ring
import VirtualShell.Decimal.Notation

/-!
# Rounding to nearest

A quotient that is rounded to nearest is off by no more than one half, and on a tie it is even.  So a
number with one place after the point is off by no more than a twentieth, and a natural number that
fits into the digits of a floating point number is not changed at all.
-/

namespace VirtualShell
namespace Decimal

section DivHalfEven

variable (numerator : Nat) {denominator : Nat} (hpositive : 0 < denominator)

include hpositive

/-- What a quotient is rounded to is off by no more than one half to either side, and even if it is
off by just that. -/
theorem divHalfEven_nearest {quotient : Nat}
    (hquotient : divHalfEven numerator denominator = quotient) :
    2 * quotient * denominator ≤ 2 * numerator + denominator ∧
      2 * numerator ≤ (2 * quotient + 1) * denominator ∧
      (2 * quotient * denominator = 2 * numerator + denominator ∨
        2 * numerator = (2 * quotient + 1) * denominator → quotient % 2 = 0) := by
  have hsplit := Nat.div_add_mod numerator denominator
  have hrest := Nat.mod_lt numerator hpositive
  rw [divHalfEven] at hquotient
  generalize numerator / denominator = floor at hsplit hquotient
  split at hquotient
  · subst hquotient
    have hbelow : 2 * (floor + 1) * denominator = 2 * (denominator * floor) + 2 * denominator := by
      ring
    have habove : (2 * (floor + 1) + 1) * denominator =
        2 * (denominator * floor) + 3 * denominator := by ring
    omega
  · subst hquotient
    have hbelow : 2 * floor * denominator = 2 * (denominator * floor) := by ring
    have habove : (2 * floor + 1) * denominator = 2 * (denominator * floor) + denominator := by ring
    omega

/-- A rounded quotient is off by no more than one half. -/
theorem abs_divHalfEven_sub_le :
    |(divHalfEven numerator denominator : ℚ) - numerator / denominator| ≤ 1 / 2 := by
  obtain ⟨hbelow, habove, -⟩ := divHalfEven_nearest numerator hpositive rfl
  have hbelow : (2 * divHalfEven numerator denominator * denominator : ℚ) ≤
      2 * numerator + denominator := by exact_mod_cast hbelow
  have habove : (2 * numerator : ℚ) ≤
      (2 * divHalfEven numerator denominator + 1) * denominator := by exact_mod_cast habove
  have hdenominator : (0 : ℚ) < denominator := by exact_mod_cast hpositive
  have hback : (numerator / denominator : ℚ) * denominator = numerator :=
    div_mul_cancel₀ _ hdenominator.ne'
  rw [abs_le]
  constructor <;> nlinarith

/-- An even number is reached from one half below it on, since a tie goes to it. -/
theorem le_divHalfEven_iff {m : Nat} (heven : m % 2 = 0) :
    m ≤ divHalfEven numerator denominator ↔
      2 * m * denominator ≤ 2 * numerator + denominator := by
  obtain ⟨hbelow, habove, htie⟩ := divHalfEven_nearest numerator hpositive rfl
  generalize divHalfEven numerator denominator = quotient at hbelow habove htie
  constructor
  · intro hle
    exact (Nat.mul_le_mul_right _ (Nat.mul_le_mul_left _ hle)).trans hbelow
  · intro hreached
    by_contra hlt
    have hnext : 2 * (quotient + 1) * denominator ≤ 2 * m * denominator :=
      Nat.mul_le_mul_right _ (Nat.mul_le_mul_left _ (Nat.not_le.mp hlt))
    have hexpand : 2 * (quotient + 1) * denominator =
        (2 * quotient + 1) * denominator + denominator := by ring
    -- then the quotient is a tie between two numbers that follow each other, both of them even
    have hquotient := htie (.inr (by omega))
    have hsame : 2 * (quotient + 1) * denominator = 2 * m * denominator := by omega
    have hm := Nat.eq_of_mul_eq_mul_right hpositive hsame
    omega

end DivHalfEven

/-! ### One place after the point -/

/-- A quotient with one place is written as its tenths, with the point before the last digit. -/
theorem fixedText_one (numerator denominator : Nat) :
    fixedText 1 numerator denominator =
      s!"{divHalfEven (numerator * 10) denominator / 10}." ++
        s!"{divHalfEven (numerator * 10) denominator % 10}" := by
  have hlast : divHalfEven (numerator * 10) denominator % 10 < 10 := Nat.mod_lt _ (by decide)
  have hdigits := Nat.toDigits_of_lt_base hlast
  have hten : tenTo 1 = 10 := rfl
  rw [fixedText]
  simp only [hten, hdigits, List.length_singleton, Nat.sub_self, List.replicate_zero,
    List.nil_append]
  rw [← hdigits, ← Nat.repr_eq_ofList_toDigits]
  rfl

/-! ### Numbers that fit -/

namespace Binary64

theorem divHalfEven_one (n : Nat) : divHalfEven n 1 = n := by
  simp [divHalfEven, Nat.mod_one]

/-- A number that fits into the digits is shifted until it fills them. -/
theorem ofNat_of_lt {n : Nat} (hpositive : 0 < n) (hn : n < 2 ^ 53) :
    ofNat n = .finite false (n * 2 ^ (52 - n.log2)) (n.log2 - 52) := by
  have hlog : n.log2 < 53 := (Nat.log2_lt (Nat.ne_of_gt hpositive)).mpr hn
  have hguess : ((n.log2 : Int) - (Nat.log2 1 : Int)) = n.log2 := Int.sub_zero _
  have hreached : 1 * twoTo (n.log2 : Int).toNat ≤ n * twoTo (-(n.log2 : Int)).toNat := by
    simpa [twoTo] using Nat.log2_self_le (Nat.ne_of_gt hpositive)
  have hexponent : max ((n.log2 : Int) - 52) minExponent = n.log2 - 52 := by
    rw [minExponent]
    omega
  have hdown : (-((n.log2 : Int) - 52)).toNat = 52 - n.log2 := by omega
  have hup : ((n.log2 : Int) - 52).toNat = 0 := by omega
  have hsignificand : n * 2 ^ (52 - n.log2) < 2 ^ 53 := by
    calc n * 2 ^ (52 - n.log2) < 2 ^ (n.log2 + 1) * 2 ^ (52 - n.log2) :=
          Nat.mul_lt_mul_of_pos_right Nat.lt_log2_self (Nat.two_pow_pos _)
      _ = 2 ^ 53 := by rw [← Nat.pow_add]; congr 1; omega
  have hlarge : ¬ maxExponent < (n.log2 : Int) - 52 := by
    rw [maxExponent]
    omega
  have hcarried : ¬ n * twoTo (52 - n.log2) = twoTo 53 := Nat.ne_of_lt hsignificand
  have hunit : twoTo 0 = 1 := rfl
  rw [ofNat, ofRatio, if_neg (Nat.ne_of_gt hpositive)]
  dsimp only
  rw [hguess, if_pos (decide_eq_true hreached), hexponent, hdown, hup, Nat.one_mul, hunit,
    divHalfEven_one, if_neg hcarried, if_neg hcarried, if_neg hlarge]
  rfl

end Binary64
end Decimal
end VirtualShell
