import VirtualShell.Proofs.Decimal.Rounding
import VirtualShell.Shell.ByteSize

/-!
# Sizes are near

What is shown of a number of bytes is off by no more than a twentieth of its unit.  The unit is chosen
by the number itself and not by what is shown of it, so a number just below the next unit is shown as
1024.0 of the smaller one.
-/

namespace VirtualShell
namespace ByteSize

/-- Numbers below 2^53 are not rounded before they are divided. -/
theorem toPrecision_of_lt {n : Nat} (hn : n < 2 ^ 53) : toPrecision n = n := by
  rcases Nat.eq_zero_or_pos n with rfl | hpositive
  · simp [toPrecision, Decimal.Binary64.ofNat, Decimal.Binary64.ofRatio]
  · have hlog : n.log2 < 53 := (Nat.log2_lt (Nat.ne_of_gt hpositive)).mpr hn
    have hdown : (-((n.log2 : Int) - 52)).toNat = 52 - n.log2 := by omega
    have hup : ((n.log2 : Int) - 52).toNat = 0 := by omega
    rw [toPrecision, Decimal.Binary64.ofNat_of_lt hpositive hn]
    simp only [hdown, hup]
    exact Nat.div_eq_of_eq_mul_left (Nat.two_pow_pos _) (Nat.mul_one _)

/-- A number of bytes below a kilobyte counts bytes, and any other one the largest unit of which
there is at least one. -/
theorem unit_of_le {n : Nat} (hn : 1024 ≤ n) :
    ∃ name size, (name, size) ∈ [("KB", 1024), ("MB", 1024 ^ 2), ("GB", 1024 ^ 3)] ∧
      unit n = (name, size) ∧ size ≤ n ∧ (name ≠ "GB" → n < 1024 * size) := by
  have hkilo : ¬ n < kilobyte := Nat.not_lt.mpr hn
  rw [unit, if_neg hkilo]
  by_cases hmega : n < megabyte
  · rw [if_pos hmega]
    exact ⟨"KB", 1024, by simp, rfl, hn, fun _ => hmega⟩
  · rw [if_neg hmega]
    by_cases hgiga : n < gigabyte
    · rw [if_pos hgiga]
      exact ⟨"MB", 1024 ^ 2, by simp, rfl, Nat.not_lt.mp hmega, fun _ => hgiga⟩
    · rw [if_neg hgiga]
      exact ⟨"GB", 1024 ^ 3, by simp, rfl, Nat.not_lt.mp hgiga, fun hname => absurd rfl hname⟩

section Tenths

variable {n size : Nat} (hsize : 0 < size)

include hsize

theorem ten_le_tenths (hn : size ≤ n) : 10 ≤ Decimal.divHalfEven (n * 10) size := by
  rw [Decimal.le_divHalfEven_iff _ hsize (by decide)]
  omega

theorem tenths_le (hn : n < 1024 * size) : Decimal.divHalfEven (n * 10) size ≤ 10240 := by
  obtain ⟨hbelow, -⟩ := Decimal.divHalfEven_nearest (n * 10) hsize rfl
  have hlt : 2 * Decimal.divHalfEven (n * 10) size * size < 20481 * size := by omega
  have := Nat.lt_of_mul_lt_mul_right hlt
  omega

/-- The next unit is reached a twentieth before there is one of it. -/
theorem tenths_eq_iff (hn : n < 1024 * size) :
    Decimal.divHalfEven (n * 10) size = 10240 ↔ 20479 * size ≤ 20 * n := by
  have hreached := Decimal.le_divHalfEven_iff (n * 10) hsize (m := 10240) (by decide)
  have hle := tenths_le hsize hn
  omega

theorem abs_tenths_sub_le :
    |(Decimal.divHalfEven (n * 10) size : ℚ) / 10 - n / size| ≤ 1 / 20 := by
  have hhalf := Decimal.abs_divHalfEven_sub_le (n * 10) hsize
  have hscaled : ((n * 10 : ℕ) : ℚ) / size = 10 * (n / size) := by
    push_cast
    ring
  rw [hscaled, abs_le] at hhalf
  rw [abs_le]
  constructor <;> linarith [hhalf.1, hhalf.2]

end Tenths

/-- A number of bytes below a kilobyte is shown as it is. Any other one that fits into the digits of a
floating point number is shown in the largest unit of which there is at least one, with one place
after the point: off by no more than a twentieth, and never as less than 1.0. In kilobytes and
megabytes it is never shown as more than 1024.0, and as just that from 1023.95 on. -/
theorem text_near {n : Nat} (hn : n < 2 ^ 53) :
    (n < 1024 → text n = s!"{n} B") ∧
    (1024 ≤ n → ∃ (tenths : Nat) (name : String) (size : Nat),
      (name, size) ∈ [("KB", 1024), ("MB", 1024 ^ 2), ("GB", 1024 ^ 3)] ∧
      text n = s!"{tenths / 10}.{tenths % 10} {name}" ∧
      |(tenths : ℚ) / 10 - n / size| ≤ 1 / 20 ∧
      1 ≤ (tenths : ℚ) / 10 ∧
      size ≤ n ∧
      (name ≠ "GB" → n < 1024 * size ∧ (tenths : ℚ) / 10 ≤ 1024 ∧
        ((tenths : ℚ) / 10 = 1024 ↔ 1023.95 ≤ (n : ℚ) / size))) := by
  constructor
  · intro hsmall
    have hunit : unit n = ("B", 1) := if_pos hsmall
    rw [text, toPrecision_of_lt hn]
    simp only [hunit, if_true]
    exact String.append_assoc
  · intro hlarge
    obtain ⟨name, size, hmem, hunit, hle, hnext⟩ := unit_of_le hlarge
    have hsize : 1 < size := by
      simp only [List.mem_cons, Prod.mk.injEq, List.not_mem_nil, or_false] at hmem
      omega
    have hpositive : 0 < size := Nat.zero_lt_of_lt hsize
    refine ⟨Decimal.divHalfEven (n * 10) size, name, size, hmem, ?_, abs_tenths_sub_le hpositive,
      ?_, hle, fun hname => ⟨hnext hname, ?_, ?_⟩⟩
    · rw [text, toPrecision_of_lt hn]
      simp only [hunit, if_neg (Nat.ne_of_gt hsize), Decimal.fixedText_one]
      simp only [String.append_assoc]
      rfl
    · have hten : (10 : ℚ) ≤ Decimal.divHalfEven (n * 10) size := by
        exact_mod_cast ten_le_tenths hpositive hle
      linarith
    · have htenths : (Decimal.divHalfEven (n * 10) size : ℚ) ≤ 10240 := by
        exact_mod_cast tenths_le hpositive (hnext hname)
      linarith
    · have hreached : (Decimal.divHalfEven (n * 10) size : ℚ) = 10240 ↔
          (20479 * size : ℚ) ≤ 20 * n := by
        exact_mod_cast tenths_eq_iff hpositive (hnext hname)
      have hsize : (0 : ℚ) < size := by exact_mod_cast hpositive
      rw [div_eq_iff (by norm_num), le_div_iff₀ hsize, show (1024 * 10 : ℚ) = 10240 by norm_num,
        hreached]
      constructor <;> intro <;> linarith

/-- One byte less than a megabyte. -/
theorem text_near_lastOfKilobytes :
    2 ^ 20 - 1 < 2 ^ 53 ∧ 1024 ≤ 2 ^ 20 - 1 ∧ text (2 ^ 20 - 1) = "1024.0 KB" ∧
      ∃ (tenths : Nat) (name : String) (size : Nat),
        text (2 ^ 20 - 1) = s!"{tenths / 10}.{tenths % 10} {name}" ∧
        |(tenths : ℚ) / 10 - (2 ^ 20 - 1 : ℕ) / size| ≤ 1 / 20 ∧ 1 ≤ (tenths : ℚ) / 10 := by
  obtain ⟨tenths, name, size, -, htext, hnear, hone, -⟩ :=
    (text_near (n := 2 ^ 20 - 1) (by decide)).2 (by decide)
  exact ⟨by decide, by decide, by decide +kernel, tenths, name, size, htext, hnear, hone⟩

/-- What is shown in kilobytes need not stay below 1024. -/
theorem text_reaches_nextUnit :
    ¬ ∀ n < 2 ^ 53, ∀ tenths : Nat,
      text n = s!"{tenths / 10}.{tenths % 10} KB" → (tenths : ℚ) / 10 < 1024 := by
  intro hbelow
  have hshown := hbelow (2 ^ 20 - 1) (by decide) 10240 (by decide +kernel)
  norm_num at hshown

end ByteSize
end VirtualShell
