import VirtualShell.Proofs.Json.Strings

/-!
# Written whole numbers are read back

A whole number is written as its digits, and a sign before them if it is negative.  The reader
collects the digits as long as they fit into 64 bits, and keeps the number whole if nothing that
belongs to a real number follows.
-/

namespace VirtualShell
namespace Json

open Text.Utf8 (encodeChars encodeChars_cons encodeChars_append)

/-! ### Digits -/

theorem toNat_of_isDigit {c : Char} (hc : c.isDigit = true) : 48 ≤ c.toNat ∧ c.toNat ≤ 57 := by
  rw [Char.isDigit, Bool.and_eq_true, decide_eq_true_eq, decide_eq_true_eq] at hc
  exact hc

theorem toNat_byte {c : Char} (hc : c.toNat < 0x80) : (byte c).toNat = c.toNat :=
  Text.Utf8.toNat_ofNat_of_lt (by omega)

theorem isDigit_byte {c : Char} (hc : c.isDigit = true) : isDigit (byte c) = true := by
  obtain ⟨hlow, hhigh⟩ := toNat_of_isDigit hc
  have hbyte := toNat_byte (c := c) (by omega)
  rw [isDigit, Bool.and_eq_true, decide_eq_true_eq, decide_eq_true_eq, UInt8.le_iff_toNat_le,
    UInt8.le_iff_toNat_le, hbyte]
  exact ⟨hlow, hhigh⟩

/-- What may follow a whole number: no digit and no mark of a real number. -/
def EndsNumber (rest : List UInt8) : Prop :=
  ∀ b, rest.head? = some b → isDigit b = false ∧ b ≠ byte '.' ∧ b ≠ byte 'e' ∧ b ≠ byte 'E'

theorem le_ofDigitChars (digits : List Char) (value : Nat) :
    value ≤ Nat.ofDigitChars 10 digits value := by
  rw [Nat.ofDigitChars_eq_ofDigitChars_zero]
  have hpos : 0 < 10 ^ digits.length := Nat.pow_pos (by decide)
  exact Nat.le_trans (Nat.le_mul_of_pos_left value hpos) (Nat.le_add_right _ _)

/-- Digits that fit are all read. -/
theorem readDigits_append {digits : List Char} (hdigits : ∀ c ∈ digits, c.isDigit = true)
    {limit value : Nat} (hlimit : Nat.ofDigitChars 10 digits value ≤ limit) (count : Nat)
    {rest : List UInt8} (hrest : EndsNumber rest) :
    readDigits limit value count (encodeChars digits ++ rest) =
      ⟨Nat.ofDigitChars 10 digits value, count + digits.length, false⟩ := by
  induction digits generalizing value count with
  | nil =>
      rw [Text.Utf8.encodeChars_nil, List.nil_append]
      cases rest with
      | nil => simp [readDigits]
      | cons b rest =>
          have hend := (hrest b rfl).1
          simp [readDigits, hend]
  | cons c digits ih =>
      rw [List.forall_mem_cons] at hdigits
      obtain ⟨hlow, hhigh⟩ := toNat_of_isDigit hdigits.1
      have hascii : c.toNat < 0x80 := by omega
      have hnext : value * 10 + ((byte c).toNat - 0x30) =
          10 * value + (c.toNat - '0'.toNat) := by
        rw [toNat_byte hascii, Nat.mul_comm]
        rfl
      rw [Nat.ofDigitChars_cons] at hlimit ⊢
      rw [encodeChars_ascii_cons hascii, List.cons_append, readDigits,
        if_pos (isDigit_byte hdigits.1)]
      simp only [hnext]
      have hfits := Nat.not_lt.mpr (Nat.le_trans (le_ofDigitChars digits _) hlimit)
      rw [if_neg hfits, ih hdigits.2 hlimit]
      simp [Nat.add_assoc, Nat.add_comm 1]

/-- The digits of a positive number do not start with a zero. -/
theorem exists_toDigits_eq_cons {n : Nat} (hn : 0 < n) :
    ∃ d digits, 0 < d ∧ d < 10 ∧ Nat.toDigits 10 n = Nat.digitChar d :: digits := by
  induction n using Nat.strongRecOn with
  | _ n ih =>
      by_cases hlt : n < 10
      · exact ⟨n, [], hn, hlt, Nat.toDigits_of_lt_base hlt⟩
      · obtain ⟨d, digits, hd, hd', hdigits⟩ := ih (n / 10) (by omega) (by omega)
        exact ⟨d, digits ++ [Nat.digitChar (n % 10)], hd, hd', by
          rw [Nat.toDigits_of_base_le (by decide) (Nat.not_lt.mp hlt), hdigits]
          rfl⟩

theorem digitChar_ne_zero {d : Nat} (hd : 0 < d) (hd' : d < 10) :
    byte (Nat.digitChar d) ≠ byte '0' := by
  interval_cases d <;> decide

theorem length_encodeChars_ascii {cs : List Char} (hcs : ∀ c ∈ cs, c.toNat < 0x80) :
    (encodeChars cs).length = cs.length := by
  induction cs with
  | nil => rfl
  | cons c cs ih =>
      rw [List.forall_mem_cons] at hcs
      rw [encodeChars_ascii_cons hcs.1, List.length_cons, List.length_cons, ih hcs.2]

/-! ### Numbers -/

/-- The value that a whole number stands for after its sign. -/
def signed (negative : Bool) (n : Nat) : Json :=
  .integer (if negative then -n else n)

theorem readAfterWhole_of_endsNumber {negative : Bool} {n : Nat} {input : Input}
    (hrest : EndsNumber input.rest) (hnegative : negative = true → 0 < n ∧ n ≤ Decimal.twoTo 63) :
    readAfterWhole negative n input = .ok (signed negative n, input) := by
  have hmark : ∀ c : Char, (c = '.' ∨ c = 'e' ∨ c = 'E') →
      (input.rest.head? == some (byte c)) = false := by
    intro c hc
    cases hhead : input.rest.head? with
    | none => rfl
    | some b =>
        obtain ⟨-, hpoint, hlower, hupper⟩ := hrest b hhead
        rcases hc with rfl | rfl | rfl <;> simpa
  have hexponent : input.atExponent = false := by
    rw [Input.atExponent, hmark 'e' (by simp), hmark 'E' (by simp)]
    rfl
  rw [readAfterWhole, hmark '.' (by simp), hexponent]
  cases negative with
  | false => rfl
  | true =>
      obtain ⟨hpos, hle⟩ := hnegative rfl
      have hrange : ¬ (n = 0 ∨ Decimal.twoTo 63 < n) := by omega
      simp [hrange, signed]

/-- The digits of a number are read back as the number. -/
theorem readNumber_toDigits {negative : Bool} {n : Nat} {rest : List UInt8} (index : Nat)
    (hrest : EndsNumber rest) (hfits : n ≤ maxUnsigned)
    (hnegative : negative = true → 0 < n ∧ n ≤ Decimal.twoTo 63) :
    ∃ index', readNumber negative ⟨encodeChars (Nat.toDigits 10 n) ++ rest, index⟩ =
      .ok (signed negative n, ⟨rest, index'⟩) := by
  rcases Nat.eq_zero_or_pos n with rfl | hpos
  -- a zero stands alone, and any other number starts with another digit
  · refine ⟨index + 1, ?_⟩
    have hnext : (rest.head?.map isDigit).getD false = false := by
      cases hhead : rest.head? with
      | none => rfl
      | some b => exact (hrest b hhead).1
    have hdigits : encodeChars (Nat.toDigits 10 0) ++ rest = byte '0' :: rest := rfl
    rw [hdigits, readNumber]
    simp only [if_true, hnext, Bool.false_eq_true, if_false]
    exact readAfterWhole_of_endsNumber hrest hnegative
  · obtain ⟨d, digits, hd, hd', hcons⟩ := exists_toDigits_eq_cons hpos
    have hisDigit : ∀ c ∈ Nat.toDigits 10 n, c.isDigit = true := fun c hc =>
      Nat.isDigit_of_mem_toDigits (by decide) (by decide) hc
    have hvalue : Nat.ofDigitChars 10 (Nat.toDigits 10 n) 0 = n :=
      Nat.ofDigitChars_toDigits (by decide) (by decide)
    have hread := readDigits_append hisDigit (hvalue.symm ▸ hfits) 0 hrest
    have hfirst : (Nat.digitChar d).isDigit = true := hisDigit _ (hcons ▸ List.mem_cons_self)
    have hascii : ∀ c ∈ Nat.toDigits 10 n, c.toNat < 0x80 := by
      intro c hc
      have hrange := toNat_of_isDigit (hisDigit c hc)
      omega
    have hdrop : (encodeChars (Nat.toDigits 10 n) ++ rest).drop (Nat.toDigits 10 n).length =
        rest := by
      rw [← length_encodeChars_ascii hascii, List.drop_left]
    have hbytes : encodeChars (Nat.toDigits 10 n) ++ rest =
        byte (Nat.digitChar d) :: (encodeChars digits ++ rest) := by
      rw [hcons, encodeChars_ascii_cons (hascii _ (hcons ▸ List.mem_cons_self)), List.cons_append]
    refine ⟨index + (0 + (Nat.toDigits 10 n).length), ?_⟩
    rw [hbytes] at hread hdrop ⊢
    simp only [readNumber, if_neg (digitChar_ne_zero hd hd'), if_pos (isDigit_byte hfirst), hread,
      Bool.false_eq_true, if_false, Input.advance, Nat.zero_add, hdrop, hvalue]
    exact readAfterWhole_of_endsNumber hrest hnegative

theorem readScalar_digit {b : UInt8} (hb : isDigit b = true) (bytes : List UInt8) (index : Nat) :
    readScalar ⟨b :: bytes, index⟩ = readNumber false ⟨b :: bytes, index⟩ := by
  have hne : ∀ c : Char, isDigit (byte c) = false → b ≠ byte c := by
    rintro c hc rfl
    rw [hb] at hc
    cases hc
  simp only [readScalar, if_neg (hne 'n' rfl), if_neg (hne 't' rfl), if_neg (hne 'f' rfl),
    if_neg (hne '-' rfl), hb, if_true]

/-- A written number is read back unless it is out of the range of 64 bits, with or without sign. -/
theorem readScalar_writeInteger {n : Int} (hlow : -2 ^ 63 ≤ n) (hhigh : n < 2 ^ 64)
    {rest : List UInt8} (index : Nat) (hrest : EndsNumber rest) :
    ∃ index', readScalar ⟨encodeChars (writeInteger n) ++ rest, index⟩ =
      .ok (.integer n, ⟨rest, index'⟩) := by
  have hunsigned : maxUnsigned = 2 ^ 64 - 1 := rfl
  have hsigned : Decimal.twoTo 63 = 2 ^ 63 := rfl
  cases n with
  | ofNat n =>
      rw [Int.ofNat_eq_natCast] at hhigh
      obtain ⟨index', hread⟩ := readNumber_toDigits (n := n) index hrest (by omega)
        (fun hfalse : false = true => by cases hfalse)
      obtain ⟨c, digits, hcons⟩ : ∃ c digits, Nat.toDigits 10 n = c :: digits :=
        List.exists_cons_of_ne_nil Nat.toDigits_ne_nil
      have hdigit : c.isDigit = true :=
        Nat.isDigit_of_mem_toDigits (by decide) (by decide) (hcons ▸ List.mem_cons_self)
      have hrange := toNat_of_isDigit hdigit
      refine ⟨index', ?_⟩
      rw [writeInteger]
      rw [hcons, encodeChars_ascii_cons (by omega), List.cons_append] at hread ⊢
      rw [readScalar_digit (isDigit_byte hdigit), hread]
      rfl
  | negSucc n =>
      obtain ⟨index', hread⟩ := readNumber_toDigits (n := n + 1) (index + 1) hrest (by omega)
        (fun _ : true = true => ⟨Nat.succ_pos n, by omega⟩)
      refine ⟨index', ?_⟩
      rw [writeInteger, encodeChars_ascii_cons (by decide), List.cons_append]
      exact hread

end Json
end VirtualShell
