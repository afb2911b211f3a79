import Mathlib.Tactic.IntervalCases
import VirtualShell.Text.Utf8

/-!
# UTF-8 and its order

The bytes of a character have one of four forms, in each of which the character's number is cut into
a leading part and groups of six bits.  From this follow the two facts on which the durable store
rests: decoding inverts encoding, and the bytes of texts come in the order of the texts.
-/

namespace VirtualShell
namespace Text
namespace Utf8

/-- The four forms of an encoded character. -/
theorem utf8EncodeChar_cases (c : Char) :
    (c.toNat < 0x80 ∧ String.utf8EncodeChar c = [UInt8.ofNat c.toNat]) ∨
    (∃ a b, 2 ≤ a ∧ a < 32 ∧ b < 64 ∧ c.toNat = a * 64 + b ∧
      String.utf8EncodeChar c = [UInt8.ofNat (a + 192), UInt8.ofNat (b + 128)]) ∨
    (∃ a b d, a < 16 ∧ b < 64 ∧ d < 64 ∧ 0x800 ≤ c.toNat ∧
      c.toNat = (a * 64 + b) * 64 + d ∧
      String.utf8EncodeChar c =
        [UInt8.ofNat (a + 224), UInt8.ofNat (b + 128), UInt8.ofNat (d + 128)]) ∨
    ∃ a b d e, a < 8 ∧ b < 64 ∧ d < 64 ∧ e < 64 ∧ 0x10000 ≤ c.toNat ∧
      c.toNat = ((a * 64 + b) * 64 + d) * 64 + e ∧
      String.utf8EncodeChar c = [UInt8.ofNat (a + 240), UInt8.ofNat (b + 128),
        UInt8.ofNat (d + 128), UInt8.ofNat (e + 128)] := by
  have hrange : c.toNat < 0x110000 := by
    rcases c.valid with hlow | hhigh
    · exact Nat.lt_trans hlow (by decide)
    · exact hhigh.2
  -- the parts are what the shifts and masks of the encoder select
  have hval : c.val.toNat = c.toNat := rfl
  unfold String.utf8EncodeChar
  simp only [hval]
  split
  · exact .inl ⟨by omega, rfl⟩
  · split
    · exact .inr (.inl ⟨c.toNat / 64 % 32, c.toNat % 64,
        by omega, by omega, by omega, by omega, rfl⟩)
    · split
      · exact .inr (.inr (.inl ⟨c.toNat / 4096 % 16, c.toNat / 64 % 64, c.toNat % 64,
          by omega, by omega, by omega, by omega, by omega, rfl⟩))
      · exact .inr (.inr (.inr ⟨c.toNat / 262144 % 8, c.toNat / 4096 % 64, c.toNat / 64 % 64,
          c.toNat % 64, by omega, by omega, by omega, by omega, by omega, by omega, rfl⟩))

theorem toNat_ofNat_of_lt {n : Nat} (hn : n < 256) : (UInt8.ofNat n).toNat = n := by
  rw [UInt8.toNat_ofNat']
  omega

theorem ofNat_cons_lt {m n : Nat} (hm : m < 256) (hn : n < 256) {xs ys : List UInt8} :
    UInt8.ofNat m :: xs < UInt8.ofNat n :: ys ↔ m < n ∨ m = n ∧ xs < ys := by
  rw [List.cons_lt_cons_iff, UInt8.lt_iff_toNat_lt, ← UInt8.toNat_inj, toNat_ofNat_of_lt hm,
    toNat_ofNat_of_lt hn]

/-! ### The bytes of texts -/

@[simp]
theorem encodeChars_nil : encodeChars [] = [] := rfl

theorem encodeChars_cons (c : Char) (cs : List Char) :
    encodeChars (c :: cs) = String.utf8EncodeChar c ++ encodeChars cs := rfl

@[simp]
theorem encodeChars_append (xs ys : List Char) :
    encodeChars (xs ++ ys) = encodeChars xs ++ encodeChars ys :=
  List.flatMap_append

theorem utf8EncodeChar_ascii {c : Char} (hc : c.toNat < 0x80) :
    String.utf8EncodeChar c = [c.toNat.toUInt8] := by
  rcases utf8EncodeChar_cases c with ⟨-, hbytes⟩ | ⟨_, _, _, _, _, _, -⟩ |
      ⟨_, _, _, _, _, _, _, _, -⟩ | ⟨_, _, _, _, _, _, _, _, _, _, -⟩
  · exact hbytes
  all_goals omega

/-- Outside of the first half of a byte's range a character has no bytes in it. -/
theorem le_of_mem_utf8EncodeChar {c : Char} (hc : 0x80 ≤ c.toNat) {b : UInt8}
    (hb : b ∈ String.utf8EncodeChar c) : 0x80 ≤ b.toNat := by
  rcases utf8EncodeChar_cases c with ⟨_, hbytes⟩ | ⟨_, _, _, _, _, _, hbytes⟩ |
      ⟨_, _, _, _, _, _, _, _, hbytes⟩ | ⟨_, _, _, _, _, _, _, _, _, _, hbytes⟩
  · omega
  all_goals
    simp only [hbytes, List.mem_cons, List.not_mem_nil, or_false] at hb
    rcases hb with rfl | hb
    · rw [toNat_ofNat_of_lt (by omega)]
      omega
  · rw [hb, toNat_ofNat_of_lt (by omega)]
    omega
  · rcases hb with rfl | rfl <;> rw [toNat_ofNat_of_lt (by omega)] <;> omega
  · rcases hb with rfl | rfl | rfl <;> rw [toNat_ofNat_of_lt (by omega)] <;> omega

/-! ### Decoding inverts encoding -/

section Tail

variable {n : Nat} (hn : n < 64)
include hn

theorem not_lt_tail : ¬ UInt8.ofNat (n + 128) < 0x80 := by
  rw [UInt8.lt_iff_toNat_lt, toNat_ofNat_of_lt (by omega)]
  exact Nat.not_lt.mpr (Nat.le_add_left _ _)

theorem not_tail_lt : ¬ 0xBF < UInt8.ofNat (n + 128) := by
  rw [UInt8.lt_iff_toNat_lt, toNat_ofNat_of_lt (by omega)]
  exact Nat.not_lt.mpr (by omega : n + 128 ≤ 191)

theorem isTail_ofNat : isTail (UInt8.ofNat (n + 128)) = true := by
  rw [isTail, Bool.and_eq_true, decide_eq_true_eq, decide_eq_true_eq]
  exact ⟨UInt8.not_lt.mp (not_lt_tail hn), UInt8.not_lt.mp (not_tail_lt hn)⟩

theorem tailBits_ofNat : tailBits (UInt8.ofNat (n + 128)) = n := by
  rw [tailBits, toNat_ofNat_of_lt (by omega)]
  omega

end Tail

theorem lead_one {n : Nat} (hn : n < 128) : lead (UInt8.ofNat n) = .single := by
  have hlt : UInt8.ofNat n < 0x80 := by
    rw [UInt8.lt_iff_toNat_lt, toNat_ofNat_of_lt (by omega)]
    exact hn
  rw [lead, if_pos hlt]

theorem lead_two {a : Nat} (hlow : 2 ≤ a) (hhigh : a < 32) :
    lead (UInt8.ofNat (a + 192)) = .sequence 2 0x80 0xBF := by
  interval_cases a <;> rfl

/-- The bounds of the second byte keep out long forms and surrogates only. -/
theorem lead_three {a b : Nat} (ha : a < 16) (hb : b < 64) (hlong : 32 ≤ a * 64 + b)
    (hsurrogate : a = 13 → b < 32) :
    ∃ low high, lead (UInt8.ofNat (a + 224)) = .sequence 3 low high ∧
      ¬ (UInt8.ofNat (b + 128) < low ∨ high < UInt8.ofNat (b + 128)) := by
  -- a leading part of 0 could be a long form, one of 13 a surrogate
  rcases Nat.eq_zero_or_pos a with rfl | hpos
  · refine ⟨0xA0, 0xBF, rfl, not_or.mpr ⟨?_, not_tail_lt hb⟩⟩
    rw [UInt8.lt_iff_toNat_lt, toNat_ofNat_of_lt (by omega)]
    exact Nat.not_lt.mpr (by omega : 160 ≤ b + 128)
  · rcases Nat.lt_trichotomy a 13 with ha13 | rfl | ha13
    · refine ⟨0x80, 0xBF, ?_, not_or.mpr ⟨not_lt_tail hb, not_tail_lt hb⟩⟩
      interval_cases a <;> rfl
    · refine ⟨0x80, 0x9F, rfl, not_or.mpr ⟨not_lt_tail hb, ?_⟩⟩
      rw [UInt8.lt_iff_toNat_lt, toNat_ofNat_of_lt (by omega)]
      have hlt := hsurrogate rfl
      exact Nat.not_lt.mpr (by omega : b + 128 ≤ 159)
    · refine ⟨0x80, 0xBF, ?_, not_or.mpr ⟨not_lt_tail hb, not_tail_lt hb⟩⟩
      interval_cases a <;> rfl

/-- The bounds of the second byte keep out long forms and what is above the last character. -/
theorem lead_four {a b : Nat} (ha : a ≤ 4) (hb : b < 64) (hlong : 16 ≤ a * 64 + b)
    (hlast : a = 4 → b < 16) :
    ∃ low high, lead (UInt8.ofNat (a + 240)) = .sequence 4 low high ∧
      ¬ (UInt8.ofNat (b + 128) < low ∨ high < UInt8.ofNat (b + 128)) := by
  -- a leading part of 0 could be a long form, one of 4 too large
  rcases Nat.eq_zero_or_pos a with rfl | hpos
  · refine ⟨0x90, 0xBF, rfl, not_or.mpr ⟨?_, not_tail_lt hb⟩⟩
    rw [UInt8.lt_iff_toNat_lt, toNat_ofNat_of_lt (by omega)]
    exact Nat.not_lt.mpr (by omega : 144 ≤ b + 128)
  · rcases Nat.lt_or_eq_of_le ha with ha4 | rfl
    · refine ⟨0x80, 0xBF, ?_, not_or.mpr ⟨not_lt_tail hb, not_tail_lt hb⟩⟩
      interval_cases a <;> rfl
    · refine ⟨0x80, 0x8F, rfl, not_or.mpr ⟨not_lt_tail hb, ?_⟩⟩
      rw [UInt8.lt_iff_toNat_lt, toNat_ofNat_of_lt (by omega)]
      have hlt := hlast rfl
      exact Nat.not_lt.mpr (by omega : b + 128 ≤ 143)

/-- The first piece of an encoded character is the character, whatever follows. -/
theorem exists_leadingPiece (c : Char) :
    ∃ a tail, String.utf8EncodeChar c = a :: tail ∧
      ∀ rest, leadingPiece a (tail ++ rest) = .char c := by
  have hvalid : c.toNat < 0xD800 ∨ 0xDFFF < c.toNat ∧ c.toNat < 0x110000 := c.valid
  rcases utf8EncodeChar_cases c with ⟨hc, hbytes⟩ | ⟨a, b, ha, ha', hb, hc, hbytes⟩ |
      ⟨a, b, d, ha, hb, hd, hlong, hc, hbytes⟩ | ⟨a, b, d, e, ha, hb, hd, he, hlong, hc, hbytes⟩
  · refine ⟨_, _, hbytes, fun rest => ?_⟩
    simp only [leadingPiece, lead_one hc, toNat_ofNat_of_lt (Nat.lt_trans hc (by decide)),
      Char.ofNat_toNat]
  · refine ⟨_, _, hbytes, fun rest => ?_⟩
    have hfirst : (a + 192) % 32 = a := by omega
    simp only [leadingPiece, lead_two ha ha', List.cons_append, not_lt_tail hb, not_tail_lt hb,
      or_self, if_false, if_true, toNat_ofNat_of_lt (by omega : a + 192 < 256), hfirst,
      tailBits_ofNat hb, ← hc, Char.ofNat_toNat]
  · refine ⟨_, _, hbytes, fun rest => ?_⟩
    obtain ⟨low, high, hlead, hbounds⟩ :=
      lead_three ha hb (by omega) (fun h13 => by omega)
    have hfirst : (a + 224) % 16 = a := by omega
    simp only [leadingPiece, hlead, List.cons_append, if_neg hbounds, isTail_ofNat hd,
      Bool.not_true, Bool.false_eq_true, if_false, if_true, Nat.reduceEqDiff,
      toNat_ofNat_of_lt (by omega : a + 224 < 256), hfirst, tailBits_ofNat hb, tailBits_ofNat hd,
      ← hc, Char.ofNat_toNat]
  · refine ⟨_, _, hbytes, fun rest => ?_⟩
    obtain ⟨low, high, hlead, hbounds⟩ :=
      lead_four (by omega : a ≤ 4) hb (by omega) (fun h4 => by omega)
    have hfirst : (a + 240) % 8 = a := by omega
    simp only [leadingPiece, hlead, List.cons_append, if_neg hbounds, isTail_ofNat hd,
      isTail_ofNat he, Bool.not_true, Bool.false_eq_true, if_false, Nat.reduceEqDiff,
      toNat_ofNat_of_lt (by omega : a + 240 < 256), hfirst, tailBits_ofNat hb, tailBits_ofNat hd,
      tailBits_ofNat he, ← hc, Char.ofNat_toNat]

theorem piecesAfter_length_append (skipped rest : List UInt8) :
    piecesAfter skipped.length (skipped ++ rest) = piecesAfter 0 rest := by
  induction skipped with
  | nil => rfl
  | cons b skipped ih => simpa [piecesAfter] using ih

theorem piecesAfter_encodeChars (cs : List Char) :
    piecesAfter 0 (encodeChars cs) = cs.map .char := by
  induction cs with
  | nil => rfl
  | cons c cs ih =>
      obtain ⟨a, tail, hbytes, hpiece⟩ := exists_leadingPiece c
      -- after the first byte of a character its other bytes are skipped
      have hsize : c.utf8Size - 1 = tail.length := by
        have hlength := String.length_utf8EncodeChar c
        rw [hbytes, List.length_cons] at hlength
        omega
      have hcons : encodeChars (c :: cs) = a :: (tail ++ encodeChars cs) := by
        simp [encodeChars, hbytes]
      rw [hcons, piecesAfter, hpiece, Piece.size, hsize, piecesAfter_length_append, ih,
        List.map_cons]

theorem faultAfter_chars (index : Nat) (cs : List Char) :
    faultAfter index (cs.map .char) = none := by
  induction cs generalizing index with
  | nil => rfl
  | cons c cs ih => exact ih _

/-- Encoded texts decode to themselves. -/
theorem decode_encode (s : String) : decode (encode s) = .ok s := by
  have hshown : Piece.shown ∘ Piece.char = id := rfl
  simp only [decode, encode, pieces, piecesAfter_encodeChars, faultAfter_chars, List.map_map,
    hshown, List.map_id, String.ofList_toList]

theorem decodeLossy_encode (s : String) : decodeLossy (encode s) = s := by
  have hshown : Piece.shown ∘ Piece.char = id := rfl
  simp only [decodeLossy, encode, pieces, piecesAfter_encodeChars, List.map_map, hshown,
    List.map_id, String.ofList_toList]

theorem encode_inj {s t : String} : encode s = encode t ↔ s = t := by
  constructor
  · intro heq
    have hdecoded := congrArg decodeLossy heq
    rwa [decodeLossy_encode, decodeLossy_encode] at hdecoded
  · rintro rfl
    rfl

/-! ### The order of the bytes -/

theorem utf8EncodeChar_append_lt {c d : Char} (hlt : c < d) (xs ys : List UInt8) :
    String.utf8EncodeChar c ++ xs < String.utf8EncodeChar d ++ ys := by
  -- longer forms have larger first bytes, and in one form the parts decide
  have hnat : c.toNat < d.toNat := hlt
  rcases utf8EncodeChar_cases c with ⟨_, hc⟩ | ⟨_, _, _, _, _, _, hc⟩ |
      ⟨_, _, _, _, _, _, _, _, hc⟩ | ⟨_, _, _, _, _, _, _, _, _, _, hc⟩ <;>
    rcases utf8EncodeChar_cases d with ⟨_, hd⟩ | ⟨_, _, _, _, _, _, hd⟩ |
      ⟨_, _, _, _, _, _, _, _, hd⟩ | ⟨_, _, _, _, _, _, _, _, _, _, hd⟩ <;>
    rw [hc, hd] <;>
    simp (disch := omega) only [List.cons_append, List.nil_append, ofNat_cons_lt] <;>
    omega

theorem encodeChars_lt {xs ys : List Char} (hlt : xs < ys) : encodeChars xs < encodeChars ys := by
  induction xs generalizing ys with
  | nil =>
      cases ys with
      | nil => exact absurd hlt (List.lt_irrefl _)
      | cons d ys =>
          obtain ⟨a, tail, hbytes, -⟩ := exists_leadingPiece d
          simp [encodeChars, hbytes]
  | cons c xs ih =>
      cases ys with
      | nil => simp at hlt
      | cons d ys =>
          rw [List.cons_lt_cons_iff] at hlt
          simp only [encodeChars, List.flatMap_cons]
          rcases hlt with hlt | ⟨rfl, hlt⟩
          · exact utf8EncodeChar_append_lt hlt _ _
          · exact List.append_left_lt (ih hlt)

/-- Texts and their bytes come in the same order. -/
theorem encode_lt {s t : String} (hlt : s < t) : encode s < encode t :=
  encodeChars_lt (String.lt_iff.mp hlt)

end Utf8
end Text
end VirtualShell
