import Mathlib.Data.List.Basic
import VirtualShell.Proofs.Text.Utf8

/-!
# What can be decoded

Bytes decode to a text exactly if they are the bytes of that text: no long form, no surrogate and no
number above the last character's is taken for one.  So a sequence of bytes has at most one text,
and what ends in a byte of its own kind can be cut there.
-/

namespace VirtualShell
namespace Text
namespace Utf8

/-- The bounds that a first byte sets to itself and to the byte after it. -/
theorem lead_eq_sequence {a : UInt8} {length : Nat} {low high : UInt8}
    (hlead : lead a = .sequence length low high) :
    0x80 ≤ low.toNat ∧ high.toNat ≤ 0xBF ∧
      ((length = 2 ∧ 0xC2 ≤ a.toNat ∧ a.toNat < 0xE0) ∨
        (length = 3 ∧ 0xE0 ≤ a.toNat ∧ a.toNat < 0xF0 ∧ (a.toNat = 0xE0 → 0xA0 ≤ low.toNat) ∧
          (a.toNat = 0xED → high.toNat ≤ 0x9F)) ∨
        (length = 4 ∧ 0xF0 ≤ a.toNat ∧ a.toNat < 0xF5 ∧ (a.toNat = 0xF0 → 0x90 ≤ low.toNat) ∧
          (a.toNat = 0xF4 → high.toNat ≤ 0x8F))) := by
  have hlt : ∀ bound : UInt8, a < bound ↔ a.toNat < bound.toNat := fun _ => UInt8.lt_iff_toNat_lt
  have heq : ∀ bound : UInt8, a = bound ↔ a.toNat = bound.toNat := fun _ => UInt8.toNat_inj.symm
  unfold lead at hlead
  simp only [hlt, heq] at hlead
  split_ifs at hlead
  all_goals cases hlead
  all_goals simp_all
  all_goals omega

theorem lead_eq_single {a : UInt8} (hlead : lead a = .single) : a.toNat < 0x80 := by
  unfold lead at hlead
  split_ifs at hlead with hlow
  exact UInt8.lt_iff_toNat_lt.mp hlow

/-! ### A number has one form -/

section Forms

variable {c : Char} {a b d e : Nat}

theorem utf8EncodeChar_two (hlow : 2 ≤ a) (ha : a < 32) (hb : b < 64)
    (hc : c.toNat = a * 64 + b) :
    String.utf8EncodeChar c = [UInt8.ofNat (a + 192), UInt8.ofNat (b + 128)] := by
  rcases utf8EncodeChar_cases c with ⟨hone, -⟩ | ⟨a', b', -, -, hb', hc', hbytes⟩ |
      ⟨_, _, _, _, _, _, hthree, -⟩ | ⟨_, _, _, _, _, _, _, _, hfour, -⟩
  · omega
  · obtain ⟨rfl, rfl⟩ : a' = a ∧ b' = b := by omega
    exact hbytes
  all_goals omega

theorem utf8EncodeChar_three (hb : b < 64) (hd : d < 64) (ha : a < 16) (hlong : 0x800 ≤ c.toNat)
    (hc : c.toNat = (a * 64 + b) * 64 + d) :
    String.utf8EncodeChar c =
      [UInt8.ofNat (a + 224), UInt8.ofNat (b + 128), UInt8.ofNat (d + 128)] := by
  rcases utf8EncodeChar_cases c with ⟨hone, -⟩ | ⟨_, _, _, _, _, htwo, -⟩ |
      ⟨a', b', d', -, hb', hd', -, hc', hbytes⟩ | ⟨_, _, _, _, _, _, _, _, hfour, -⟩
  · omega
  · omega
  · obtain ⟨rfl, rfl, rfl⟩ : a' = a ∧ b' = b ∧ d' = d := by omega
    exact hbytes
  · omega

theorem utf8EncodeChar_four (hb : b < 64) (hd : d < 64) (he : e < 64) (hlong : 0x10000 ≤ c.toNat)
    (hc : c.toNat = ((a * 64 + b) * 64 + d) * 64 + e) :
    String.utf8EncodeChar c = [UInt8.ofNat (a + 240), UInt8.ofNat (b + 128),
      UInt8.ofNat (d + 128), UInt8.ofNat (e + 128)] := by
  rcases utf8EncodeChar_cases c with ⟨hone, -⟩ | ⟨_, _, _, _, _, htwo, -⟩ |
      ⟨_, _, _, _, _, _, _, hthree, -⟩ | ⟨a', b', d', e', -, hb', hd', he', -, hc', hbytes⟩
  · omega
  · omega
  · omega
  · obtain ⟨rfl, rfl, rfl, rfl⟩ : a' = a ∧ b' = b ∧ d' = d ∧ e' = e := by omega
    exact hbytes

end Forms

theorem toNat_ofNat_of_isValidChar {n : Nat} (hn : n.isValidChar) : (Char.ofNat n).toNat = n := by
  rw [Char.ofNat, dif_pos hn]
  rfl

theorem tailBits_lt (b : UInt8) : tailBits b < 64 :=
  Nat.mod_lt _ (by decide)

/-- A byte within the bounds of those that continue a character is given by its six bits. -/
theorem toNat_eq_tailBits {b : UInt8} (hlow : 0x80 ≤ b.toNat) (hhigh : b.toNat ≤ 0xBF) :
    b.toNat = tailBits b + 128 := by
  rw [tailBits]
  omega

theorem toNat_eq_of_isTail {b : UInt8} (hb : isTail b = true) : b.toNat = tailBits b + 128 := by
  rw [isTail, Bool.and_eq_true, decide_eq_true_eq, decide_eq_true_eq, UInt8.le_iff_toNat_le,
    UInt8.le_iff_toNat_le] at hb
  exact toNat_eq_tailBits hb.1 hb.2

theorem ofNat_eq_of_toNat {b : UInt8} {n : Nat} (hb : b.toNat = n) : UInt8.ofNat n = b := by
  rw [← hb, UInt8.ofNat_toNat]

section Bytes

variable {a b c d : UInt8} {ch : Char}

theorem utf8EncodeChar_of_two (ha : 0xC2 ≤ a.toNat) (ha' : a.toNat < 0xE0)
    (hb : b.toNat = tailBits b + 128) (hch : Char.ofNat (a.toNat % 32 * 64 + tailBits b) = ch) :
    String.utf8EncodeChar ch = [a, b] := by
  have hbits := tailBits_lt b
  have hnat : ch.toNat = a.toNat % 32 * 64 + tailBits b := by
    rw [← hch, toNat_ofNat_of_isValidChar (.inl (by omega))]
  rw [utf8EncodeChar_two (by omega) (by omega) hbits hnat,
    ofNat_eq_of_toNat (by omega : a.toNat = a.toNat % 32 + 192), ofNat_eq_of_toNat hb]

/-- The bounds of the second byte have kept out long forms and surrogates. -/
theorem utf8EncodeChar_of_three (ha : 0xE0 ≤ a.toNat) (ha' : a.toNat < 0xF0)
    (hb : b.toNat = tailBits b + 128) (hc : c.toNat = tailBits c + 128)
    (hlong : a.toNat = 0xE0 → 0xA0 ≤ b.toNat) (hsurrogate : a.toNat = 0xED → b.toNat ≤ 0x9F)
    (hch : Char.ofNat ((a.toNat % 16 * 64 + tailBits b) * 64 + tailBits c) = ch) :
    String.utf8EncodeChar ch = [a, b, c] := by
  have hbbits := tailBits_lt b
  have hcbits := tailBits_lt c
  have hvalid : ((a.toNat % 16 * 64 + tailBits b) * 64 + tailBits c).isValidChar := by
    show _ < 0xD800 ∨ 0xDFFF < _ ∧ _ < 0x110000
    omega
  have hnat : ch.toNat = (a.toNat % 16 * 64 + tailBits b) * 64 + tailBits c := by
    rw [← hch, toNat_ofNat_of_isValidChar hvalid]
  rw [utf8EncodeChar_three hbbits hcbits (by omega) (by omega) hnat,
    ofNat_eq_of_toNat (by omega : a.toNat = a.toNat % 16 + 224), ofNat_eq_of_toNat hb,
    ofNat_eq_of_toNat hc]

/-- The bounds of the second byte have kept out long forms and what is above the last character. -/
theorem utf8EncodeChar_of_four (ha : 0xF0 ≤ a.toNat) (ha' : a.toNat < 0xF5)
    (hb : b.toNat = tailBits b + 128) (hc : c.toNat = tailBits c + 128)
    (hd : d.toNat = tailBits d + 128) (hlong : a.toNat = 0xF0 → 0x90 ≤ b.toNat)
    (hlast : a.toNat = 0xF4 → b.toNat ≤ 0x8F)
    (hch : Char.ofNat
      (((a.toNat % 8 * 64 + tailBits b) * 64 + tailBits c) * 64 + tailBits d) = ch) :
    String.utf8EncodeChar ch = [a, b, c, d] := by
  have hbbits := tailBits_lt b
  have hcbits := tailBits_lt c
  have hdbits := tailBits_lt d
  have hvalid :
      (((a.toNat % 8 * 64 + tailBits b) * 64 + tailBits c) * 64 + tailBits d).isValidChar := by
    show _ < 0xD800 ∨ 0xDFFF < _ ∧ _ < 0x110000
    omega
  have hnat : ch.toNat =
      ((a.toNat % 8 * 64 + tailBits b) * 64 + tailBits c) * 64 + tailBits d := by
    rw [← hch, toNat_ofNat_of_isValidChar hvalid]
  rw [utf8EncodeChar_four hbbits hcbits hdbits (by omega) hnat,
    ofNat_eq_of_toNat (by omega : a.toNat = a.toNat % 8 + 240), ofNat_eq_of_toNat hb,
    ofNat_eq_of_toNat hc, ofNat_eq_of_toNat hd]

end Bytes

/-- A character is decoded from its own bytes only. -/
theorem exists_of_leadingPiece {a : UInt8} {rest : List UInt8} {ch : Char}
    (hpiece : leadingPiece a rest = .char ch) :
    ∃ tail later, rest = tail ++ later ∧ String.utf8EncodeChar ch = a :: tail := by
  -- byte by byte, until there are as many as the first one announces
  unfold leadingPiece at hpiece
  split at hpiece
  · rename_i hlead
    have ha := lead_eq_single hlead
    have hch : ch.toNat = a.toNat := by
      rw [← Piece.char.inj hpiece, toNat_ofNat_of_isValidChar (.inl (by omega))]
    refine ⟨[], rest, rfl, ?_⟩
    rw [utf8EncodeChar_ascii (by omega), hch, Nat.toUInt8, UInt8.ofNat_toNat]
  · cases hpiece
  · rename_i length low high hlead
    obtain ⟨hlow, hhigh, hlength⟩ := lead_eq_sequence hlead
    split at hpiece
    · cases hpiece
    · rename_i b rest
      split at hpiece
      · cases hpiece
      · rename_i hb
        rw [not_or, UInt8.not_lt, UInt8.not_lt, UInt8.le_iff_toNat_le, UInt8.le_iff_toNat_le] at hb
        have hbnat := toNat_eq_tailBits (hlow.trans hb.1) (hb.2.trans hhigh)
        split at hpiece
        · rename_i htwo
          rw [htwo] at hlength
          refine ⟨[b], rest, rfl, ?_⟩
          exact utf8EncodeChar_of_two (by omega) (by omega) hbnat (Piece.char.inj hpiece)
        · split at hpiece
          · cases hpiece
          · rename_i htwo c rest
            split at hpiece
            · cases hpiece
            · rename_i hc
              have hcnat := toNat_eq_of_isTail (by simpa using hc)
              split at hpiece
              · rename_i hthree
                refine ⟨[b, c], rest, rfl, ?_⟩
                exact utf8EncodeChar_of_three (by omega) (by omega) hbnat hcnat (by omega)
                  (by omega) (Piece.char.inj hpiece)
              · split at hpiece
                · cases hpiece
                · rename_i hthree d rest
                  split at hpiece
                  · cases hpiece
                  · rename_i hd
                    have hdnat := toNat_eq_of_isTail (by simpa using hd)
                    refine ⟨[b, c, d], rest, rfl, ?_⟩
                    exact utf8EncodeChar_of_four (by omega) (by omega) hbnat hcnat hdnat (by omega)
                      (by omega) (Piece.char.inj hpiece)

/-- What has no fault is the text of its characters. -/
theorem encodeChars_shown {index skip : Nat} {bytes : List UInt8}
    (hpieces : faultAfter index (piecesAfter skip bytes) = none) :
    encodeChars ((piecesAfter skip bytes).map Piece.shown) = bytes.drop skip := by
  induction bytes generalizing index skip with
  | nil => cases skip <;> rfl
  | cons a rest ih =>
      cases skip with
      | succ skip => exact ih hpieces
      | zero =>
          rw [piecesAfter] at hpieces ⊢
          cases hpiece : leadingPiece a rest with
          | broken length => simp [hpiece, faultAfter] at hpieces
          | cut length => simp [hpiece, faultAfter] at hpieces
          | char ch =>
              obtain ⟨tail, later, hrest, hbytes⟩ := exists_of_leadingPiece hpiece
              -- the bytes behind the first one are those that are skipped next
              have hsize : ch.utf8Size - 1 = tail.length := by
                have hlength := String.length_utf8EncodeChar ch
                rw [hbytes, List.length_cons] at hlength
                omega
              rw [hpiece, faultAfter, Piece.size, hsize] at hpieces
              rw [List.map_cons, Piece.shown, encodeChars_cons, hbytes, Piece.size, hsize,
                ih hpieces, hrest, List.drop_left, List.drop_zero, List.cons_append]

/-- Bytes decode to a text exactly if they are its bytes. -/
theorem decode_eq_ok_iff {bytes : List UInt8} {s : String} :
    decode bytes = .ok s ↔ bytes = encode s := by
  constructor
  · intro hdecode
    rw [decode] at hdecode
    cases hfault : faultAfter 0 (pieces bytes) with
    | some fault => simp [hfault] at hdecode
    | none =>
        have hbytes := encodeChars_shown hfault
        simp only [hfault, Except.ok.injEq] at hdecode
        rw [← hdecode, encode, String.toList_ofList]
        exact hbytes.symm
  · rintro rfl
    exact decode_encode s

theorem decode_eq_error_iff {bytes : List UInt8} :
    (∃ fault, decode bytes = .error fault) ↔ ∀ s, bytes ≠ encode s := by
  constructor
  · rintro ⟨fault, hfault⟩ s rfl
    rw [decode_encode] at hfault
    cases hfault
  · intro hnone
    cases hdecode : decode bytes with
    | error fault => exact ⟨fault, rfl⟩
    | ok s => exact absurd (decode_eq_ok_iff.mp hdecode) (hnone s)

/-- A last byte from the first half of the range is a character of its own. -/
theorem exists_of_encode_concat {s : String} {bytes : List UInt8} {b : UInt8} (hb : b.toNat < 0x80)
    (hbytes : encode s = bytes ++ [b]) :
    ∃ t, s = t ++ String.ofList [Char.ofNat b.toNat] ∧ bytes = encode t := by
  rcases List.eq_nil_or_concat s.toList with hnil | ⟨cs, c, hconcat⟩
  · simp [encode, hnil] at hbytes
  · have hlast : encodeChars cs ++ String.utf8EncodeChar c = bytes ++ [b] := by
      rw [← hbytes, encode, hconcat, List.concat_eq_append, encodeChars_append, encodeChars_cons,
        encodeChars_nil, List.append_nil]
    have hc : c.toNat < 0x80 := by
      by_contra hlarge
      have hmem : b ∈ String.utf8EncodeChar c := by
        have hget := congrArg List.getLast? hlast
        rw [List.getLast?_append_of_ne_nil _ String.utf8EncodeChar_ne_nil,
          List.getLast?_concat] at hget
        exact List.mem_of_getLast? hget
      have hle := le_of_mem_utf8EncodeChar (Nat.not_lt.mp hlarge) hmem
      omega
    rw [utf8EncodeChar_ascii hc] at hlast
    obtain ⟨rfl, hcb⟩ := List.append_inj' hlast rfl
    have hchar : Char.ofNat b.toNat = c := by
      rw [← List.singleton_inj.mp hcb, Nat.toUInt8, toNat_ofNat_of_lt (by omega), Char.ofNat_toNat]
    refine ⟨String.ofList cs, ?_, by rw [encode, String.toList_ofList]⟩
    rw [← String.toList_inj, hconcat, hchar]
    simp

theorem encode_append (s t : String) : encode (s ++ t) = encode s ++ encode t := by
  rw [encode, String.toList_append, encodeChars_append]
  rfl

end Utf8
end Text
end VirtualShell
