import VirtualShell.Json.Writer
import VirtualShell.Proofs.Json.Spelling

/-!
# Written texts

A written text holds escapes exactly where one is needed, by letter for seven characters and by
number for the other controls.  So it is one of the spellings of its text, and is read back.
-/

namespace VirtualShell
namespace Json

open Text.Utf8 (encodeChars encodeChars_cons encodeChars_append utf8EncodeChar_ascii)

/-- The bytes of written characters. -/
theorem encodeChars_ascii_cons {c : Char} (hc : c.toNat < 0x80) (cs : List Char) :
    encodeChars (c :: cs) = byte c :: encodeChars cs := by
  rw [encodeChars_cons, utf8EncodeChar_ascii hc]
  rfl

theorem spellsDigit_digitChar {value : Nat} (hvalue : value < 16) :
    SpellsDigit value (byte (Nat.digitChar value)) := ⟨hvalue, .inl rfl⟩

theorem toNat_digitChar_lt {n : Nat} (hn : n < 16) : (Nat.digitChar n).toNat < 0x80 := by
  interval_cases n <;> decide

/-- A number in small digits. -/
theorem spellsHex_digits {n : Nat} (hn : n < 0x10000) :
    SpellsHex n [byte (Nat.digitChar (n / 16 / 16 / 16)), byte (Nat.digitChar (n / 16 / 16 % 16)),
      byte (Nat.digitChar (n / 16 % 16)), byte (Nat.digitChar (n % 16))] := by
  have hvalue : ((n / 16 / 16 / 16 * 16 + n / 16 / 16 % 16) * 16 + n / 16 % 16) * 16 + n % 16 =
      n := by omega
  have hdigits := SpellsHex.mk (spellsDigit_digitChar (show n / 16 / 16 / 16 < 16 by omega))
    (spellsDigit_digitChar (show n / 16 / 16 % 16 < 16 by omega))
    (spellsDigit_digitChar (show n / 16 % 16 < 16 by omega))
    (spellsDigit_digitChar (show n % 16 < 16 by omega))
  rw [hvalue] at hdigits
  exact hdigits

/-- The control characters without a letter of their own are written by number. -/
theorem spellsHex_hexPair {n : Nat} (hn : n < 0x100) :
    SpellsHex n (byte '0' :: byte '0' :: encodeChars (hexPair n)) := by
  have hdigits := spellsHex_digits (show n < 0x10000 by omega)
  rw [show n / 16 / 16 = 0 by omega] at hdigits
  rw [hexPair, encodeChars_ascii_cons (toNat_digitChar_lt (by omega)),
    encodeChars_ascii_cons (toNat_digitChar_lt (by omega))]
  exact hdigits

/-- What is written for a character spells it. -/
theorem spellsChar_escapeChar (c : Char) : SpellsChar c (encodeChars (escapeChar c)) := by
  have hletter : ∀ letter : Char, letter.toNat < 0x80 → (letter, c) ∈ escapeLetters →
      SpellsChar c (encodeChars ['\\', letter]) := by
    intro letter hascii hmem
    rw [encodeChars_ascii_cons (by decide), encodeChars_ascii_cons hascii]
    exact .letter hmem
  -- seven characters have a letter, other controls are numbered, the rest stand for themselves
  unfold escapeChar
  split
  · exact hletter '"' (by decide) (by decide)
  · exact hletter '\\' (by decide) (by decide)
  · exact hletter 'b' (by decide) (by decide)
  · exact hletter 'f' (by decide) (by decide)
  · exact hletter 'n' (by decide) (by decide)
  · exact hletter 'r' (by decide) (by decide)
  · exact hletter 't' (by decide) (by decide)
  rename_i hquote hbackslash _ _ _ _ _
  split
  · rename_i hcontrol
    simp only [List.cons_append, List.nil_append]
    rw [encodeChars_ascii_cons (by decide), encodeChars_ascii_cons (by decide),
      encodeChars_ascii_cons (by decide), encodeChars_ascii_cons (by decide)]
    exact .number (spellsHex_hexPair (by omega))
  · rename_i hcontrol
    rw [encodeChars_cons, Text.Utf8.encodeChars_nil, List.append_nil]
    exact .plain hquote hbackslash (Nat.not_lt.mp hcontrol)

theorem spellsChars_flatMap (cs : List Char) :
    SpellsChars cs (encodeChars (cs.flatMap escapeChar)) := by
  induction cs with
  | nil => exact .nil
  | cons c cs ih =>
      rw [List.flatMap_cons, encodeChars_append]
      exact .cons (spellsChar_escapeChar c) ih

/-- A written text is one of the spellings of the text. -/
theorem spellsText_writeString (s : String) : SpellsText s (encodeChars (writeString s)) := by
  have hbytes : encodeChars (writeString s) =
      byte '"' :: (encodeChars (s.toList.flatMap escapeChar) ++ [byte '"']) := by
    rw [writeString, List.append_assoc, List.singleton_append, encodeChars_ascii_cons (by decide),
      encodeChars_append, encodeChars_ascii_cons (by decide)]
    rfl
  rw [hbytes]
  exact .quoted (spellsChars_flatMap s.toList)

end Json
end VirtualShell
