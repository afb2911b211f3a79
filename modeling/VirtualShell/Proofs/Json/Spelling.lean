import VirtualShell.Json.Reader
import VirtualShell.Proofs.Text.Utf8

/-!
# Texts in all spellings

Between the quotes of a text a character stands for itself, or a backslash and a letter do, or its
number, in one piece or as a surrogate pair.  The grammar says so without a word on how bytes are
read; the lemmas behind it say that every spelling is read as the text that it spells.
-/

namespace VirtualShell
namespace Json

open Text.Utf8 (encodeChars encodeChars_cons utf8EncodeChar_ascii)

/-! ### The grammar -/

/-- The letters that stand for a character behind a backslash. -/
def escapeLetters : List (Char × Char) :=
  [('"', '"'), ('\\', '\\'), ('/', '/'), ('b', '\x08'), ('f', '\x0c'), ('n', '\n'), ('r', '\r'),
    ('t', '\t')]

/-- A hexadecimal digit, in either case. -/
def SpellsDigit (value : Nat) (b : UInt8) : Prop :=
  value < 16 ∧ (b = byte (Nat.digitChar value) ∨ b = byte (Nat.digitChar value).toUpper)

/-- A number of sixteen bits as four hexadecimal digits. -/
inductive SpellsHex : Nat → List UInt8 → Prop
  | mk {p q r s : Nat} {a b c d : UInt8} (hp : SpellsDigit p a) (hq : SpellsDigit q b)
      (hr : SpellsDigit r c) (hs : SpellsDigit s d) :
      SpellsHex (((p * 16 + q) * 16 + r) * 16 + s) [a, b, c, d]

/-- A character between the quotes of a text: as itself, by a letter, by its number, or by the two
halves of a surrogate pair. -/
inductive SpellsChar : Char → List UInt8 → Prop
  | plain {c : Char} (hquote : c ≠ '"') (hbackslash : c ≠ '\\') (hcontrol : 0x20 ≤ c.toNat) :
      SpellsChar c (String.utf8EncodeChar c)
  | letter {letter c : Char} (hletter : (letter, c) ∈ escapeLetters) :
      SpellsChar c [byte '\\', byte letter]
  | number {c : Char} {digits : List UInt8} (hdigits : SpellsHex c.toNat digits) :
      SpellsChar c (byte '\\' :: byte 'u' :: digits)
  | pair {c : Char} {high low : Nat} {first second : List UInt8} (hhigh : high < 0x400)
      (hlow : low < 0x400) (hc : c.toNat = 0x10000 + high * 0x400 + low)
      (hfirst : SpellsHex (0xD800 + high) first) (hsecond : SpellsHex (0xDC00 + low) second) :
      SpellsChar c (byte '\\' :: byte 'u' :: (first ++ byte '\\' :: byte 'u' :: second))

/-- The characters of a text, one after the other. -/
inductive SpellsChars : List Char → List UInt8 → Prop
  | nil : SpellsChars [] []
  | cons {c : Char} {cs : List Char} {bytes later : List UInt8} (hc : SpellsChar c bytes)
      (hcs : SpellsChars cs later) : SpellsChars (c :: cs) (bytes ++ later)

/-- A text between quotes. -/
inductive SpellsText : String → List UInt8 → Prop
  | quoted {s : String} {bytes : List UInt8} (hs : SpellsChars s.toList bytes) :
      SpellsText s (byte '"' :: (bytes ++ [byte '"']))

/-! ### Copied bytes -/

/-- Bytes that the reader of strings copies. -/
def IsPlain (b : UInt8) : Prop :=
  b ≠ byte '"' ∧ b ≠ byte '\\' ∧ ¬ b < 0x20

theorem readStringAfter_plain {bytes : List UInt8} (hbytes : ∀ b ∈ bytes, IsPlain b)
    (done rest : List UInt8) (index : Nat) :
    ∃ index', readStringAfter 0 done index (bytes ++ rest) =
      readStringAfter 0 (bytes.reverse ++ done) index' rest := by
  induction bytes generalizing done index with
  | nil => exact ⟨index, rfl⟩
  | cons b bytes ih =>
      rw [List.forall_mem_cons] at hbytes
      obtain ⟨⟨hquote, hbackslash, hcontrol⟩, hbytes⟩ := hbytes
      obtain ⟨index', hread⟩ := ih hbytes (b :: done) (index + 1)
      refine ⟨index', ?_⟩
      rw [List.cons_append, readStringAfter, if_neg hquote, if_neg hbackslash, if_neg hcontrol,
        hread]
      simp

theorem readStringAfter_skip (skipped : List UInt8) (done rest : List UInt8) (index : Nat) :
    ∃ index', readStringAfter skipped.length done index (skipped ++ rest) =
      readStringAfter 0 done index' rest := by
  induction skipped generalizing index with
  | nil => exact ⟨index, rfl⟩
  | cons b skipped ih =>
      obtain ⟨index', hread⟩ := ih (index + 1)
      exact ⟨index', by rw [List.cons_append, List.length_cons, readStringAfter, hread]⟩

/-! ### Escapes -/

/-- An escape that stands for a character adds the bytes of the character. -/
theorem readStringAfter_escape {c : Char} {letters : List UInt8}
    (hescape : ∀ index rest, readEscape index (letters ++ rest) = .ok (c, letters.length))
    (done rest : List UInt8) (index : Nat) :
    ∃ index', readStringAfter 0 done index (byte '\\' :: (letters ++ rest)) =
      readStringAfter 0 ((String.utf8EncodeChar c).reverse ++ done) index' rest := by
  obtain ⟨index', hskip⟩ := readStringAfter_skip letters
    ((String.utf8EncodeChar c).reverse ++ done) rest (index + 1)
  refine ⟨index', ?_⟩
  rw [readStringAfter, if_neg (by decide), if_pos rfl, hescape]
  exact hskip

theorem readEscape_simple {c : Char} {letter : UInt8} (hu : letter ≠ byte 'u')
    (hletter : simpleEscape? letter = some c) (index : Nat) (rest : List UInt8) :
    readEscape index ([letter] ++ rest) = .ok (c, 1) := by
  rw [List.singleton_append, readEscape, if_neg hu, hletter]

theorem hexDigit?_of_spells {value : Nat} {b : UInt8} (hb : SpellsDigit value b) :
    hexDigit? b = some value := by
  obtain ⟨hvalue, hb⟩ := hb
  interval_cases value <;> rcases hb with rfl | rfl <;> decide

theorem readHexFour_spelled {n : Nat} {digits : List UInt8} (hdigits : SpellsHex n digits)
    (index : Nat) (rest : List UInt8) : readHexFour index (digits ++ rest) = .ok n := by
  cases hdigits with
  | mk hp hq hr hs =>
      have hfour : ∀ a b c d, hexFour? a b c d = do
          let a ← hexDigit? a
          let b ← hexDigit? b
          let c ← hexDigit? c
          let d ← hexDigit? d
          return ((a * 16 + b) * 16 + c) * 16 + d := fun _ _ _ _ => rfl
      simp only [List.cons_append, List.nil_append, readHexFour, hfour, hexDigit?_of_spells hp,
        hexDigit?_of_spells hq, hexDigit?_of_spells hr, hexDigit?_of_spells hs]
      rfl

theorem length_of_spellsHex {n : Nat} {digits : List UInt8} (hdigits : SpellsHex n digits) :
    digits.length = 4 := by
  cases hdigits
  rfl

/-- No character has a surrogate's number. -/
theorem readEscape_number {c : Char} {digits : List UInt8} (hdigits : SpellsHex c.toNat digits)
    (index : Nat) (rest : List UInt8) :
    readEscape index (byte 'u' :: digits ++ rest) = .ok (c, (byte 'u' :: digits).length) := by
  have hvalid : c.toNat < 0xD800 ∨ 0xDFFF < c.toNat ∧ c.toNat < 0x110000 := c.valid
  have halone : ¬ (0xDC00 ≤ c.toNat ∧ c.toNat ≤ 0xDFFF) := by omega
  have hpair : ¬ (0xD800 ≤ c.toNat ∧ c.toNat ≤ 0xDBFF) := by omega
  rw [List.cons_append, readEscape, if_pos rfl, readHexFour_spelled hdigits]
  show (if 0xDC00 ≤ c.toNat ∧ c.toNat ≤ 0xDFFF then _
    else if 0xD800 ≤ c.toNat ∧ c.toNat ≤ 0xDBFF then _ else _) = _
  rw [if_neg halone, if_neg hpair, List.length_cons, length_of_spellsHex hdigits, Char.ofNat_toNat]

theorem readLowSurrogate_spelled {low : Nat} {second : List UInt8} (hlow : low < 0x400)
    (hsecond : SpellsHex (0xDC00 + low) second) (index : Nat) (rest : List UInt8) :
    readLowSurrogate index (byte '\\' :: byte 'u' :: (second ++ rest)) = .ok (0xDC00 + low) := by
  have hrange : ¬ (0xDC00 + low < 0xDC00 ∨ 0xDFFF < 0xDC00 + low) := by omega
  rw [readLowSurrogate, if_neg (by simp)]
  simp only [ne_eq, not_true_eq_false, if_false, readHexFour_spelled hsecond]
  show (if 0xDC00 + low < 0xDC00 ∨ 0xDFFF < 0xDC00 + low then _ else _) = _
  rw [if_neg hrange]

theorem readEscape_pair {c : Char} {high low : Nat} {first second : List UInt8}
    (hhigh : high < 0x400) (hlow : low < 0x400) (hc : c.toNat = 0x10000 + high * 0x400 + low)
    (hfirst : SpellsHex (0xD800 + high) first) (hsecond : SpellsHex (0xDC00 + low) second)
    (index : Nat) (rest : List UInt8) :
    readEscape index (byte 'u' :: (first ++ byte '\\' :: byte 'u' :: second) ++ rest) =
      .ok (c, (byte 'u' :: (first ++ byte '\\' :: byte 'u' :: second)).length) := by
  have halone : ¬ (0xDC00 ≤ 0xD800 + high ∧ 0xD800 + high ≤ 0xDFFF) := by omega
  have hpair : 0xD800 ≤ 0xD800 + high ∧ 0xD800 + high ≤ 0xDBFF := by omega
  have hdrop : (first ++ (byte '\\' :: byte 'u' :: (second ++ rest))).drop 4 =
      byte '\\' :: byte 'u' :: (second ++ rest) := by
    rw [← length_of_spellsHex hfirst, List.drop_left]
  rw [List.cons_append, List.append_assoc, readEscape, if_pos rfl, List.cons_append,
    List.cons_append, readHexFour_spelled hfirst]
  show (if 0xDC00 ≤ 0xD800 + high ∧ 0xD800 + high ≤ 0xDFFF then _
    else if 0xD800 ≤ 0xD800 + high ∧ 0xD800 + high ≤ 0xDBFF then _ else _) = _
  rw [if_neg halone, if_pos hpair, hdrop, readLowSurrogate_spelled hlow hsecond]
  show Except.ok (Char.ofNat (0x10000 + (0xD800 + high - 0xD800) * 0x400 + (0xDC00 + low - 0xDC00)),
    11) = _
  have hnumber : 0x10000 + (0xD800 + high - 0xD800) * 0x400 + (0xDC00 + low - 0xDC00) =
      c.toNat := by omega
  rw [hnumber, Char.ofNat_toNat]
  simp [length_of_spellsHex hfirst, length_of_spellsHex hsecond]

/-! ### Characters and texts -/

/-- The characters that may stand for themselves. -/
theorem isPlain_of_mem {c : Char} (hquote : c ≠ '"') (hbackslash : c ≠ '\\')
    (hcontrol : 0x20 ≤ c.toNat) {b : UInt8} (hb : b ∈ String.utf8EncodeChar c) : IsPlain b := by
  -- no byte of a longer character is as small as a quote or a backslash
  rcases Nat.lt_or_ge c.toNat 0x80 with hc | hc
  · rw [utf8EncodeChar_ascii hc, List.mem_singleton] at hb
    have hnat : b.toNat = c.toNat := by
      rw [hb]
      exact Text.Utf8.toNat_ofNat_of_lt (by omega)
    have hne : ∀ d : Char, d.toNat < 0x80 → c ≠ d → b ≠ byte d := by
      intro d hd hcd heq
      refine hcd (Char.toNat_inj.mp ?_)
      rw [← hnat, heq]
      exact Text.Utf8.toNat_ofNat_of_lt (by omega)
    refine ⟨hne '"' (by decide) hquote, hne '\\' (by decide) hbackslash, ?_⟩
    rw [UInt8.lt_iff_toNat_lt, hnat]
    exact Nat.not_lt.mpr hcontrol
  · have hlarge := Text.Utf8.le_of_mem_utf8EncodeChar hc hb
    refine ⟨?_, ?_, ?_⟩
    · rintro rfl
      exact absurd hlarge (by decide)
    · rintro rfl
      exact absurd hlarge (by decide)
    · rw [UInt8.lt_iff_toNat_lt]
      exact Nat.not_lt.mpr (Nat.le_trans (by decide) hlarge)

/-- Reading a spelling of a character adds the bytes of the character. -/
theorem readStringAfter_spelled {c : Char} {bytes : List UInt8} (hc : SpellsChar c bytes)
    (done rest : List UInt8) (index : Nat) :
    ∃ index', readStringAfter 0 done index (bytes ++ rest) =
      readStringAfter 0 ((String.utf8EncodeChar c).reverse ++ done) index' rest := by
  cases hc with
  | plain hquote hbackslash hcontrol =>
      exact readStringAfter_plain (fun b hb => isPlain_of_mem hquote hbackslash hcontrol hb)
        done rest index
  | letter hletter =>
      rename_i letter
      have hall : ∀ pair ∈ escapeLetters,
          byte pair.1 ≠ byte 'u' ∧ simpleEscape? (byte pair.1) = some pair.2 := by decide
      obtain ⟨hu, hsimple⟩ := hall _ hletter
      have hescape : ∀ index rest, readEscape index ([byte letter] ++ rest) = .ok (c, 1) :=
        readEscape_simple hu hsimple
      exact readStringAfter_escape hescape done rest index
  | number hdigits =>
      exact readStringAfter_escape (readEscape_number hdigits) done rest index
  | pair hhigh hlow hc hfirst hsecond =>
      exact readStringAfter_escape (readEscape_pair hhigh hlow hc hfirst hsecond) done rest index

theorem readStringAfter_chars {cs : List Char} {bytes : List UInt8} (hcs : SpellsChars cs bytes)
    (done rest : List UInt8) (index : Nat) :
    ∃ index', readStringAfter 0 done index (bytes ++ rest) =
      readStringAfter 0 ((encodeChars cs).reverse ++ done) index' rest := by
  induction hcs generalizing done index with
  | nil => exact ⟨index, rfl⟩
  | @cons c cs bytes later hc _ ih =>
      obtain ⟨middle, hfirst⟩ := readStringAfter_spelled hc done (later ++ rest) index
      obtain ⟨index', hlater⟩ := ih ((String.utf8EncodeChar c).reverse ++ done) middle
      refine ⟨index', ?_⟩
      rw [List.append_assoc, hfirst, hlater, encodeChars_cons, List.reverse_append,
        List.append_assoc]

/-- A spelled text is read from its opening quote on. -/
theorem readString_spelled {s : String} {bytes : List UInt8} (hs : SpellsText s bytes)
    (rest : List UInt8) (index : Nat) :
    ∃ index', readString (Input.advance ⟨bytes ++ rest, index⟩ 1) =
      .ok (s, ⟨rest, index'⟩) := by
  cases hs with
  | quoted hchars =>
      rename_i bytes
      obtain ⟨middle, hread⟩ := readStringAfter_chars hchars [] (byte '"' :: rest) (index + 1)
      refine ⟨middle + 1, ?_⟩
      have hquote : readStringAfter 0 ((encodeChars s.toList).reverse ++ []) middle
          (byte '"' :: rest) = .ok (encodeChars s.toList, ⟨rest, middle + 1⟩) := by
        rw [readStringAfter, if_pos rfl, List.append_nil, List.reverse_reverse]
      have hdecode : decodeString (encodeChars s.toList) (middle + 1) = .ok s := by
        rw [decodeString]
        simp only [show encodeChars s.toList = Text.Utf8.encode s from rfl,
          Text.Utf8.decode_encode]
      have hinput : Input.advance ⟨byte '"' :: (bytes ++ [byte '"']) ++ rest, index⟩ 1 =
          ⟨bytes ++ byte '"' :: rest, index + 1⟩ := by simp [Input.advance]
      rw [hinput, readString, hread, hquote]
      show (decodeString (encodeChars s.toList) (middle + 1) >>= fun t =>
        pure (t, (⟨rest, middle + 1⟩ : Input))) = _
      rw [hdecode]
      rfl

end Json
end VirtualShell
