import VirtualShell.Proofs.Json.Numbers

/-!
# Spelled values are read

Texts, whole numbers in the range of timestamps and lists of texts are all that a stored node is
made of.  The parts of a list or an object stand between commas, with space around them wherever it
is wanted.  Each value is read as itself, whatever follows it there.
-/

namespace VirtualShell
namespace Json

open Text.Utf8 (encodeChars encodeChars_append)

/-! ### Space and commas -/

/-- Nothing but space. -/
def IsSpace (bytes : List UInt8) : Prop :=
  ∀ b ∈ bytes, isSpace b = true

/-- Parts with commas between them up to a closing byte, with space before each part, comma or
closing byte.  The first part has no comma before it. -/
inductive Separated {α : Type} (close : UInt8) (Spells : α → List UInt8 → Prop) :
    Bool → List α → List UInt8 → Prop
  | close {first : Bool} {space : List UInt8} (hspace : IsSpace space) :
      Separated close Spells first [] (space ++ [close])
  | first {x : α} {xs : List α} {space part later : List UInt8} (hspace : IsSpace space)
      (hx : Spells x part) (hxs : Separated close Spells false xs later) :
      Separated close Spells true (x :: xs) (space ++ (part ++ later))
  | further {x : α} {xs : List α} {before behind part later : List UInt8}
      (hbefore : IsSpace before) (hbehind : IsSpace behind) (hx : Spells x part)
      (hxs : Separated close Spells false xs later) :
      Separated close Spells false (x :: xs) (before ++ byte ',' :: (behind ++ (part ++ later)))

theorem isSpace_nil : IsSpace [] := fun _ hb => absurd hb List.not_mem_nil

/-- Behind a comma further parts go on like first ones. -/
theorem Separated.comma {α : Type} {close : UInt8} {Spells : α → List UInt8 → Prop} {x : α}
    {xs : List α} {bytes : List UInt8} (hbytes : Separated close Spells true (x :: xs) bytes) :
    Separated close Spells false (x :: xs) (byte ',' :: bytes) := by
  cases hbytes with
  | first hspace hx hxs => exact .further isSpace_nil hspace hx hxs

theorem skipSpace_append {space : List UInt8} (hspace : IsSpace space) {b : UInt8}
    (hb : isSpace b = false) (tail : List UInt8) (index : Nat) :
    Input.skipSpace ⟨space ++ b :: tail, index⟩ = ⟨b :: tail, index + space.length⟩ := by
  have htake : (space ++ b :: tail).takeWhile isSpace = space := by
    rw [List.takeWhile_append_of_pos hspace]
    simp [hb]
  rw [Input.skipSpace, Input.advance, htake, List.drop_left]

theorem skipSpace_of_isSpace {space : List UInt8} (hspace : IsSpace space) (index : Nat) :
    Input.skipSpace ⟨space, index⟩ = ⟨[], index + space.length⟩ := by
  have htake : space.takeWhile isSpace = space := by
    rw [← List.append_nil space, List.takeWhile_append_of_pos hspace, List.takeWhile_nil]
  rw [Input.skipSpace, Input.advance, htake, List.drop_length]

theorem endsNumber_cons {b : UInt8} (hdigit : isDigit b = false) (hpoint : b ≠ byte '.')
    (hlower : b ≠ byte 'e') (hupper : b ≠ byte 'E') (rest : List UInt8) :
    EndsNumber (b :: rest) := by
  intro c hc
  obtain rfl : b = c := by simpa using hc
  exact ⟨hdigit, hpoint, hlower, hupper⟩

theorem endsNumber_of_isSpace {b : UInt8} (hb : isSpace b = true) (rest : List UInt8) :
    EndsNumber (b :: rest) := by
  simp only [isSpace, Bool.or_eq_true, beq_iff_eq] at hb
  rcases hb with ((rfl | rfl) | rfl) | rfl <;>
    exact endsNumber_cons (by decide) (by decide) (by decide) (by decide) rest

theorem endsNumber_append {space : List UInt8} (hspace : IsSpace space) {rest : List UInt8}
    (hrest : EndsNumber rest) : EndsNumber (space ++ rest) := by
  cases space with
  | nil => exact hrest
  | cons b space => exact endsNumber_of_isSpace (hspace b List.mem_cons_self) _

/-- At least the closing byte is there. -/
theorem Separated.length_pos {α : Type} {close : UInt8} {Spells : α → List UInt8 → Prop}
    {first : Bool} {xs : List α} {bytes : List UInt8}
    (hbytes : Separated close Spells first xs bytes) : 0 < bytes.length := by
  induction hbytes with
  | close => simp
  | first _ _ _ ih =>
      rw [List.length_append, List.length_append]
      omega
  | further => simp

/-- What stands behind a part ends a number. -/
theorem Separated.endsNumber {α : Type} {close : UInt8} {Spells : α → List UInt8 → Prop}
    {xs : List α} {bytes : List UInt8} (hbytes : Separated close Spells false xs bytes)
    (hclose : ∀ tail, EndsNumber (close :: tail)) (rest : List UInt8) :
    EndsNumber (bytes ++ rest) := by
  cases hbytes with
  | close hspace =>
      rw [List.append_assoc]
      exact endsNumber_append hspace (hclose rest)
  | further hbefore =>
      rw [List.append_assoc]
      exact endsNumber_append hbefore
        (endsNumber_cons (by decide) (by decide) (by decide) (by decide) _)

/-! ### The elements of a list -/

/-- The bytes start with one that belongs to an element. -/
def StartsItem (part : List UInt8) : Prop :=
  ∃ b tail, part = b :: tail ∧ isSpace b = false ∧ b ≠ byte ']'

theorem nextItem_close (first : Bool) {space : List UInt8} (hspace : IsSpace space)
    (rest : List UInt8) (index : Nat) :
    nextItem first ⟨space ++ byte ']' :: rest, index⟩ =
      .ok (.finished, ⟨byte ']' :: rest, index + space.length⟩) := by
  rw [nextItem, skipSpace_append hspace (by decide)]
  rfl

theorem nextItem_first {space part : List UInt8} (hspace : IsSpace space)
    (hpart : StartsItem part) (rest : List UInt8) (index : Nat) :
    nextItem true ⟨space ++ (part ++ rest), index⟩ =
      .ok (.more, ⟨part ++ rest, index + space.length⟩) := by
  obtain ⟨b, tail, rfl, hb, hclose⟩ := hpart
  rw [List.cons_append, nextItem, skipSpace_append hspace hb]
  simp only [if_neg hclose, if_true]

theorem nextItem_further {before behind part : List UInt8} (hbefore : IsSpace before)
    (hbehind : IsSpace behind) (hpart : StartsItem part) (rest : List UInt8) (index : Nat) :
    nextItem false ⟨before ++ byte ',' :: (behind ++ (part ++ rest)), index⟩ =
      .ok (.more, ⟨part ++ rest, index + before.length + 1 + behind.length⟩) := by
  obtain ⟨b, tail, rfl, hb, hclose⟩ := hpart
  have hcomma : byte ',' ≠ byte ']' := by decide
  rw [List.cons_append, nextItem, skipSpace_append hbefore (by decide)]
  simp only [if_neg hcomma, Bool.false_eq_true, if_false, if_true, Input.advance, List.drop_one,
    List.tail_cons, skipSpace_append hbehind hb, if_neg hclose]

/-! ### The entries of an object -/

theorem nextEntry_close (first : Bool) {space : List UInt8} (hspace : IsSpace space)
    (rest : List UInt8) (index : Nat) :
    nextEntry first ⟨space ++ byte '\x7d' :: rest, index⟩ =
      .ok (.finished, ⟨byte '\x7d' :: rest, index + space.length⟩) := by
  rw [nextEntry, skipSpace_append hspace (by decide)]
  rfl

theorem nextEntry_first {space : List UInt8} (hspace : IsSpace space) (tail : List UInt8)
    (index : Nat) :
    nextEntry true ⟨space ++ byte '"' :: tail, index⟩ =
      .ok (.more, ⟨byte '"' :: tail, index + space.length⟩) := by
  rw [nextEntry, skipSpace_append hspace (by decide)]
  rfl

theorem nextEntry_further {before behind : List UInt8} (hbefore : IsSpace before)
    (hbehind : IsSpace behind) (tail : List UInt8) (index : Nat) :
    nextEntry false ⟨before ++ byte ',' :: (behind ++ byte '"' :: tail), index⟩ =
      .ok (.more, ⟨byte '"' :: tail, index + before.length + 1 + behind.length⟩) := by
  have hcomma : byte ',' ≠ byte '\x7d' := by decide
  have hquote : isSpace (byte '"') = false := by decide
  rw [nextEntry, skipSpace_append hbefore (by decide)]
  simp only [if_neg hcomma, Bool.false_eq_true, if_false, if_true, Input.advance, List.drop_one,
    List.tail_cons, skipSpace_append hbehind hquote]

theorem readColon_space {space : List UInt8} (hspace : IsSpace space) (rest : List UInt8)
    (index : Nat) :
    readColon ⟨space ++ byte ':' :: rest, index⟩ = .ok ⟨rest, index + space.length + 1⟩ := by
  rw [readColon, skipSpace_append hspace (by decide)]
  rfl

/-! ### Parts one by one -/

/-- The bytes are read as a value, whatever follows them, with as many steps as there are bytes. -/
def ReadAs (depth : Nat) (value : Json) (part : List UInt8) : Prop :=
  ∀ fuel index rest, part.length ≤ fuel → EndsNumber rest →
    ∃ index', readValueWith fuel depth ⟨part ++ rest, index⟩ = .ok (value, ⟨rest, index'⟩)

theorem readItemsWith_more {fuel depth : Nat} {first : Bool} {input middle later last : Input}
    {item : Json} {items : List Json} (hnext : nextItem first input = .ok (.more, middle))
    (hitem : readValueWith fuel depth middle = .ok (item, later))
    (hitems : readItemsWith fuel depth false later = .ok (items, last)) :
    readItemsWith (fuel + 1) depth first input = .ok (item :: items, last) := by
  rw [readItemsWith, hnext]
  simp only [bind, Except.bind, hitem, hitems]
  rfl

/-- Elements that are read one by one are read together. -/
theorem readItemsWith_separated {α : Type} {Spells : α → List UInt8 → Prop} {toValue : α → Json}
    {depth : Nat}
    (hread : ∀ x part, Spells x part → StartsItem part ∧ ReadAs depth (toValue x) part)
    {first : Bool} {xs : List α} {bytes : List UInt8}
    (hbytes : Separated (byte ']') Spells first xs bytes) {fuel : Nat}
    (hfuel : bytes.length ≤ fuel) (index : Nat) (rest : List UInt8) :
    ∃ index', readItemsWith fuel depth first ⟨bytes ++ rest, index⟩ =
      .ok (xs.map toValue, ⟨byte ']' :: rest, index'⟩) := by
  have hclose : ∀ tail, EndsNumber (byte ']' :: tail) :=
    endsNumber_cons (by decide) (by decide) (by decide) (by decide)
  -- every part takes at least a byte, so that a step is left for each of those behind it
  induction hbytes generalizing fuel index with
  | @close first space hspace =>
      rw [List.length_append, List.length_singleton] at hfuel
      obtain ⟨fuel, rfl⟩ : ∃ f, fuel = f + 1 := ⟨fuel - 1, by omega⟩
      refine ⟨index + space.length, ?_⟩
      rw [List.append_assoc, List.singleton_append, readItemsWith, nextItem_close first hspace]
      rfl
  | @first x xs space part later hspace hx hxs ih =>
      obtain ⟨hstarts, hvalue⟩ := hread x part hx
      have hpart : 0 < part.length := by
        obtain ⟨b, tail, rfl, -⟩ := hstarts
        exact Nat.succ_pos _
      rw [List.length_append, List.length_append] at hfuel
      obtain ⟨fuel, rfl⟩ : ∃ f, fuel = f + 1 := ⟨fuel - 1, by omega⟩
      have hlater := hxs.length_pos
      obtain ⟨i, hitem⟩ := hvalue fuel (index + space.length) (later ++ rest) (by omega)
        (hxs.endsNumber hclose rest)
      obtain ⟨j, hitems⟩ := ih (by omega : later.length ≤ fuel) i
      rw [List.append_assoc, List.append_assoc]
      exact ⟨j, readItemsWith_more (nextItem_first hspace hstarts _ index) hitem hitems⟩
  | @further x xs before behind part later hbefore hbehind hx hxs ih =>
      obtain ⟨hstarts, hvalue⟩ := hread x part hx
      rw [List.length_append, List.length_cons, List.length_append, List.length_append] at hfuel
      obtain ⟨fuel, rfl⟩ : ∃ f, fuel = f + 1 := ⟨fuel - 1, by omega⟩
      obtain ⟨i, hitem⟩ := hvalue fuel (index + before.length + 1 + behind.length) (later ++ rest)
        (by omega) (hxs.endsNumber hclose rest)
      obtain ⟨j, hitems⟩ := ih (by omega : later.length ≤ fuel) i
      rw [List.append_assoc, List.cons_append, List.append_assoc, List.append_assoc]
      exact ⟨j, readItemsWith_more (nextItem_further hbefore hbehind hstarts _ index) hitem hitems⟩

/-! ### Values -/

/-- The values that a stored node is made of: texts, whole numbers in the range of timestamps, and
lists of texts. -/
inductive SpellsValue : Json → List UInt8 → Prop
  | text {s : String} {bytes : List UInt8} (hs : SpellsText s bytes) : SpellsValue (.text s) bytes
  | integer {n : Int} (hlow : -2 ^ 63 ≤ n) (hhigh : n < 2 ^ 63) :
      SpellsValue (.integer n) (encodeChars (writeInteger n))
  | texts {texts : List String} {bytes : List UInt8}
      (htexts : Separated (byte ']') SpellsText true texts bytes) :
      SpellsValue (.list (texts.map .text)) (byte '[' :: bytes)

theorem readValueWith_scalar {b : UInt8} {bytes : List UInt8} (hspace : isSpace b = false)
    (hlist : b ≠ byte '[') (hobject : b ≠ byte '\x7b') (fuel depth index : Nat) :
    readValueWith (fuel + 1) depth ⟨b :: bytes, index⟩ = readScalar ⟨b :: bytes, index⟩ := by
  have hskip : Input.skipSpace ⟨b :: bytes, index⟩ = ⟨b :: bytes, index⟩ :=
    skipSpace_append isSpace_nil hspace bytes index
  simp only [readValueWith, hskip, List.headD_cons, if_neg hlist, if_neg hobject]

theorem exists_spellsText_eq_cons {s : String} {bytes : List UInt8} (hs : SpellsText s bytes) :
    ∃ tail, bytes = byte '"' :: tail := by
  cases hs with
  | quoted hchars => exact ⟨_, rfl⟩

theorem readScalar_text {s : String} {bytes : List UInt8} (hs : SpellsText s bytes)
    (rest : List UInt8) (index : Nat) :
    ∃ index', readScalar ⟨bytes ++ rest, index⟩ = .ok (.text s, ⟨rest, index'⟩) := by
  obtain ⟨index', hread⟩ := readString_spelled hs rest index
  obtain ⟨tail, rfl⟩ := exists_spellsText_eq_cons hs
  have hquote : readScalar ⟨byte '"' :: tail ++ rest, index⟩ =
      (readString (Input.advance ⟨byte '"' :: tail ++ rest, index⟩ 1)).map
        fun read => (.text read.1, read.2) := rfl
  exact ⟨index', by rw [hquote, hread]; rfl⟩

theorem readAs_text {s : String} {bytes : List UInt8} (hs : SpellsText s bytes) (depth : Nat) :
    StartsItem bytes ∧ ReadAs depth (.text s) bytes := by
  obtain ⟨tail, rfl⟩ := exists_spellsText_eq_cons hs
  refine ⟨⟨_, tail, rfl, by decide, by decide⟩, fun fuel index rest hfuel _ => ?_⟩
  rw [List.length_cons] at hfuel
  obtain ⟨fuel, rfl⟩ : ∃ f, fuel = f + 1 := ⟨fuel - 1, by omega⟩
  obtain ⟨index', hread⟩ := readScalar_text hs rest index
  refine ⟨index', ?_⟩
  rw [List.cons_append] at hread ⊢
  rw [readValueWith_scalar (by decide) (by decide) (by decide), hread]

/-- A written number starts with a digit or a sign. -/
theorem exists_writeInteger_eq_cons (n : Int) :
    ∃ c cs, writeInteger n = c :: cs ∧ (c.isDigit = true ∨ c = '-') := by
  cases n with
  | ofNat n =>
      obtain ⟨c, cs, hcons⟩ : ∃ c cs, Nat.toDigits 10 n = c :: cs :=
        List.exists_cons_of_ne_nil Nat.toDigits_ne_nil
      have hdigit := Nat.isDigit_of_mem_toDigits (by decide) (by decide)
        (hcons ▸ List.mem_cons_self : c ∈ Nat.toDigits 10 n)
      exact ⟨c, cs, hcons, .inl hdigit⟩
  | negSucc n => exact ⟨'-', Nat.toDigits 10 (n + 1), rfl, .inr rfl⟩

theorem readAs_integer {n : Int} (hlow : -2 ^ 63 ≤ n) (hhigh : n < 2 ^ 64) (depth : Nat) :
    StartsItem (encodeChars (writeInteger n)) ∧
      ReadAs depth (.integer n) (encodeChars (writeInteger n)) := by
  obtain ⟨c, cs, hcons, hfirst⟩ := exists_writeInteger_eq_cons n
  have hrange : 45 ≤ c.toNat ∧ c.toNat ≤ 57 := by
    rcases hfirst with hdigit | rfl
    · have := toNat_of_isDigit hdigit
      omega
    · decide
  have hne : ∀ b : UInt8, (b.toNat < 45 ∨ 57 < b.toNat) → byte c ≠ b := by
    rintro b hb rfl
    rw [toNat_byte (by omega)] at hb
    omega
  have hspace : isSpace (byte c) = false := by
    simp [isSpace, hne 0x20 (by decide), hne 0x09 (by decide), hne 0x0A (by decide),
      hne 0x0D (by decide)]
  have hbytes : encodeChars (writeInteger n) = byte c :: encodeChars cs := by
    rw [hcons, encodeChars_ascii_cons (by omega)]
  refine ⟨⟨byte c, _, hbytes, hspace, hne _ (by decide)⟩, fun fuel index rest hfuel hrest => ?_⟩
  obtain ⟨index', hread⟩ := readScalar_writeInteger hlow hhigh index hrest
  rw [hbytes, List.length_cons] at hfuel
  obtain ⟨fuel, rfl⟩ : ∃ f, fuel = f + 1 := ⟨fuel - 1, by omega⟩
  refine ⟨index', ?_⟩
  rw [hbytes, List.cons_append] at hread ⊢
  rw [readValueWith_scalar hspace (hne _ (by decide)) (hne _ (by decide)), hread]

/-- A list is read if its elements are. -/
theorem readAs_list {α : Type} {Spells : α → List UInt8 → Prop} {toValue : α → Json} {depth : Nat}
    (hread : ∀ x part, Spells x part → StartsItem part ∧ ReadAs depth (toValue x) part) {xs : List α}
    {bytes : List UInt8} (hbytes : Separated (byte ']') Spells true xs bytes) (hdepth : 0 < depth) :
    StartsItem (byte '[' :: bytes) ∧
      ReadAs (depth + 1) (.list (xs.map toValue)) (byte '[' :: bytes) := by
  refine ⟨⟨_, bytes, rfl, by decide, by decide⟩, fun fuel index rest hfuel _ => ?_⟩
  rw [List.length_cons] at hfuel
  obtain ⟨fuel, rfl⟩ : ∃ f, fuel = f + 1 := ⟨fuel - 1, by omega⟩
  obtain ⟨index', hitems⟩ := readItemsWith_separated hread hbytes
    (by omega : bytes.length ≤ fuel) (index + 1) rest
  have hskip : Input.skipSpace ⟨byte '[' :: (bytes ++ rest), index⟩ =
      ⟨byte '[' :: (bytes ++ rest), index⟩ := skipSpace_append isSpace_nil (by decide) _ index
  have hlevels : ¬ depth + 1 ≤ 1 := by omega
  refine ⟨index' + 1, ?_⟩
  rw [List.cons_append]
  simp only [readValueWith, hskip, List.headD_cons, if_true, if_neg hlevels, Input.advance,
    List.drop_one, List.tail_cons, Nat.add_sub_cancel, hitems, bind, Except.bind]
  rfl

/-- Every spelling is read as what it spells. -/
theorem readAs_spelled {value : Json} {bytes : List UInt8} (hvalue : SpellsValue value bytes)
    {depth : Nat} (hdepth : 2 ≤ depth) : StartsItem bytes ∧ ReadAs depth value bytes := by
  cases hvalue with
  | text hs => exact readAs_text hs depth
  | integer hlow hhigh => exact readAs_integer hlow (Int.lt_trans hhigh (by decide)) depth
  | texts htexts =>
      obtain ⟨depth, rfl⟩ : ∃ d, depth = d + 1 := ⟨depth - 1, by omega⟩
      have hread : ∀ s part, SpellsText s part → StartsItem part ∧ ReadAs depth (.text s) part :=
        fun s part hs => readAs_text hs depth
      exact readAs_list hread htexts (by omega)

/-! ### Written values -/

theorem writeItems_cons_cons (item next : Json) (items : List Json) :
    writeItems (item :: next :: items) =
      writeChars item ++ [','] ++ writeItems (next :: items) := by
  rw [writeItems]
  exact fun hnil => absurd hnil (List.cons_ne_nil _ _)

theorem writeEntries_cons_cons (entry next : String × Json) (entries : List (String × Json)) :
    writeEntries (entry :: next :: entries) =
      writeString entry.1 ++ [':'] ++ writeChars entry.2 ++ [','] ++
        writeEntries (next :: entries) := by
  rw [writeEntries]
  exact fun hnil => absurd hnil (List.cons_ne_nil _ _)

/-- Written parts that are joined by commas are separated. -/
theorem separated_joined {α : Type} {close : UInt8} {Spells : α → List UInt8 → Prop}
    (write : α → List Char) (joined : List α → List Char) (hnil : joined [] = [])
    (hone : ∀ x, joined [x] = write x)
    (hmore : ∀ x next xs, joined (x :: next :: xs) = write x ++ [','] ++ joined (next :: xs))
    {xs : List α} (hspells : ∀ x ∈ xs, Spells x (encodeChars (write x))) :
    Separated close Spells true xs (encodeChars (joined xs) ++ [close]) := by
  induction xs with
  | nil =>
      rw [hnil]
      exact .close isSpace_nil
  | cons x xs ih =>
      rw [List.forall_mem_cons] at hspells
      cases xs with
      | nil =>
          rw [hone]
          exact .first isSpace_nil hspells.1 (.close isSpace_nil)
      | cons next xs =>
          have hbytes : encodeChars (joined (x :: next :: xs)) ++ [close] =
              encodeChars (write x) ++ byte ',' ::
                (encodeChars (joined (next :: xs)) ++ [close]) := by
            rw [hmore, encodeChars_append, encodeChars_append, List.append_assoc, List.append_assoc]
            rfl
          rw [hbytes]
          exact .first isSpace_nil hspells.1 (ih hspells.2).comma

/-- Written elements stand between commas. -/
theorem separated_writeItems (texts : List String) :
    Separated (byte ']') SpellsText true texts
      (encodeChars (writeItems (texts.map .text)) ++ [byte ']']) := by
  have hmore : ∀ (s next : String) (texts : List String),
      writeItems ((s :: next :: texts).map .text) =
        writeString s ++ [','] ++ writeItems ((next :: texts).map .text) :=
    fun s next texts => writeItems_cons_cons (.text s) (.text next) (texts.map .text)
  exact separated_joined writeString (fun texts => writeItems (texts.map .text)) rfl (fun _ => rfl)
    hmore fun s _ => spellsText_writeString s

theorem spellsValue_texts (texts : List String) :
    SpellsValue (.list (texts.map .text))
      (encodeChars (writeChars (.list (texts.map .text)))) := by
  have hbytes : encodeChars (writeChars (.list (texts.map .text))) =
      byte '[' :: (encodeChars (writeItems (texts.map .text)) ++ [byte ']']) := by
    rw [writeChars, encodeChars_append, encodeChars_append, List.append_assoc]
    rfl
  rw [hbytes]
  exact .texts (separated_writeItems texts)

end Json
end VirtualShell
