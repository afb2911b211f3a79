import VirtualShell.Proofs.Json.Values

/-!
# What is written is read back

A value without real numbers is written as a text that is read back as the value, provided that its
whole numbers fit into 64 bits and that it is not nested deeper than the reader goes.
-/

namespace VirtualShell
namespace Json

open Text.Utf8 (encodeChars encodeChars_append)

/-! ### Values that can be read back -/

/-- A value whose lists and objects are nested in each other at most `depth` deep, without real numbers
and with no whole number beyond 64 bits, with or without sign. -/
inductive Plain : Nat → Json → Prop
  | null {depth : Nat} : Plain depth .null
  | boolean {depth : Nat} (b : Bool) : Plain depth (.boolean b)
  | integer {depth : Nat} {n : Int} (hlow : -2 ^ 63 ≤ n) (hhigh : n < 2 ^ 64) :
      Plain depth (.integer n)
  | text {depth : Nat} (s : String) : Plain depth (.text s)
  | list {depth : Nat} {items : List Json} (hitems : ∀ item ∈ items, Plain depth item) :
      Plain (depth + 1) (.list items)
  | object {depth : Nat} {entries : List (String × Json)}
      (hentries : ∀ entry ∈ entries, Plain depth entry.2) : Plain (depth + 1) (.object entries)

/-! ### The entries of an object -/

/-- An entry as a name that is spelled, a colon and bytes that are read as the value. -/
def ReadEntryAs (depth : Nat) (entry : String × Json) (part : List UInt8) : Prop :=
  ∃ name value, part = name ++ byte ':' :: value ∧ SpellsText entry.1 name ∧
    ReadAs depth entry.2 value

theorem readEntriesWith_more {fuel depth : Nat} {first : Bool} {input middle named behind later
    last : Input} {key : String} {value : Json} {entries : List (String × Json)}
    (hnext : nextEntry first input = .ok (.more, middle))
    (hkey : readString (middle.advance 1) = .ok (key, named))
    (hcolon : readColon named = .ok behind)
    (hvalue : readValueWith fuel depth behind = .ok (value, later))
    (hentries : readEntriesWith fuel depth false later = .ok (entries, last)) :
    readEntriesWith (fuel + 1) depth first input = .ok ((key, value) :: entries, last) := by
  rw [readEntriesWith, hnext]
  simp only [bind, Except.bind, hkey, hcolon, hvalue, hentries]
  rfl

theorem ReadEntryAs.exists_eq_cons {depth : Nat} {entry : String × Json} {part : List UInt8}
    (hentry : ReadEntryAs depth entry part) : ∃ tail, part = byte '"' :: tail := by
  obtain ⟨name, value, rfl, hname, -⟩ := hentry
  obtain ⟨tail, rfl⟩ := exists_spellsText_eq_cons hname
  exact ⟨tail ++ byte ':' :: value, rfl⟩

/-- An entry is read where the next one starts, if there are enough steps for it and what follows. -/
theorem ReadEntryAs.read {fuel depth : Nat} {first : Bool} {input : Input} {entry : String × Json}
    {part rest last : List UInt8} {middle : Nat} {entries : List (String × Json)}
    (hentry : ReadEntryAs depth entry part)
    (hnext : nextEntry first input = .ok (.more, ⟨part ++ rest, middle⟩))
    (hfuel : part.length ≤ fuel) (hrest : EndsNumber rest)
    (hlater : ∀ index, ∃ index', readEntriesWith fuel depth false ⟨rest, index⟩ =
      .ok (entries, ⟨last, index'⟩)) :
    ∃ index', readEntriesWith (fuel + 1) depth first input =
      .ok (entry :: entries, ⟨last, index'⟩) := by
  obtain ⟨name, value, rfl, hname, hvalue⟩ := hentry
  rw [List.length_append, List.length_cons] at hfuel
  rw [List.append_assoc, List.cons_append] at hnext
  obtain ⟨i, hkey⟩ := readString_spelled hname (byte ':' :: (value ++ rest)) middle
  have hcolon : readColon ⟨byte ':' :: (value ++ rest), i⟩ = .ok ⟨value ++ rest, i + 1⟩ :=
    readColon_space isSpace_nil (value ++ rest) i
  obtain ⟨j, hread⟩ := hvalue fuel (i + 1) rest (by omega) hrest
  obtain ⟨index', hentries⟩ := hlater j
  exact ⟨index', readEntriesWith_more hnext hkey hcolon hread hentries⟩

/-- Entries that are read one by one are read together. -/
theorem readEntriesWith_separated {depth : Nat} {first : Bool} {entries : List (String × Json)}
    {bytes : List UInt8} (hbytes : Separated (byte '\x7d') (ReadEntryAs depth) first entries bytes)
    {fuel : Nat} (hfuel : bytes.length ≤ fuel) (index : Nat) (rest : List UInt8) :
    ∃ index', readEntriesWith fuel depth first ⟨bytes ++ rest, index⟩ =
      .ok (entries, ⟨byte '\x7d' :: rest, index'⟩) := by
  have hclose : ∀ tail, EndsNumber (byte '\x7d' :: tail) :=
    endsNumber_cons (by decide) (by decide) (by decide) (by decide)
  induction hbytes generalizing fuel index with
  | @close first space hspace =>
      rw [List.length_append, List.length_singleton] at hfuel
      obtain ⟨fuel, rfl⟩ : ∃ f, fuel = f + 1 := ⟨fuel - 1, by omega⟩
      refine ⟨index + space.length, ?_⟩
      rw [List.append_assoc, List.singleton_append, readEntriesWith, nextEntry_close first hspace]
      rfl
  | @first entry entries space part later hspace hentry hlater ih =>
      obtain ⟨tail, rfl⟩ := hentry.exists_eq_cons
      have hpos := hlater.length_pos
      rw [List.length_append, List.length_append, List.length_cons] at hfuel
      obtain ⟨fuel, rfl⟩ : ∃ f, fuel = f + 1 := ⟨fuel - 1, by omega⟩
      rw [List.append_assoc, List.append_assoc]
      exact hentry.read (nextEntry_first hspace _ index) (by rw [List.length_cons]; omega)
        (hlater.endsNumber hclose rest) fun i => ih (by omega) i
  | @further entry entries before behind part later hbefore hbehind hentry hlater ih =>
      obtain ⟨tail, rfl⟩ := hentry.exists_eq_cons
      rw [List.length_append, List.length_cons, List.length_append, List.length_append] at hfuel
      obtain ⟨fuel, rfl⟩ : ∃ f, fuel = f + 1 := ⟨fuel - 1, by omega⟩
      rw [List.append_assoc, List.cons_append, List.append_assoc, List.append_assoc]
      exact hentry.read (nextEntry_further hbefore hbehind _ index) (by omega)
        (hlater.endsNumber hclose rest) fun i => ih (by omega) i

/-! ### Values -/

/-- Written entries stand between commas. -/
theorem separated_writeEntries {depth : Nat} {entries : List (String × Json)}
    (hread : ∀ entry ∈ entries, ReadAs depth entry.2 (encodeChars (writeChars entry.2))) :
    Separated (byte '\x7d') (ReadEntryAs depth) true entries
      (encodeChars (writeEntries entries) ++ [byte '\x7d']) := by
  refine separated_joined (fun entry : String × Json =>
    writeString entry.1 ++ [':'] ++ writeChars entry.2) writeEntries (by rw [writeEntries])
    (fun entry => by rw [writeEntries]) (fun entry next entries => ?_) fun entry hentry => ?_
  · exact writeEntries_cons_cons entry next entries
  refine ⟨encodeChars (writeString entry.1), encodeChars (writeChars entry.2), ?_,
    spellsText_writeString entry.1, hread entry hentry⟩
  have hcolon : encodeChars [':'] = [byte ':'] := by decide
  rw [encodeChars_append, encodeChars_append, hcolon, List.append_assoc, List.singleton_append]

/-- The bytes of a word are read as the value that it stands for. -/
theorem readAs_word {b : UInt8} {tail : List UInt8} {value : Json} (hspace : isSpace b = false)
    (hclose : b ≠ byte ']') (hlist : b ≠ byte '[') (hobject : b ≠ byte '\x7b')
    (hread : ∀ index rest, ∃ index', readScalar ⟨b :: tail ++ rest, index⟩ =
      .ok (value, ⟨rest, index'⟩)) (depth : Nat) :
    StartsItem (b :: tail) ∧ ReadAs depth value (b :: tail) := by
  refine ⟨⟨b, tail, rfl, hspace, hclose⟩, fun fuel index rest hfuel _ => ?_⟩
  rw [List.length_cons] at hfuel
  obtain ⟨fuel, rfl⟩ : ∃ f, fuel = f + 1 := ⟨fuel - 1, by omega⟩
  obtain ⟨index', hvalue⟩ := hread index rest
  refine ⟨index', ?_⟩
  rw [List.cons_append] at hvalue ⊢
  rw [readValueWith_scalar hspace hlist hobject, hvalue]

/-- An object is read if its entries are. -/
theorem readAs_object {depth : Nat} {entries : List (String × Json)} {bytes : List UInt8}
    (hbytes : Separated (byte '\x7d') (ReadEntryAs depth) true entries bytes) (hdepth : 0 < depth) :
    StartsItem (byte '\x7b' :: bytes) ∧
      ReadAs (depth + 1) (.object entries) (byte '\x7b' :: bytes) := by
  refine ⟨⟨_, bytes, rfl, by decide, by decide⟩, fun fuel index rest hfuel _ => ?_⟩
  rw [List.length_cons] at hfuel
  obtain ⟨fuel, rfl⟩ : ∃ f, fuel = f + 1 := ⟨fuel - 1, by omega⟩
  obtain ⟨index', hentries⟩ := readEntriesWith_separated hbytes
    (by omega : bytes.length ≤ fuel) (index + 1) rest
  have hskip : Input.skipSpace ⟨byte '\x7b' :: (bytes ++ rest), index⟩ =
      ⟨byte '\x7b' :: (bytes ++ rest), index⟩ := skipSpace_append isSpace_nil (by decide) _ index
  have hlevels : ¬ depth + 1 ≤ 1 := by omega
  have hlist : byte '\x7b' ≠ byte '[' := by decide
  refine ⟨index' + 1, ?_⟩
  rw [List.cons_append]
  simp only [readValueWith, hskip, List.headD_cons, if_true, if_neg hlist, if_neg hlevels,
    Input.advance, List.drop_one, List.tail_cons, Nat.add_sub_cancel, hentries, bind, Except.bind]
  rfl

/-- The text that is written for a value is read as the value. -/
theorem Plain.readAs {depth : Nat} {value : Json} (hvalue : Plain depth value) :
    StartsItem (encodeChars (writeChars value)) ∧
      ReadAs (depth + 1) value (encodeChars (writeChars value)) := by
  induction hvalue with
  | null =>
      have hbytes : encodeChars (writeChars .null) = byte 'n' :: [byte 'u', byte 'l', byte 'l'] :=
        by decide
      rw [hbytes]
      exact readAs_word (by decide) (by decide) (by decide) (by decide) (fun _ _ => ⟨_, rfl⟩) _
  | boolean b =>
      cases b with
      | true =>
          have hbytes : encodeChars (writeChars (.boolean true)) =
              byte 't' :: [byte 'r', byte 'u', byte 'e'] := by decide
          rw [hbytes]
          exact readAs_word (by decide) (by decide) (by decide) (by decide) (fun _ _ => ⟨_, rfl⟩) _
      | false =>
          have hbytes : encodeChars (writeChars (.boolean false)) =
              byte 'f' :: [byte 'a', byte 'l', byte 's', byte 'e'] := by decide
          rw [hbytes]
          exact readAs_word (by decide) (by decide) (by decide) (by decide) (fun _ _ => ⟨_, rfl⟩) _
  | integer hlow hhigh => exact readAs_integer hlow hhigh _
  | text s => exact readAs_text (spellsText_writeString s) _
  | @list depth items _ ih =>
      have hbytes : encodeChars (writeChars (.list items)) =
          byte '[' :: (encodeChars (writeItems items) ++ [byte ']']) := by
        rw [writeChars, encodeChars_append, encodeChars_append, List.append_assoc]
        rfl
      have hitems : Separated (byte ']')
          (fun item part => StartsItem part ∧ ReadAs (depth + 1) (id item) part) true items
          (encodeChars (writeItems items) ++ [byte ']']) :=
        separated_joined writeChars writeItems rfl (fun _ => rfl) writeItems_cons_cons ih
      have hlist := readAs_list (fun _ _ hpart => hpart) hitems (Nat.succ_pos depth)
      rw [List.map_id] at hlist
      rw [hbytes]
      exact hlist
  | @object depth entries _ ih =>
      have hbytes : encodeChars (writeChars (.object entries)) =
          byte '\x7b' :: (encodeChars (writeEntries entries) ++ [byte '\x7d']) := by
        rw [writeChars, encodeChars_append, encodeChars_append, List.append_assoc]
        rfl
      have hentries := separated_writeEntries fun entry hentry => (ih entry hentry).2
      rw [hbytes]
      exact readAs_object hentries (Nat.succ_pos depth)

/-- What is written is read back. -/
theorem read_write {value : Json} (hvalue : Plain (nestingLimit - 1) value) :
    read (Text.Utf8.encode (write value)) = .ok value := by
  have htext : Text.Utf8.encode (write value) = encodeChars (writeChars value) := by
    rw [write, Text.Utf8.encode, String.toList_ofList]
  obtain ⟨index', hread⟩ := hvalue.readAs.2
    (2 * (encodeChars (writeChars value)).length + 2) 0 [] (by omega) (by simp [EndsNumber])
  rw [List.append_nil] at hread
  have hwhole : readValue nestingLimit (Input.ofBytes (encodeChars (writeChars value))) =
      .ok (value, ⟨[], index'⟩) := hread
  rw [read, htext, hwhole]
  rfl

end Json
end VirtualShell
