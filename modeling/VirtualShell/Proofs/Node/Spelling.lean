import VirtualShell.Node.Encoding
import VirtualShell.Proofs.Json.Values

/-!
# Spelled nodes are read

The text of a node is an object or a list with the node's tag.  `decode` reads it piece by piece,
and comes to what `ofJson` makes of the value that the pieces spell.
-/

namespace VirtualShell
namespace Node

open Json (Input Separated IsSpace SpellsText SpellsValue EndsNumber byte)
open Text.Utf8 (encodeChars encodeChars_append)

/-! ### Entries -/

/-- Bytes that are read as a value wherever a number may end. -/
def Readable (value : Json) (bytes : List UInt8) : Prop :=
  ∀ index rest, EndsNumber rest → ∃ index',
    Json.readValue (Json.nestingLimit - 1) ⟨bytes ++ rest, index⟩ = .ok (value, ⟨rest, index'⟩)

/-- An entry of an object: a text, a colon and a value, with space around the colon.  Beside the
fields of a node there may be values of any other form. -/
inductive SpellsEntry : String × Json → List UInt8 → Prop
  | field {key : String} {value : Json} {name before behind part : List UInt8}
      (hname : SpellsText key name) (hbefore : IsSpace before) (hbehind : IsSpace behind)
      (hvalue : SpellsValue value part) :
      SpellsEntry (key, value) (name ++ (before ++ byte ':' :: (behind ++ part)))
  | other {key : String} {value : Json} {name before part : List UInt8}
      (hname : SpellsText key name) (hkey : key ≠ "type") (hbefore : IsSpace before)
      (hvalue : Readable value part) :
      SpellsEntry (key, value) (name ++ (before ++ byte ':' :: part))

/-- An entry starts with its key. -/
theorem SpellsEntry.exists_name {entry : String × Json} {part : List UInt8}
    (hentry : SpellsEntry entry part) :
    ∃ name later, part = name ++ later ∧ SpellsText entry.1 name := by
  cases hentry with
  | field hname => exact ⟨_, _, rfl, hname⟩
  | other hname => exact ⟨_, _, rfl, hname⟩

section Next

variable {entry : String × Json} {part : List UInt8} (hentry : SpellsEntry entry part)
include hentry

theorem SpellsEntry.exists_eq_cons : ∃ tail, part = byte '"' :: tail := by
  obtain ⟨name, later, rfl, hname⟩ := hentry.exists_name
  obtain ⟨tail, rfl⟩ := Json.exists_spellsText_eq_cons hname
  exact ⟨tail ++ later, rfl⟩

theorem SpellsEntry.length_pos : 0 < part.length := by
  obtain ⟨tail, rfl⟩ := hentry.exists_eq_cons
  exact Nat.succ_pos _

theorem SpellsEntry.nextEntry_first {space : List UInt8} (hspace : IsSpace space)
    (rest : List UInt8) (index : Nat) :
    Json.nextEntry true ⟨space ++ (part ++ rest), index⟩ =
      .ok (.more, ⟨part ++ rest, index + space.length⟩) := by
  obtain ⟨tail, rfl⟩ := hentry.exists_eq_cons
  rw [List.cons_append, Json.nextEntry_first hspace]

theorem SpellsEntry.nextEntry_further {before behind : List UInt8} (hbefore : IsSpace before)
    (hbehind : IsSpace behind) (rest : List UInt8) (index : Nat) :
    Json.nextEntry false ⟨before ++ byte ',' :: (behind ++ (part ++ rest)), index⟩ =
      .ok (.more, ⟨part ++ rest, index + before.length + 1 + behind.length⟩) := by
  obtain ⟨tail, rfl⟩ := hentry.exists_eq_cons
  rw [List.cons_append, Json.nextEntry_further hbefore hbehind]

end Next

/-- A spelled value is read behind space as well. -/
theorem readable_spelled {value : Json} {space part : List UInt8} (hspace : IsSpace space)
    (hvalue : SpellsValue value part) : Readable value (space ++ part) := by
  intro index rest hrest
  obtain ⟨⟨b, tail, hpart, hb, -⟩, hread⟩ :=
    Json.readAs_spelled hvalue (show 2 ≤ Json.nestingLimit - 1 by decide)
  obtain ⟨fuel, hfuel⟩ : ∃ fuel, 2 * (space ++ part ++ rest).length + 2 = fuel + 1 := ⟨_, rfl⟩
  have hlength : part.length ≤ fuel + 1 := by
    rw [← hfuel, List.length_append, List.length_append]
    omega
  obtain ⟨index', hvalue⟩ := hread (fuel + 1) (index + space.length) rest hlength hrest
  refine ⟨index', ?_⟩
  -- the space is skipped at once
  have hskip : Input.skipSpace ⟨space ++ part ++ rest, index⟩ =
      Input.skipSpace ⟨part ++ rest, index + space.length⟩ := by
    rw [hpart, List.append_assoc, List.cons_append, Json.skipSpace_append hspace hb]
    exact (Json.skipSpace_append Json.isSpace_nil hb _ _).symm
  rw [← hvalue, Json.readValue, hfuel, Json.readValueWith, Json.readValueWith, hskip]

/-- The tag of a node is a text. -/
theorem readTag_spelled {tag : String} {kind : NodeKind} (htag : kindOfTag tag = .ok kind)
    {space part : List UInt8} (hspace : IsSpace space) (hpart : SpellsText tag part)
    (rest : List UInt8) (index : Nat) :
    ∃ index', readTag ⟨space ++ (part ++ rest), index⟩ = .ok (kind, ⟨rest, index'⟩) := by
  obtain ⟨index', hread⟩ := Json.readScalar_text hpart rest (index + space.length)
  obtain ⟨tail, rfl⟩ := Json.exists_spellsText_eq_cons hpart
  refine ⟨index', ?_⟩
  rw [List.cons_append] at hread ⊢
  rw [readTag, Json.skipSpace_append hspace (by decide)]
  simp only [List.headD_cons, hread, if_neg (show byte '"' ≠ byte '[' by decide),
    if_neg (show byte '"' ≠ byte '\x7b' by decide)]
  simp only [bind, Except.bind, htag]
  rfl

/-! ### Objects -/

theorem kindOfValue_eq_ok {value : Json} {kind : NodeKind} (hkind : kindOfValue value = .ok kind) :
    ∃ tag, value = .text tag ∧ kindOfTag tag = .ok kind := by
  cases value with
  | text tag => exact ⟨tag, rfl, hkind⟩
  | _ => cases hkind

theorem takeTag_type {kind : Option NodeKind} {value : Json} {entries others : List (String × Json)}
    {found : NodeKind} (htake : takeTag kind (("type", value) :: entries) = .ok (found, others)) :
    kind = none ∧ ∃ tag named, value = .text tag ∧ kindOfTag tag = .ok named ∧
      takeTag (some named) entries = .ok (found, others) := by
  rw [takeTag, if_pos rfl] at htake
  cases kind with
  | some kind => cases htake
  | none =>
      cases hvalue : kindOfValue value with
      | error message =>
          rw [hvalue] at htake
          cases htake
      | ok named =>
          obtain ⟨tag, htext, htag⟩ := kindOfValue_eq_ok hvalue
          rw [hvalue] at htake
          exact ⟨rfl, tag, named, htext, htag, htake⟩

theorem takeTag_other {kind : Option NodeKind} {key : String} {value : Json}
    {entries others : List (String × Json)} {found : NodeKind} (hkey : key ≠ "type")
    (htake : takeTag kind ((key, value) :: entries) = .ok (found, others)) :
    ∃ kept, takeTag kind entries = .ok (found, kept) ∧ others = (key, value) :: kept := by
  rw [takeTag, if_neg hkey] at htake
  cases hlater : takeTag kind entries with
  | error message =>
      rw [hlater] at htake
      cases htake
  | ok taken =>
      rw [hlater] at htake
      cases htake
      exact ⟨_, rfl, rfl⟩

section Entry

variable {fuel : Nat} {first : Bool} {input : Input} {name before part rest last : List UInt8}
  {middle : Nat} {found : NodeKind} {others : List (String × Json)}

/-- The tag tells the kind, and the entries behind it are read on. -/
theorem readTagged_tag {tag : String} {kind : NodeKind} (htag : kindOfTag tag = .ok kind)
    {behind : List UInt8} (hname : SpellsText "type" name) (hbefore : IsSpace before)
    (hbehind : IsSpace behind) (hpart : SpellsText tag part)
    (hnext : Json.nextEntry first input = .ok (.more,
      ⟨name ++ (before ++ byte ':' :: (behind ++ (part ++ rest))), middle⟩))
    (hlater : ∀ index, ∃ index', readTagged (Json.nestingLimit - 1) fuel false (some kind)
      ⟨rest, index⟩ = .ok (found, others, ⟨last, index'⟩)) :
    ∃ index', readTagged (Json.nestingLimit - 1) (fuel + 1) first none input =
      .ok (found, others, ⟨last, index'⟩) := by
  obtain ⟨i, hkey⟩ := Json.readString_spelled hname
    (before ++ byte ':' :: (behind ++ (part ++ rest))) middle
  obtain ⟨j, hkind⟩ := readTag_spelled htag hbehind hpart rest (i + before.length + 1)
  obtain ⟨index', hread⟩ := hlater j
  refine ⟨index', ?_⟩
  rw [readTagged, hnext]
  simp only [bind, Except.bind, hkey, if_true, Json.readColon_space hbefore, hkind, hread]
  rfl

/-- An entry that is not the tag is kept. -/
theorem readTagged_other {key : String} {value : Json} {kind : Option NodeKind}
    (hkey : key ≠ "type") (hname : SpellsText key name) (hbefore : IsSpace before)
    (hvalue : Readable value part) (hrest : EndsNumber rest)
    (hnext : Json.nextEntry first input = .ok (.more,
      ⟨name ++ (before ++ byte ':' :: (part ++ rest)), middle⟩))
    (hlater : ∀ index, ∃ index', readTagged (Json.nestingLimit - 1) fuel false kind
      ⟨rest, index⟩ = .ok (found, others, ⟨last, index'⟩)) :
    ∃ index', readTagged (Json.nestingLimit - 1) (fuel + 1) first kind input =
      .ok (found, (key, value) :: others, ⟨last, index'⟩) := by
  obtain ⟨i, hread⟩ := Json.readString_spelled hname (before ++ byte ':' :: (part ++ rest)) middle
  obtain ⟨j, hpart⟩ := hvalue (i + before.length + 1) rest hrest
  obtain ⟨index', htagged⟩ := hlater j
  refine ⟨index', ?_⟩
  rw [readTagged, hnext]
  simp only [bind, Except.bind, hread, if_neg hkey, Json.readColon_space hbefore, hpart, htagged]
  rfl

end Entry

/-- One more entry, which is the tag or is kept. -/
theorem readTagged_entry {fuel : Nat} {first : Bool} {kind : Option NodeKind} {input : Input}
    {entry : String × Json} {entries : List (String × Json)} {part rest last : List UInt8}
    {middle : Nat} (hentry : SpellsEntry entry part)
    (hnext : Json.nextEntry first input = .ok (.more, ⟨part ++ rest, middle⟩))
    (hrest : EndsNumber rest)
    (hlater : ∀ {kind : Option NodeKind} {found : NodeKind} {others : List (String × Json)},
      takeTag kind entries = .ok (found, others) → ∀ index, ∃ index',
        readTagged (Json.nestingLimit - 1) fuel false kind ⟨rest, index⟩ =
          .ok (found, others, ⟨last, index'⟩))
    {found : NodeKind} {others : List (String × Json)}
    (htake : takeTag kind (entry :: entries) = .ok (found, others)) :
    ∃ index', readTagged (Json.nestingLimit - 1) (fuel + 1) first kind input =
      .ok (found, others, ⟨last, index'⟩) := by
  cases hentry with
  | @field key value name before behind part hname hbefore hbehind hvalue =>
      rw [List.append_assoc, List.append_assoc, List.cons_append] at hnext
      by_cases hkey : key = "type"
      · subst hkey
        obtain ⟨rfl, tag, named, rfl, htag, htake⟩ := takeTag_type htake
        cases hvalue with
        | text hpart =>
            rw [List.append_assoc] at hnext
            exact readTagged_tag htag hname hbefore hbehind hpart hnext (hlater htake)
      · obtain ⟨kept, hkept, rfl⟩ := takeTag_other hkey htake
        exact readTagged_other hkey hname hbefore (readable_spelled hbehind hvalue) hrest hnext
          (hlater hkept)
  | @other key value name before part hname hkey hbefore hvalue =>
      rw [List.append_assoc, List.append_assoc, List.cons_append] at hnext
      obtain ⟨kept, hkept, rfl⟩ := takeTag_other hkey htake
      exact readTagged_other hkey hname hbefore hvalue hrest hnext (hlater hkept)

theorem readTagged_spelled {first : Bool} {entries : List (String × Json)} {bytes : List UInt8}
    (hbytes : Separated (byte '\x7d') SpellsEntry first entries bytes) {kind : Option NodeKind}
    {found : NodeKind} {others : List (String × Json)}
    (htake : takeTag kind entries = .ok (found, others)) {fuel : Nat}
    (hfuel : bytes.length ≤ fuel) (index : Nat) (rest : List UInt8) :
    ∃ index', readTagged (Json.nestingLimit - 1) fuel first kind ⟨bytes ++ rest, index⟩ =
      .ok (found, others, ⟨rest, index'⟩) := by
  have hclose : ∀ tail, EndsNumber (byte '\x7d' :: tail) :=
    Json.endsNumber_cons (by decide) (by decide) (by decide) (by decide)
  -- `kind` is what was found before: the tag can stand among the entries that are still to come
  induction hbytes generalizing kind found others fuel index with
  | @close first space hspace =>
      rw [List.length_append, List.length_singleton] at hfuel
      obtain ⟨fuel, rfl⟩ : ∃ f, fuel = f + 1 := ⟨fuel - 1, by omega⟩
      refine ⟨index + space.length + 1, ?_⟩
      rw [List.append_assoc, List.singleton_append, readTagged, Json.nextEntry_close first hspace]
      cases kind with
      | none => cases htake
      | some kind =>
          cases htake
          rfl
  | @first entry entries space part later hspace hentry hentries ih =>
      have hpart := hentry.length_pos
      rw [List.length_append, List.length_append] at hfuel
      obtain ⟨fuel, rfl⟩ : ∃ f, fuel = f + 1 := ⟨fuel - 1, by omega⟩
      rw [List.append_assoc, List.append_assoc]
      exact readTagged_entry hentry (hentry.nextEntry_first hspace _ index)
        (hentries.endsNumber hclose rest)
        (fun htake index => ih htake (by omega : later.length ≤ fuel) index) htake
  | @further entry entries before behind part later hbefore hbehind hentry hentries ih =>
      rw [List.length_append, List.length_cons, List.length_append, List.length_append] at hfuel
      obtain ⟨fuel, rfl⟩ : ∃ f, fuel = f + 1 := ⟨fuel - 1, by omega⟩
      rw [List.append_assoc, List.cons_append, List.append_assoc, List.append_assoc]
      exact readTagged_entry hentry (hentry.nextEntry_further hbefore hbehind _ index)
        (hentries.endsNumber hclose rest)
        (fun htake index => ih htake (by omega : later.length ≤ fuel) index) htake

/-! ### Lists -/

/-- The first element of a list is the tag. -/
theorem readTaggedItems_spelled {tag : String} {kind : NodeKind} (htag : kindOfTag tag = .ok kind)
    {items : List Json} {bytes : List UInt8}
    (hbytes : Separated (byte ']') SpellsValue true (.text tag :: items) bytes)
    (index : Nat) (rest : List UInt8) :
    ∃ index', readTaggedItems (Json.nestingLimit - 1) ⟨bytes ++ rest, index⟩ =
      .ok (kind, items, ⟨rest, index'⟩) := by
  have hdepth : 2 ≤ Json.nestingLimit - 1 := by decide
  have hread : ∀ value part, SpellsValue value part →
      Json.StartsItem part ∧ Json.ReadAs (Json.nestingLimit - 1) (id value) part :=
    fun value part hvalue => Json.readAs_spelled hvalue hdepth
  cases hbytes with
  | @first _ _ space part later hspace hpart hitems =>
      have hstarts := (hread _ part hpart).1
      cases hpart with
      | text hpart =>
          obtain ⟨i, hkind⟩ := readTag_spelled htag Json.isSpace_nil hpart (later ++ rest)
            (index + space.length)
          have hfuel : later.length ≤ 2 * (later ++ rest).length + 2 := by
            rw [List.length_append]
            omega
          obtain ⟨j, hlater⟩ := Json.readItemsWith_separated hread hitems hfuel i rest
          rw [List.nil_append] at hkind
          rw [List.map_id] at hlater
          refine ⟨j + 1, ?_⟩
          rw [List.append_assoc, List.append_assoc, readTaggedItems,
            Json.nextItem_first hspace hstarts]
          simp only [bind, Except.bind, hkind, Json.readItems, hlater]
          rfl

/-! ### Whole texts -/

/-- An object or a list of the form that nodes have. -/
inductive SpellsNode : Json → List UInt8 → Prop
  | object {entries : List (String × Json)} {bytes : List UInt8}
      (hentries : Separated (byte '\x7d') SpellsEntry true entries bytes) :
      SpellsNode (.object entries) (byte '\x7b' :: bytes)
  | list {items : List Json} {bytes : List UInt8}
      (hitems : Separated (byte ']') SpellsValue true items bytes) :
      SpellsNode (.list items) (byte '[' :: bytes)

theorem finish_isSpace {space : List UInt8} (hspace : IsSpace space) (index : Nat) :
    Json.finish ⟨space, index⟩ = .ok () := by
  rw [Json.finish, Json.skipSpace_of_isSpace hspace]
  rfl

theorem readBody_spelled {value : Json} {bytes lead : List UInt8} (hlead : IsSpace lead)
    (hvalue : SpellsNode value bytes) {node : Node} (hnode : ofJson value = .ok node)
    (rest : List UInt8) :
    ∃ kind body index', readBody (Input.ofBytes (lead ++ (bytes ++ rest))) =
      .ok (kind, body, ⟨rest, index'⟩) ∧ ofBody kind body = .ok node := by
  cases hvalue with
  | @object entries bytes hentries =>
      cases htake : takeTag none entries with
      | error message =>
          rw [ofJson, htake] at hnode
          cases hnode
      | ok taken =>
          rw [ofJson, htake] at hnode
          have hfuel : bytes.length ≤ (byte '\x7b' :: (bytes ++ rest)).length + 1 := by
            rw [List.length_cons, List.length_append]
            omega
          obtain ⟨index', hread⟩ := readTagged_spelled hentries htake hfuel
            (0 + lead.length + 1) rest
          refine ⟨taken.1, .entries taken.2, index', ?_, hnode⟩
          rw [List.cons_append, readBody, Input.ofBytes, Json.skipSpace_append hlead (by decide)]
          simp only [List.headD_cons, if_true, Input.advance, List.drop_one, List.tail_cons, hread,
            bind, Except.bind]
          rfl
  | @list items bytes hitems =>
      cases items with
      | nil => cases hnode
      | cons first items =>
          cases hkind : kindOfValue first with
          | error message =>
              rw [ofJson, hkind] at hnode
              cases hnode
          | ok kind =>
              obtain ⟨tag, rfl, htag⟩ := kindOfValue_eq_ok hkind
              rw [ofJson, hkind] at hnode
              obtain ⟨index', hread⟩ := readTaggedItems_spelled htag hitems
                (0 + lead.length + 1) rest
              refine ⟨kind, .items items, index', ?_, hnode⟩
              have hbracket : byte '[' ≠ byte '\x7b' := by decide
              rw [List.cons_append, readBody, Input.ofBytes,
                Json.skipSpace_append hlead (by decide)]
              simp only [List.headD_cons, if_neg hbracket, if_true, Input.advance, List.drop_one,
                List.tail_cons, hread, bind, Except.bind]
              rfl

/-- A text decodes to the node that the value stands for which it spells. -/
theorem decode_spelled {value : Json} {bytes lead trail : List UInt8} (hlead : IsSpace lead)
    (htrail : IsSpace trail) (hvalue : SpellsNode value bytes) {node : Node}
    (hnode : ofJson value = .ok node) : decode (lead ++ (bytes ++ trail)) = .ok node := by
  obtain ⟨kind, body, index', hread, hbody⟩ := readBody_spelled hlead hvalue hnode trail
  rw [decode, hread]
  simp only [bind, Except.bind, hbody, finish_isSpace htrail]
  rfl

end Node
end VirtualShell
