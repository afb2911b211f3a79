import Mathlib.Data.List.TakeDrop
import VirtualShell.Toml.Document

/-!
# Quoted texts are read as they are

Between double quotes every text can be written: quotes and backslashes behind a backslash, control
characters by their numbers and all others as themselves.  A document of one line that sets a key of a
table to such a text is read as that and nothing else.
-/

namespace VirtualShell
namespace Toml

/-! ### Texts between quotes -/

/-- A character as it stands between double quotes. -/
def quoteChar (c : Char) : List Char :=
  if c = '"' ∨ c = '\\' then ['\\', c]
  else if isPlain c then [c]
  else ['\\', 'u', '0', '0', Nat.digitChar (c.toNat / 16), Nat.digitChar (c.toNat % 16)]

/-- A text between double quotes. -/
def quoted (s : String) : List Char :=
  '"' :: (s.toList.flatMap quoteChar ++ ['"'])

theorem readBasic_skip (skipped rest : List Char) :
    readBasic skipped.length (skipped ++ rest) = readBasic 0 rest := by
  induction skipped with
  | nil => rfl
  | cons c skipped ih => exact ih

/-- What stands for a character behind a backslash is passed over. -/
theorem readBasic_escape {c : Char} {letters : List Char} (rest : List Char)
    (hsize : escapeSize (letters.headD ' ') = letters.length) (hescape : escape? letters = some c) :
    readBasic 0 ('\\' :: (letters ++ rest)) = (readBasic 0 rest).map (prepend c) := by
  have hhead : (letters ++ rest).headD ' ' = letters.headD ' ' := by
    cases letters with
    | nil => cases hsize
    | cons letter letters => rfl
  rw [readBasic]
  simp only [Char.reduceEq, if_false, if_true, hhead, hsize, List.take_left, hescape,
    readBasic_skip]
  cases readBasic 0 rest <;> rfl

/-- The control characters that stand for nothing themselves have two digits. -/
theorem lt_of_not_isPlain {c : Char} (hc : isPlain c = false) : c.toNat < 0x80 := by
  rw [isPlain, Bool.or_eq_false_iff, Bool.and_eq_false_iff, decide_eq_false_iff_not,
    bne_eq_false_iff_eq] at hc
  omega

theorem escape?_digits {c : Char} (hc : c.toNat < 0x80) :
    escape? ['u', '0', '0', Nat.digitChar (c.toNat / 16), Nat.digitChar (c.toNat % 16)] =
      some c := by
  have hall : ∀ n < 0x80, escape? ['u', '0', '0', Nat.digitChar (n / 16), Nat.digitChar (n % 16)] =
      some (Char.ofNat n) := by decide +kernel
  rw [hall c.toNat hc, Char.ofNat_toNat]

theorem readBasic_quoteChar (c : Char) (rest : List Char) :
    readBasic 0 (quoteChar c ++ rest) = (readBasic 0 rest).map (prepend c) := by
  rw [quoteChar]
  split
  · rename_i hc
    have hsize : escapeSize ([c].headD ' ') = [c].length := by rcases hc with rfl | rfl <;> rfl
    have hescape : escape? [c] = some c := by rcases hc with rfl | rfl <;> rfl
    exact readBasic_escape rest hsize hescape
  · rename_i hc
    rw [not_or] at hc
    split
    · rename_i hplain
      rw [List.singleton_append, readBasic]
      simp only [if_neg hc.1, if_neg hc.2, if_pos hplain]
    · rename_i hplain
      exact readBasic_escape rest rfl
        (escape?_digits (lt_of_not_isPlain (Bool.eq_false_iff.mpr hplain)))

theorem readBasic_flatMap (cs rest : List Char) :
    readBasic 0 (cs.flatMap quoteChar ++ '"' :: rest) = some (cs, rest) := by
  induction cs with
  | nil => rfl
  | cons c cs ih =>
      rw [List.flatMap_cons, List.append_assoc, readBasic_quoteChar, ih]
      rfl

theorem exists_quoteChar_eq_cons (c : Char) : ∃ d ds, quoteChar c = d :: ds ∧ d ≠ '"' := by
  rw [quoteChar]
  split
  · exact ⟨'\\', [c], rfl, by decide⟩
  · rename_i hc
    split
    · exact ⟨c, [], rfl, fun heq => hc (.inl heq)⟩
    · exact ⟨'\\', _, rfl, by decide⟩

/-- A quoted text does not start with three quotes, unless a third one follows an empty text. -/
theorem quoted_append_ne (s : String) {rest : List Char} (hrest : rest.head? ≠ some '"')
    (after : List Char) : quoted s ++ rest ≠ '"' :: '"' :: '"' :: after := by
  intro heq
  rw [quoted, List.cons_append, List.cons.injEq] at heq
  replace heq := heq.2
  cases hs : s.toList with
  | nil =>
      rw [hs] at heq
      obtain rfl : rest = '"' :: after := (List.cons.inj heq).2
      exact hrest rfl
  | cons c cs =>
      obtain ⟨d, ds, hquote, hd⟩ := exists_quoteChar_eq_cons c
      rw [hs, List.flatMap_cons, hquote] at heq
      exact hd (List.cons.inj heq).1

theorem readText_quoted (s : String) {rest : List Char} (hrest : rest.head? ≠ some '"') :
    readText (quoted s ++ rest) = some (s, rest) := by
  have hbasic : readLineText (quoted s ++ rest) =
      (readBasic 0 (s.toList.flatMap quoteChar ++ '"' :: rest)).map toText := by
    rw [quoted, List.cons_append, List.append_assoc]
    rfl
  rw [readText, hbasic, readBasic_flatMap, Option.map_some, toText, String.ofList_toList]
  · exact fun after => quoted_append_ne s hrest after
  · intro after heq
    cases heq

/-! ### Lines with quoted texts -/

/-- A key that needs no quotes. -/
def IsBare (key : String) : Prop :=
  key.toList ≠ [] ∧ ∀ c ∈ key.toList, isKeyChar c = true

/-- A line that sets a key of a table to a text. -/
def quotedLine (table key s : String) : String :=
  String.ofList (table.toList ++ '.' :: (key.toList ++ ' ' :: '=' :: ' ' :: (quoted s ++ ['\n'])))

theorem isBare_of_all {key : String} (hempty : key.toList.isEmpty = false)
    (hall : key.toList.all isKeyChar = true) : IsBare key :=
  ⟨List.isEmpty_eq_false_iff.mp hempty, List.all_eq_true.mp hall⟩

theorem IsBare.exists_eq_cons {key : String} (hkey : IsBare key) :
    ∃ c cs, key.toList = c :: cs ∧ isKeyChar c = true := by
  obtain ⟨c, cs, hcs⟩ := List.exists_cons_of_ne_nil hkey.1
  exact ⟨c, cs, hcs, hkey.2 c (hcs ▸ List.mem_cons_self)⟩

theorem IsBare.append_ne {key : String} (hkey : IsBare key) {d : Char} (hd : isKeyChar d = false)
    (rest after : List Char) : key.toList ++ rest ≠ d :: after := by
  obtain ⟨c, cs, hcs, hc⟩ := hkey.exists_eq_cons
  rw [hcs]
  intro heq
  obtain rfl : c = d := (List.cons.inj heq).1
  rw [hc] at hd
  cases hd

theorem IsBare.skipBlanks {key : String} (hkey : IsBare key) (rest : List Char) :
    Toml.skipBlanks (key.toList ++ rest) = key.toList ++ rest := by
  obtain ⟨c, cs, hcs, hc⟩ := hkey.exists_eq_cons
  have hblank : isBlank c = false := by
    rw [isBlank, Bool.or_eq_false_iff, beq_eq_false_iff_ne, beq_eq_false_iff_ne]
    constructor <;> rintro rfl <;> cases hc
  rw [hcs, Toml.skipBlanks, List.cons_append, List.dropWhile_cons_of_neg (by simp [hblank])]

theorem IsBare.readKey {key : String} (hkey : IsBare key) {c : Char} (hc : isKeyChar c = false)
    (rest : List Char) : Toml.readKey (key.toList ++ c :: rest) = some (key, c :: rest) := by
  have hspan : (key.toList ++ c :: rest).span isKeyChar = (key.toList, c :: rest) := by
    rw [List.span_eq_takeWhile_dropWhile, List.takeWhile_append_of_pos hkey.2,
      List.dropWhile_append_of_pos hkey.2]
    simp [hc]
  have hempty : key.toList.isEmpty = false := List.isEmpty_eq_false_iff.mpr hkey.1
  rw [Toml.readKey]
  · simp only [hspan, hempty, Bool.false_eq_true, if_false, String.ofList_toList]
  · exact fun _ => hkey.append_ne (by decide) _ _
  · exact fun _ => hkey.append_ne (by decide) _ _

/-- A line that starts with a key is read as one. -/
theorem IsBare.readLines {key : String} (hkey : IsBare key) (steps : Nat) (d : Document)
    (rest : List Char) : Document.readLines (steps + 1) d (key.toList ++ rest) =
      (d.readLine (key.toList ++ rest)).bind fun read =>
        Document.readLines steps read.1 read.2 := by
  have hblanks := hkey.skipBlanks rest
  have hnewline : newline? (key.toList ++ rest) = none := by
    rw [newline?]
    · exact fun _ => hkey.append_ne (by decide) _ _
    · exact fun _ => hkey.append_ne (by decide) _ _
  obtain ⟨c, cs, hcs, hc⟩ := hkey.exists_eq_cons
  rw [hcs, List.cons_append] at hblanks hnewline ⊢
  rw [Document.readLines, hblanks]
  split
  · rename_i heq
    cases heq
  · rename_i heq
    cases heq
    cases hc
  · rename_i heq
    cases heq
    rw [hnewline]
    rfl

theorem IsBare.ne_momentKey {key : String} (hkey : IsBare key) : key ≠ momentKey := by
  rintro rfl
  exact absurd (hkey.2 '$' (by decide)) (by decide)

section Line

variable {table key : String} (htable : IsBare table) (hkey : IsBare key)

include htable hkey in
theorem readKeyPath_dotted (rest : List Char) :
    readKeyPath (table.toList ++ '.' :: (key.toList ++ ' ' :: '=' :: rest)) =
      some (⟨[table], key⟩, '=' :: rest) := by
  have hlast : ∀ limit, readKeys (limit + 1) (key.toList ++ ' ' :: '=' :: rest) =
      some ([key], '=' :: rest) := by
    intro limit
    rw [readKeys, hkey.skipBlanks, hkey.readKey (by decide)]
    rfl
  have hkeys : readKeys maxNesting (table.toList ++ '.' :: (key.toList ++ ' ' :: '=' :: rest)) =
      some ([table, key], '=' :: rest) := by
    rw [maxNesting, readKeys, htable.skipBlanks, htable.readKey (by decide)]
    have hdot : skipBlanks ('.' :: (key.toList ++ ' ' :: '=' :: rest)) =
        '.' :: (key.toList ++ ' ' :: '=' :: rest) := rfl
    simp only [bind, Option.bind, hdot, hlast]
    rfl
  rw [readKeyPath, hkeys]
  rfl

include htable hkey in
theorem readLine_quoted (s : String) :
    Document.empty.readLine (table.toList ++ '.' ::
      (key.toList ++ ' ' :: '=' :: ' ' :: (quoted s ++ ['\n']))) =
      some (⟨⟨.explicit, [(table, .table .dotted [(key, .text s)])]⟩, []⟩, []) := by
  have hvalue : readValue maxNesting (skipBlanks (' ' :: (quoted s ++ ['\n']))) =
      some (.text s, ['\n']) := by
    have hblank : skipBlanks (' ' :: (quoted s ++ ['\n'])) = quoted s ++ ['\n'] := rfl
    have htext : readText (quoted s ++ ['\n']) = some (s, ['\n']) :=
      readText_quoted s (by decide)
    rw [quoted, List.cons_append] at hblank htext
    rw [quoted, List.cons_append, hblank, readValue, htext]
    rfl
  have hentry : readEntry (readValue maxNesting) (table.toList ++ '.' ::
      (key.toList ++ ' ' :: '=' :: ' ' :: (quoted s ++ ['\n']))) =
      some ((⟨[table], key⟩, .text s), ['\n']) := by
    rw [readEntry, readKeyPath_dotted htable hkey]
    simp only [bind, Option.bind, hvalue]
    rfl
  rw [Document.readLine, hentry]
  · rfl
  · exact fun _ => htable.append_ne (by decide) _ _
  · exact fun _ => htable.append_ne (by decide) _ _

include htable hkey in
/-- A line with a quoted text sets the key to the text, whatever the text is. -/
theorem read_quotedLine (s : String) :
    read (quotedLine table key s) = some [(table, .table .dotted [(key, .text s)])] := by
  have hchars : (quotedLine table key s).toList = table.toList ++ '.' ::
      (key.toList ++ ' ' :: '=' :: ' ' :: (quoted s ++ ['\n'])) := by
    rw [quotedLine, String.toList_ofList]
  have hmark : skipMark (quotedLine table key s).toList = (quotedLine table key s).toList := by
    have hmark : isKeyChar '\ufeff' = false := by decide
    rw [hchars, skipMark]
    exact fun _ => htable.append_ne hmark _ _
  have hlines : Document.readLines ((quotedLine table key s).toList.length + 1) .empty
      (quotedLine table key s).toList =
      some ⟨⟨.explicit, [(table, .table .dotted [(key, .text s)])]⟩, []⟩ := by
    rw [hchars, htable.readLines, readLine_quoted htable hkey, List.length_append, List.length_cons]
    rfl
  have hsettled : settleDocument [(table, .table .dotted [(key, .text s)])] =
      some [(table, .table .dotted [(key, .text s)])] := by
    simp [settleDocument, settleTable, Value.settle, settleEntries, htable.ne_momentKey,
      hkey.ne_momentKey]
  rw [read, hmark, hlines]
  exact hsettled

end Line

end Toml
end VirtualShell
