import VirtualShell.Proofs.Text.Runs
import VirtualShell.Shell.Dispatcher

/-!
# The words of a line

The words of a line are the runs between its blanks, in their order, and nothing else of the line
matters.  They can be found again in every line that is made of them with gaps in between,
`parse_assemble`; so the text that `echo` shows has the words that it was given.
-/

namespace VirtualShell

namespace Text

/-- There are no blanks in a text. -/
def Unbroken (s : String) : Prop :=
  ∀ c ∈ s.toList, isBlank c = false

instance (s : String) : Decidable (Unbroken s) :=
  List.decidableBAll (fun c => isBlank c = false) s.toList

/-- There are only blanks in a text. -/
def AllBlank (s : String) : Prop :=
  ∀ c ∈ s.toList, isBlank c = true

instance (s : String) : Decidable (AllBlank s) :=
  List.decidableBAll (fun c => isBlank c = true) s.toList

end Text

open Text (AllBlank Unbroken)

namespace Line

/-- A text that can stand as a word in a line. -/
def IsWord (s : String) : Prop :=
  s ≠ "" ∧ Unbroken s

instance (s : String) : Decidable (IsWord s) :=
  inferInstanceAs (Decidable (s ≠ "" ∧ Unbroken s))

/-- A text that can stand between two words. -/
def IsGap (s : String) : Prop :=
  s ≠ "" ∧ AllBlank s

instance (s : String) : Decidable (IsGap s) :=
  inferInstanceAs (Decidable (s ≠ "" ∧ AllBlank s))

theorem parts_eq_splitOnP (cs : List Char) : parts cs = cs.splitOnP Text.isBlank := by
  induction cs with
  | nil => rfl
  | cons c cs ih =>
      obtain ⟨part, rest, hparts⟩ :=
        List.exists_cons_of_ne_nil (List.splitOnP_ne_nil Text.isBlank cs)
      rw [parts, ih, List.splitOnP_cons_eq_if_modifyHead, hparts]
      rfl

theorem words_eq_splitOnP (line : String) :
    words line = ((line.toList.splitOnP Text.isBlank).filter fun part => !part.isEmpty).map
      String.ofList := by
  rw [words, parts_eq_splitOnP]

/-! ### Words and gaps -/

/-- The words of a line are made of its characters. -/
theorem of_mem_words {line word : String} (hword : word ∈ words line) :
    IsWord word ∧ ∀ c ∈ word.toList, c ∈ line.toList := by
  rw [words_eq_splitOnP, List.mem_map] at hword
  obtain ⟨part, hpart, rfl⟩ := hword
  obtain ⟨hpart, hne⟩ := List.mem_filter.mp hpart
  refine ⟨⟨fun hempty => ?_, fun c hc => ?_⟩, fun c hc => ?_⟩
  · have hnil := congrArg String.toList hempty
    rw [String.toList_ofList] at hnil
    rw [hnil] at hne
    cases hne
  · rw [String.toList_ofList] at hc
    exact (exists_mem_splitOnP_iff.mp ⟨part, hpart, hc⟩).2
  · rw [String.toList_ofList] at hc
    exact (exists_mem_splitOnP_iff.mp ⟨part, hpart, hc⟩).1

/-- A blank parts the words before it from those behind it. -/
theorem words_append_blank (before : String) {c : Char} (hc : Text.isBlank c = true)
    (rest : String) :
    words (before ++ String.ofList (c :: rest.toList)) = words before ++ words rest := by
  rw [words_eq_splitOnP, words_eq_splitOnP, words_eq_splitOnP, String.toList_append,
    String.toList_ofList, List.splitOnP_append_cons _ _ hc, List.filter_append, List.map_append]

/-- Blanks at the front belong to no word. -/
theorem words_allBlank_append {blanks : String} (hblanks : AllBlank blanks) (rest : String) :
    words (blanks ++ rest) = words rest := by
  obtain ⟨cs, rfl⟩ : ∃ cs, blanks = String.ofList cs := ⟨_, String.ofList_toList.symm⟩
  rw [AllBlank, String.toList_ofList] at hblanks
  induction cs with
  | nil => rw [String.ofList_nil, String.empty_append]
  | cons c cs ih =>
      rw [List.forall_mem_cons] at hblanks
      have hcons : String.ofList (c :: cs) ++ rest =
          "" ++ String.ofList (c :: (String.ofList cs ++ rest).toList) := by
        simp [← String.toList_inj]
      rw [hcons, words_append_blank "" hblanks.1, ih hblanks.2]
      rfl

/-- Only the words on its two sides count where there is a gap. -/
theorem words_append_gap (before : String) {gap : String} (hgap : IsGap gap) (rest : String) :
    words (before ++ (gap ++ rest)) = words before ++ words rest := by
  obtain ⟨hne, hblank⟩ := hgap
  obtain ⟨cs, rfl⟩ : ∃ cs, gap = String.ofList cs := ⟨_, String.ofList_toList.symm⟩
  cases cs with
  | nil => exact absurd String.ofList_nil hne
  | cons c cs =>
      rw [AllBlank, String.toList_ofList, List.forall_mem_cons] at hblank
      have hcons : String.ofList (c :: cs) ++ rest =
          String.ofList (c :: (String.ofList cs ++ rest).toList) := by
        simp [← String.toList_inj]
      have hlater : AllBlank (String.ofList cs) := by
        rw [AllBlank, String.toList_ofList]
        exact hblank.2
      rw [hcons, words_append_blank before hblank.1, words_allBlank_append hlater]

/-- Blanks at the end belong to no word. -/
theorem words_append_allBlank (line : String) {blanks : String} (hblanks : AllBlank blanks) :
    words (line ++ blanks) = words line := by
  by_cases hempty : blanks = ""
  · rw [hempty, String.append_empty]
  · have hgap := words_append_gap line ⟨hempty, hblanks⟩ ""
    have hnone : words "" = [] := rfl
    rwa [String.append_empty, hnone, List.append_nil] at hgap

theorem words_of_isWord {word : String} (hword : IsWord word) : words word = [word] := by
  rw [words_eq_splitOnP, List.splitOnP_eq_singleton hword.2]
  simp [hword.1]

/-- Words that stand with gaps between them can be read back. -/
theorem words_intercalate {gap : String} (hgap : IsGap gap) {tokens : List String}
    (htokens : ∀ token ∈ tokens, IsWord token) :
    words (String.intercalate gap tokens) = tokens := by
  induction tokens with
  | nil => rfl
  | cons token tokens ih =>
      rw [List.forall_mem_cons] at htokens
      obtain ⟨htoken, htokens⟩ := htokens
      cases tokens with
      | nil => rw [String.intercalate_singleton, words_of_isWord htoken]
      | cons next tokens =>
          rw [String.intercalate_cons_cons, String.append_assoc, words_append_gap token hgap,
            words_of_isWord htoken, ih htokens]
          rfl

/-- A line without words has only blanks in it. -/
theorem words_eq_nil_iff {line : String} : words line = [] ↔ AllBlank line := by
  constructor
  · rw [words_eq_splitOnP, List.map_eq_nil_iff, List.filter_eq_nil_iff]
    intro hnone c hc
    by_contra hblank
    -- what is no blank is in one of the parts, which then is not empty
    obtain ⟨part, hpart, hc⟩ :=
      exists_mem_splitOnP_iff.mpr ⟨hc, Bool.not_eq_true _ ▸ hblank⟩
    have hempty := hnone part hpart
    rw [Bool.not_eq_true', Bool.not_eq_false, List.isEmpty_iff] at hempty
    rw [hempty] at hc
    cases hc
  · intro hblank
    have hline := words_allBlank_append hblank ""
    rwa [String.append_empty] at hline

/-! ### What a line is read as -/

theorem parse_eq_some_iff {line name : String} {args : List String} :
    parse line = some ⟨name, args⟩ ↔ words line = name :: args := by
  rw [parse]
  split
  · rename_i hwords
    simp [hwords]
  · rename_i first rest hwords
    simp [hwords]

theorem parse_eq_none_iff {line : String} : parse line = none ↔ words line = [] := by
  rw [parse]
  split <;> simp [*]

/-- The words of a line are made of its characters, and can stand as words. -/
theorem of_mem_parse {line : String} {invocation : Invocation}
    (hline : parse line = some invocation) :
    ∀ word ∈ invocation.name :: invocation.args,
      IsWord word ∧ ∀ c ∈ word.toList, c ∈ line.toList := by
  intro word hword
  rw [← parse_eq_some_iff.mp hline] at hword
  exact of_mem_words hword

theorem parse_congr {line line' : String} (hwords : words line = words line') :
    parse line = parse line' := by
  rw [parse, parse, hwords]

/-- What is read in a stretch of a line. -/
def reading (line : String) (place : Nat × Nat) : String :=
  String.ofList (stretch line.toList place)

/-- The words of a line are its runs without blanks. -/
theorem words_eq_map_reading {line : String} {places : List (Nat × Nat)}
    (hruns : Runs Text.isBlank line.toList places) : words line = places.map (reading line) := by
  obtain ⟨places', hruns', hparts⟩ := runs_splitOnP Text.isBlank line.toList
  rw [hruns.unique hruns', words_eq_splitOnP, hparts, List.map_map]
  rfl

/-- A line made of words: there is a gap before each of them but the first. -/
def assemble (before first : String) (later : List (String × String)) (after : String) : String :=
  before ++ (first ++ (String.join (later.map fun piece => piece.1 ++ piece.2) ++ after))

/-- A line that is made of words has these words. -/
theorem parse_assemble {before first after : String} {later : List (String × String)}
    (hbefore : AllBlank before) (hfirst : IsWord first)
    (hlater : ∀ piece ∈ later, IsGap piece.1 ∧ IsWord piece.2) (hafter : AllBlank after) :
    parse (assemble before first later after) = some ⟨first, later.map Prod.snd⟩ := by
  rw [parse_eq_some_iff, assemble, words_allBlank_append hbefore]
  clear hbefore
  induction later generalizing first with
  | nil =>
      rw [List.map_nil, String.join_nil, String.empty_append, words_append_allBlank _ hafter,
        words_of_isWord hfirst]
      rfl
  | cons piece later ih =>
      obtain ⟨⟨hgap, hword⟩, hlater⟩ := List.forall_mem_cons.mp hlater
      rw [List.map_cons, String.join_cons, String.append_assoc, String.append_assoc,
        words_append_gap first hgap, words_of_isWord hfirst, ih hword hlater]
      rfl

end Line

/-! ### Running a line -/

namespace Shell

variable {shell : Shell} {line : String}

/-- `echo` reports that it runs and shows its arguments. -/
theorem run_execute_echo {invocation : Invocation} (hline : Line.parse line = some invocation)
    (hcommand : shell.registry.find? invocation.name = some .echo) (w : World) :
    (shell.execute line).run w =
      (.success, { w with output := w.output ++
        [.event (Log.Source.shell.event .debug "Executing"
            [("command", .text invocation.name),
              ("args", .text (Text.quotedList invocation.args))]),
          .text (String.intercalate " " invocation.args), .text lineEnd] }) := by
  rw [execute, hline]
  show (shell.perform invocation).run w = _
  rw [perform, hcommand]
  show (Outcome.success, World.mk w.store w.cursor w.now (w.output ++ [_] ++ [_] ++ [_])) = _
  rw [List.append_assoc, List.append_assoc]
  rfl

end Shell

namespace Line

/-- A line is read as its runs without blanks, exactly: it is no invocation if there are only
blanks in it, and every way to write words with gaps between them is read as these words.  So lines
that have the same words run alike, and what `echo` shows has the words that it was given. -/
theorem parse_exact :
    (∀ line, parse line = none ↔ AllBlank line) ∧
    (∀ line, ∃ places, Runs Text.isBlank line.toList places ∧ ∀ name args,
      parse line = some ⟨name, args⟩ ↔ name :: args = places.map (reading line)) ∧
    (∀ before first later after, AllBlank before → IsWord first →
      (∀ piece ∈ later, IsGap piece.1 ∧ IsWord piece.2) → AllBlank after →
      parse (assemble before first later after) = some ⟨first, later.map Prod.snd⟩) ∧
    (∀ (shell : Shell) line line' places places', Runs Text.isBlank line.toList places →
      Runs Text.isBlank line'.toList places' →
      places.map (reading line) = places'.map (reading line') →
      shell.execute line = shell.execute line') ∧
    ∀ (shell : Shell) line invocation w, parse line = some invocation →
      shell.registry.find? invocation.name = some .echo →
      ∃ event text, (shell.execute line).run w =
          (.success, { w with output := w.output ++ [.event event, .text text, .text lineEnd] }) ∧
        words text = invocation.args ∧ words (text ++ lineEnd) = invocation.args := by
  refine ⟨fun line => parse_eq_none_iff.trans words_eq_nil_iff, fun line => ?_,
    fun before first later after => parse_assemble, ?_, ?_⟩
  · obtain ⟨places, hruns, -⟩ := runs_splitOnP Text.isBlank line.toList
    refine ⟨places, hruns, fun name args => ?_⟩
    rw [parse_eq_some_iff, words_eq_map_reading hruns, eq_comm]
  · intro shell line line' places places' hruns hruns' hsame
    rw [← words_eq_map_reading hruns, ← words_eq_map_reading hruns'] at hsame
    rw [Shell.execute, Shell.execute, parse_congr hsame]
  · intro shell line invocation w hline hcommand
    have hshown : words (String.intercalate " " invocation.args) = invocation.args :=
      words_intercalate (by decide) fun arg harg =>
        (of_mem_parse hline arg (List.mem_cons_of_mem _ harg)).1
    refine ⟨_, _, Shell.run_execute_echo hline hcommand w, hshown, ?_⟩
    rw [words_append_allBlank _ (by decide), hshown]

/-- Blanks of seven kinds around two words, with a shell in which `echo` has its name. -/
theorem parse_exact_mixedBlanks :
    let line := assemble "\t\u00a0" "echo" [("\u2003 \u3000", "a/b")] "\u0085\r"
    parse line = some ⟨"echo", ["a/b"]⟩ ∧
      ∀ w : World, ∃ event text,
        (Shell.execute ⟨.builtins, ⟨false⟩, ⟨0, false⟩, "user", "host"⟩ line).run w =
          (.success, { w with output := w.output ++ [.event event, .text text, .text lineEnd] }) ∧
        words text = ["a/b"] ∧ words (text ++ lineEnd) = ["a/b"] := by
  intro line
  have hline : parse line = some ⟨"echo", ["a/b"]⟩ :=
    parse_exact.2.2.1 _ _ _ _ (by decide) (by decide) (by decide) (by decide)
  exact ⟨hline, fun w => parse_exact.2.2.2.2 _ line _ w hline (by decide +kernel)⟩

end Line
end VirtualShell
