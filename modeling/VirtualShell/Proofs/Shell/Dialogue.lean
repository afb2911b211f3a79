import Mathlib.Data.List.DropRight
import VirtualShell.Proofs.Routine.Output
import VirtualShell.Proofs.Shell.InputLines
import VirtualShell.Proofs.Shell.InTurn
import VirtualShell.Shell.Buffer

/-!
# The dialogue of the interactive loop

The loop shows a prompt, runs a line and starts over, until a line says `exit`, is no text, or there
are no more.  So it is the routine that shows a prompt before each of the lines that it runs, and
one more at the end; the store and the cursor are those that running the lines one after the other
leaves, and what it puts out is what they put out with the prompts between.
-/

namespace VirtualShell

/-! ### What a buffer holds -/

/-- The text that an output shows, if it is one. -/
def Output.shown? : Output → Option String
  | .text s => some s
  | .clear => none
  | .event _ => none

/-- All texts since the last time that everything was cleared, one behind the other. -/
def textSinceClear (outputs : List Output) : String :=
  String.join ((outputs.rtakeWhile (· ≠ .clear)).filterMap Output.shown?)

/-- A buffer holds the texts since the last time that it was cleared. -/
theorem Buffer.text_foldl_add (outputs : List Output) :
    (outputs.foldl Buffer.add .empty).text = textSinceClear outputs := by
  -- from the end of the outputs, since the last clearing counts
  induction outputs using List.reverseRecOn with
  | nil => rfl
  | append_singleton outputs output ih =>
      have hstep : ((outputs ++ [output]).foldl Buffer.add .empty).text =
          ((outputs.foldl Buffer.add .empty).add output).text := by
        rw [List.foldl_append]
        rfl
      rw [hstep, textSinceClear]
      cases output with
      | text s =>
          have hjoin : String.join [s] = s := by simp [String.join]
          rw [List.rtakeWhile_concat_pos _ _ _ (by simp), List.filterMap_append, String.join_append,
            ← textSinceClear, ← ih]
          exact congrArg (_ ++ ·) hjoin.symm
      | clear =>
          rw [List.rtakeWhile_concat_neg _ _ _ (by simp)]
          rfl
      | event e =>
          rw [List.rtakeWhile_concat_pos _ _ _ (by simp), List.filterMap_append, String.join_append,
            ← textSinceClear, ← ih]
          exact String.append_empty.symm

namespace Interactive

local instance : LawfulMonad Routine := Routine.lawfulMonad

/-! ### Where the loop stops -/

/-- How the loop over an input ends. -/
inductive Ending where
  | exit
  | unreadable
  | exhausted

/-- What stands at the end: a text that says `exit`, bytes that are those of no text, or nothing. -/
def Ending.At : Ending → List (List UInt8) → Prop
  | .exit, rest => ∃ text later, rest = Text.Utf8.encode text :: later ∧ Text.trim text = "exit"
  | .unreadable, rest => ∃ line later, rest = line :: later ∧ ∀ text, line ≠ Text.Utf8.encode text
  | .exhausted, rest => rest = []

/-- The lines begin with those of some texts, of which none says `exit`, and end behind them. -/
def StopsAfter (texts : List String) (ending : Ending) (lines : List (List UInt8)) : Prop :=
  (∀ text ∈ texts, Text.trim text ≠ "exit") ∧
    ∃ rest, lines = texts.map Text.Utf8.encode ++ rest ∧ ending.At rest

theorem StopsAfter.cons {texts : List String} {ending : Ending} {lines : List (List UInt8)}
    (hstops : StopsAfter texts ending lines) {text : String} (htext : Text.trim text ≠ "exit") :
    StopsAfter (text :: texts) ending (Text.Utf8.encode text :: lines) := by
  obtain ⟨htexts, rest, hlines, hrest⟩ := hstops
  refine ⟨List.forall_mem_cons.mpr ⟨htext, htexts⟩, rest, ?_, hrest⟩
  rw [hlines]
  rfl

/-- What a loop does when it ends. -/
def Ending.close : Ending → Routine Unit
  | .exit => farewell
  | .unreadable => pure ()
  | .exhausted => endOfInput

/-- What a loop puts out when it ends. -/
def Ending.outputs : Ending → List Output
  | .exit => [.event (Log.Source.host.event .info "Shell session ended" [])]
  | .unreadable => []
  | .exhausted =>
    [.text lineEnd, .event (Log.Source.host.event .info "Shell session ended" [])]

/-- The results with which a loop can end. -/
def Ending.Yields : Ending → Except InputError Unit → Prop
  | .exit, result => result = .ok ()
  | .unreadable, result => ∃ fault, result = .error (.notText fault)
  | .exhausted, result => result = .ok ()

/-- A prompt before each of some lines, and one behind them. -/
def converse (shell : Shell) : List String → Routine Unit
  | [] => showPrompt shell
  | text :: texts => do
    showPrompt shell
    discard (shell.execute text)
    converse shell texts

/-- The loop runs the texts that stand before its end, with a prompt before each of them and one
before the end. -/
theorem exists_loop_eq (shell : Shell) (raws : List (List UInt8)) :
    ∃ texts ending result, StopsAfter texts ending (raws.map dropLineEnd) ∧
      ending.Yields result ∧
      loop shell raws = do
        converse shell texts
        ending.close
        return result := by
  induction raws with
  | nil => exact ⟨[], .exhausted, .ok (), ⟨by simp, [], rfl, rfl⟩, rfl, rfl⟩
  | cons raw raws ih =>
      rw [List.map_cons, loop]
      cases hdecode : Text.Utf8.decode (dropLineEnd raw) with
      | error fault =>
          have hline : lineText raw = .error (.notText fault) := by rw [lineText, hdecode]; rfl
          have hnone := Text.Utf8.decode_eq_error_iff.mp ⟨fault, hdecode⟩
          refine ⟨[], .unreadable, .error (.notText fault), ⟨by simp, _, rfl, _, _, rfl, hnone⟩,
            ⟨fault, rfl⟩, ?_⟩
          rw [handle, hline]
          rfl
      | ok text =>
          have hline : lineText raw = .ok text := by rw [lineText, hdecode]; rfl
          have hbytes := Text.Utf8.decode_eq_ok_iff.mp hdecode
          rw [handle, hline]
          by_cases hexit : Text.trim text = "exit"
          · rw [hbytes]
            refine ⟨[], .exit, .ok (), ⟨by simp, _, rfl, text, _, rfl, hexit⟩, rfl, ?_⟩
            simp only [hexit, if_true]
            rfl
          · obtain ⟨texts, ending, result, hstops, hyields, hloop⟩ := ih
            refine ⟨text :: texts, ending, result, ?_, hyields, ?_⟩
            · rw [hbytes]
              exact hstops.cons hexit
            · simp [hexit, hloop, converse]

/-- What the lines put out with the prompts between them: each time the prompt for the working
directory that the lines before it left. -/
def dialogue (shell : Shell) : List String → World → List Output
  | [], w => [.text (shell.promptText w.cursor)]
  | text :: texts, w =>
    .text (shell.promptText w.cursor) ::
      (((shell.execute text).run w).2.outputSince w ++
        dialogue shell texts ((shell.execute text).run w).2)

theorem run_showPrompt (shell : Shell) (w : World) :
    (showPrompt shell).run w = ((), w.emit (.text (shell.promptText w.cursor))) := rfl

theorem run_discard {α : Type} (routine : Routine α) (w : World) :
    (Routine.run (discard routine) w).2 = (routine.run w).2 :=
  congrArg Prod.snd (Routine.run_bind routine (fun _ => pure ()) w)

/-- Prompts change nothing, so that the lines leave what they leave without them. -/
theorem run_converse (shell : Shell) (texts : List String) {w w' : World}
    (hsilent : w'.silent = w.silent) :
    ((converse shell texts).run w').2.silent = (shell.executeAll texts w).2.silent ∧
      ((converse shell texts).run w').2.output = w'.output ++ dialogue shell texts w := by
  induction texts generalizing w w' with
  | nil =>
      rw [converse, run_showPrompt, (World.silent_eq_iff.mp hsilent).2.1]
      exact ⟨hsilent, rfl⟩
  | cons text texts ih =>
      -- the line runs behind its prompt as it runs without it
      have hprompted : (w'.emit (.text (shell.promptText w'.cursor))).silent = w.silent := hsilent
      obtain ⟨-, houtput, hnext⟩ := (shell.execute text).run_congr hprompted
      obtain ⟨hlast, hlater⟩ := ih hnext
      rw [converse, Routine.run_bind, run_showPrompt, Routine.run_bind, run_discard]
      refine ⟨hlast, ?_⟩
      rw [hlater, dialogue,
        World.output_eq (shell.prefix_output_execute (w'.emit _) text), houtput, World.emit,
        (World.silent_eq_iff.mp hsilent).2.1]
      simp

theorem run_close (ending : Ending) (w : World) :
    (ending.close.run w).2 = { w with output := w.output ++ ending.outputs } := by
  cases ending with
  | exit => rfl
  | unreadable =>
      rw [Ending.outputs, List.append_nil]
      rfl
  | exhausted =>
      rw [Ending.outputs, ← List.singleton_append, ← List.append_assoc]
      rfl

/-! ### The loop is what it runs -/

/-- What a loop over an input comes to, if it stops after some texts.  `routine` says that the loop
is nothing but its prompts, the running of the texts and its end; so this is what happens whatever
the time is and whether commits fail. -/
structure RunsInTurn (shell : Shell) (input : List UInt8) (w : World) (texts : List String)
    (ending : Ending) : Prop where
  stops : StopsAfter texts ending (lines input)
  routine : ∃ result, ending.Yields result ∧
    run shell input = do
      converse shell texts
      ending.close
      return result
  result : ending.Yields ((run shell input).run w).1
  store : ((run shell input).run w).2.store = (shell.executeAll texts w).2.store
  cursor : ((run shell input).run w).2.cursor = (shell.executeAll texts w).2.cursor
  output : ((run shell input).run w).2.output =
    w.output ++ (dialogue shell texts w ++ ending.outputs)
  shown : (((run shell input).run w).2.output.foldl Buffer.add .empty).text =
    textSinceClear (w.output ++ (dialogue shell texts w ++ ending.outputs))

theorem exists_runsInTurn (shell : Shell) (input : List UInt8) (w : World) :
    ∃ texts ending, RunsInTurn shell input w texts ending := by
  obtain ⟨texts, ending, result, hstops, hyields, hloop⟩ := exists_loop_eq shell (rawLines input)
  rw [map_dropLineEnd_rawLines] at hstops
  obtain ⟨hlast, hdialogue⟩ := run_converse shell texts (rfl : w.silent = w.silent)
  obtain ⟨hstore, hcursor, -⟩ := World.silent_eq_iff.mp hlast
  have hrun : (run shell input).run w =
      (result, (ending.close.run ((converse shell texts).run w).2).2) := by
    rw [run, hloop, Routine.run_bind, Routine.run_bind]
    rfl
  have houtput : ((run shell input).run w).2.output =
      w.output ++ (dialogue shell texts w ++ ending.outputs) := by
    rw [hrun, run_close, hdialogue, List.append_assoc]
  refine ⟨texts, ending, hstops, ⟨result, hyields, hloop⟩, ?_, ?_, ?_, houtput, ?_⟩
  · rw [hrun]
    exact hyields
  · rw [hrun, run_close]
    exact hstore
  · rw [hrun, run_close]
    exact hcursor
  · rw [Buffer.text_foldl_add, houtput]

/-! ### Two ways to end a line -/

/-- Whether a line ended the loop, and whether well. -/
def Continuation.verdict : Continuation → Option Bool
  | .more => none
  | .finished result => some result.isOk

variable (shell : Shell)

theorem verdict_handle {raw raw' : List UInt8}
    (hsame : SameRequest (lineText raw) (lineText raw')) :
    Continuation.verdict <$> handle shell raw = Continuation.verdict <$> handle shell raw' := by
  rcases hsame with ⟨e, e', hraw, hraw'⟩ | ⟨text, text', hraw, hraw', hparse, htrim⟩
  · rw [handle, handle, hraw, hraw']
    rfl
  · rw [handle, handle, hraw, hraw']
    simp only [htrim, Shell.execute, hparse]

theorem isOk_loop_cons (raw : List UInt8) (rest : List (List UInt8)) :
    Except.isOk <$> loop shell (raw :: rest) =
      (do
        showPrompt shell
        match ← Continuation.verdict <$> handle shell raw with
        | some well => return well
        | none => Except.isOk <$> loop shell rest) := by
  rw [loop]
  simp only [map_bind, bind_map_left]
  congr 1
  funext _
  congr 1
  funext continuation
  cases continuation <;> simp [Continuation.verdict]

/-- Lines that are alike are run alike. -/
theorem isOk_loop_congr {raws raws' : List (List UInt8)} (halike : List.Forall₂ Alike raws raws') :
    Except.isOk <$> loop shell raws = Except.isOk <$> loop shell raws' := by
  induction halike with
  | nil => rfl
  | cons hfirst hlater ih =>
      rw [isOk_loop_cons, isOk_loop_cons, verdict_handle shell hfirst.sameRequest, ih]

/-- The interactive loop runs the lines of its input one after the other, up to the first that says
`exit` or is no text, with a prompt before each.  Whether the lines end in line feeds alone or with
carriage returns before them makes no difference. -/
theorem run_inTurn (input : List UInt8) (w : World) :
    (∃ texts ending, RunsInTurn shell input w texts ending) ∧
      ∀ (lines : List (List UInt8)) (tail : List UInt8),
        let feeds := (run shell (lines.flatMap (· ++ [0x0A]) ++ tail)).run w
        let returns := (run shell (lines.flatMap (· ++ [0x0D, 0x0A]) ++ tail)).run w
        feeds.2 = returns.2 ∧ feeds.1.isOk = returns.1.isOk := by
  refine ⟨exists_runsInTurn shell input w, fun lines tail => ?_⟩
  -- lines that are alike can have different faults, so only success is compared
  have hruns := congrArg (Routine.run · w)
    (isOk_loop_congr shell (forall₂_alike_flatMap lines tail))
  simp only [map_eq_pure_bind, Routine.run_bind] at hruns
  obtain ⟨hresult, hworld⟩ := Prod.mk.inj hruns
  exact ⟨hworld, hresult⟩

end Interactive
end VirtualShell
