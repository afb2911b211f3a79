import VirtualShell.Proofs.Shell.Dialogue
import VirtualShell.Proofs.Shell.Erasure
import VirtualShell.Proofs.Shell.Painting

/-!
# Colours are decoration

A script of lines and prompts is run in two shells of which only one has colours.  Step by step it
comes to the same in both.  The texts that it shows in the one are those that it shows in the other
with colour codes put into them, and these can be told from the rest if nothing else has the
character that they start with.
-/

namespace VirtualShell

open Text (Painted)

/-! ### Scripts with prompts -/

/-- What is asked of a shell: that it runs a line, or that it shows its prompt. -/
inductive Cue where
  | line (entry : ScriptLine)
  | prompt
  deriving DecidableEq, Repr

namespace Shell

/-- Does what a cue asks for. Only a line has an outcome. -/
def follow (shell : Shell) (cue : Cue) (w : World) : Option Outcome × World :=
  match cue with
  | .line entry =>
    let (outcome, w) := ((shell.execute entry.text).upon entry.medium).run (entry.start w)
    (some outcome, w)
  | .prompt => (none, ((Interactive.showPrompt shell).run w).2)

/-- The outcomes of some cues, each with the world that it leaves. -/
def followAll (shell : Shell) : List Cue → World → List (Option Outcome × World)
  | [], _ => []
  | cue :: cues, w => shell.follow cue w :: followAll shell cues (shell.follow cue w).2

/-- What a cue brings with it is allowed. -/
def AllowsCue (A : Accord) : Cue → Prop
  | .line entry => A.Allows entry.text ∧ A.TrustsMedium entry.medium
  | .prompt => True

theorem allowsCue_of_forall {A : Accord} (hall : ∀ c, A.allowed c) (cue : Cue) :
    AllowsCue A cue := by
  cases cue with
  | line entry => exact ⟨fun c _ => hall c, fun _ _ c _ => hall c⟩
  | prompt => trivial

section

variable {A : Accord} (hA : A.Paints) (shell : Shell) (huser : A.Allows shell.user)
  (hhost : A.Allows shell.host)

include hA huser hhost

/-- A cue comes to the same in joined worlds, and leaves them joined. -/
theorem joins_follow {cue : Cue} (hcue : AllowsCue A cue) {w w' : World} (hjoins : A.Joins w w')
    (hw : A.Trusts w) :
    ((shell.withColor true).follow cue w).1 = ((shell.withColor false).follow cue w').1 ∧
      A.Joins ((shell.withColor true).follow cue w).2 ((shell.withColor false).follow cue w').2 ∧
      A.Trusts ((shell.withColor true).follow cue w).2 := by
  cases cue with
  | line entry =>
      obtain ⟨htext, hmedium⟩ := hcue
      obtain ⟨hstore, hcursor, -⟩ := World.silent_eq_iff.mp hjoins.silent
      -- the line brings the time with it, so the clocks need not agree before it
      have hstart : A.Joins (entry.start w) (entry.start w') :=
        ⟨World.silent_eq_iff.mpr ⟨hstore, hcursor, rfl⟩, hjoins.output⟩
      obtain ⟨houtcome, -, hafter, htrusts⟩ :=
        ((inStep_execute hA shell htext).upon hmedium).run hstart ⟨hw.get, hw.cursor⟩
      exact ⟨congrArg some houtcome, hafter, htrusts⟩
  | prompt =>
      obtain ⟨-, -, hafter, htrusts⟩ := (inStep_showPrompt hA shell huser hhost).run hjoins hw
      exact ⟨rfl, hafter, htrusts⟩

/-- Step by step, a script comes to the same in joined worlds. -/
theorem joins_followAll {cues : List Cue} (hcues : ∀ cue ∈ cues, AllowsCue A cue) {w w' : World}
    (hjoins : A.Joins w w') (hw : A.Trusts w) :
    List.Forall₂ (fun reached reached' => reached.1 = reached'.1 ∧ A.Joins reached.2 reached'.2)
      ((shell.withColor true).followAll cues w) ((shell.withColor false).followAll cues w') := by
  induction cues generalizing w w' with
  | nil => exact .nil
  | cons cue cues ih =>
      rw [List.forall_mem_cons] at hcues
      obtain ⟨houtcome, hafter, htrusts⟩ := joins_follow hA shell huser hhost hcues.1 hjoins hw
      exact .cons ⟨houtcome, hafter⟩ (ih hcues.2 hafter htrusts)

end

end Shell

/-! ### Reading through the colours -/

/-- The output without colour codes. -/
def Output.unpainted : Output → Output
  | .text s => .text (Text.unpainted s)
  | .clear => .clear
  | .event e => .event e

theorem Output.Painted.unpainted_eq {output output' : Output}
    (h : Output.Painted (· ≠ '\x1b') output output') : output.unpainted = output' := by
  cases h with
  | text htext => rw [Output.unpainted, htext.unpainted_eq]
  | clear => rfl
  | event e => rfl

theorem map_unpainted {outputs outputs' : List Output}
    (h : List.Forall₂ (Output.Painted (· ≠ '\x1b')) outputs outputs') :
    outputs.map Output.unpainted = outputs' := by
  induction h with
  | nil => rfl
  | cons hfirst _ ih => rw [List.map_cons, hfirst.unpainted_eq, ih]

section

variable {allowed : Char → Prop} {outputs outputs' : List Output}
  (h : List.Forall₂ (Output.Painted allowed) outputs outputs')

include h

theorem painted_foldl_add {b b' : Buffer} (hb : Painted allowed b.text b'.text) :
    Painted allowed (outputs.foldl Buffer.add b).text (outputs'.foldl Buffer.add b').text := by
  induction h generalizing b b' with
  | nil => exact hb
  | cons hfirst _ ih =>
      refine ih ?_
      cases hfirst with
      | text htext => exact hb.append htext
      | clear => exact .nil
      | event e => exact hb

/-- What is shown is the same but for colour codes, if all outputs are. -/
theorem painted_textSinceClear :
    Painted allowed (textSinceClear outputs) (textSinceClear outputs') := by
  rw [← Buffer.text_foldl_add, ← Buffer.text_foldl_add]
  exact painted_foldl_add h .nil

end

/-- All texts that a node is made of. -/
def Node.texts : Node → List String
  | .directory path name children => path :: name :: children
  | .file path content _ _ => [path, content]

namespace Shell

/-- Nothing that a script works on has the character that starts a code: no line, nothing that a
commit fails with, neither of the names in the prompt, not the working directory, and nothing that
the store keeps, whether it is read as a node or complained of. -/
structure Codeless (shell : Shell) (cues : List Cue) (w : World) : Prop where
  line {entry : ScriptLine} (hentry : .line entry ∈ cues) : '\x1b' ∉ entry.text.toList
  failure {entry : ScriptLine} (hentry : .line entry ∈ cues) {e : StorageError}
    (hfailure : entry.medium.failure = some e) : '\x1b' ∉ e.message.toList
  user : '\x1b' ∉ shell.user.toList
  host : '\x1b' ∉ shell.host.toList
  cursor : '\x1b' ∉ w.cursor.toList
  node {path : String} {node : Node} (hget : w.store.get path = .ok (some node)) :
    ∀ text ∈ node.texts, '\x1b' ∉ text.toList
  complaint {path : String} {e : StorageError} (hget : w.store.get path = .error e) :
    '\x1b' ∉ e.message.toList

namespace Codeless

variable {shell : Shell} {cues : List Cue} {w : World} (hcodeless : Codeless shell cues w)
  {A : Accord}

include hcodeless

theorem trusts : A.Trusts w.silent where
  get path := by
    show A.Answers (.get path) (w.store.get path)
    rcases hget : w.store.get path with e | _ | node
    · exact Accord.allows_of_notMem (hcodeless.complaint hget)
    · trivial
    · have htexts : ∀ text ∈ node.texts, A.Allows text := fun text htext =>
        Accord.allows_of_notMem (hcodeless.node hget text htext)
      have hnode : A.AllowsNode node := by
        cases node <;> simpa [Accord.AllowsNode, Node.texts] using htexts
      exact hnode
  cursor := Accord.allows_of_notMem hcodeless.cursor

theorem allowsCue : ∀ cue ∈ cues, AllowsCue A cue := by
  intro cue hcue
  cases cue with
  | line entry =>
      exact ⟨Accord.allows_of_notMem (hcodeless.line hcue), fun e hfailure =>
        Accord.allows_of_notMem (hcodeless.failure hcue hfailure)⟩
  | prompt => trivial

end Codeless

/-- Colours are decoration only.  Whatever is stored, a script comes to the same with and without
them, step by step.  If nothing that it works on has the character that starts a colour code, then
at each step, too, the outputs without the codes are the ones of the shell without colours, and so
is the text that is shown. -/
theorem followAll_withColor (shell : Shell) (cues : List Cue) (w : World) :
    List.Forall₂ (fun reached reached' => reached.1 = reached'.1 ∧
        reached.2.store = reached'.2.store ∧ reached.2.cursor = reached'.2.cursor)
      ((shell.withColor true).followAll cues w.silent)
      ((shell.withColor false).followAll cues w.silent) ∧
    (Codeless shell cues w →
      List.Forall₂ (fun reached reached' =>
          reached.2.output.map Output.unpainted = reached'.2.output ∧
          Text.unpainted (textSinceClear reached.2.output) = textSinceClear reached'.2.output)
        ((shell.withColor true).followAll cues w.silent)
        ((shell.withColor false).followAll cues w.silent)) := by
  constructor
  · -- every character is allowed, and nothing is asked of the texts
    have hA := Accord.paints_painting (fun _ => True) fun _ _ => trivial
    refine (joins_followAll hA shell (fun _ _ => trivial) (fun _ _ => trivial)
      (fun cue _ => allowsCue_of_forall (fun _ => trivial) cue) ⟨rfl, .nil⟩
      (Accord.trusts_of_forall (fun _ => trivial) _)).imp ?_
    rintro reached reached' ⟨houtcome, hjoins⟩
    obtain ⟨hstore, hcursor, -⟩ := World.silent_eq_iff.mp hjoins.silent
    exact ⟨houtcome, hstore, hcursor⟩
  · intro hcodeless
    have hA := Accord.paints_painting (· ≠ '\x1b') fun _ hc => hc
    refine (joins_followAll hA shell (Accord.allows_of_notMem hcodeless.user)
      (Accord.allows_of_notMem hcodeless.host) hcodeless.allowsCue ⟨rfl, .nil⟩
      hcodeless.trusts).imp ?_
    rintro reached reached' ⟨-, hjoins⟩
    exact ⟨map_unpainted hjoins.output, (painted_textSinceClear hjoins.output).unpainted_eq⟩

/-- Prompts, and lines that succeed, fail, are refused or name no command. -/
def paintedScript : List Cue :=
  [.prompt, .line ⟨"mkdir docs", 1, .intact⟩,
    .line ⟨"touch f", 2, ⟨some (.system .simulatedWriteFailure), none⟩⟩, .line ⟨"ls", 3, .intact⟩,
    .line ⟨"sudo ls", 4, .intact⟩, .line ⟨"cat docs", 5, .intact⟩, .line ⟨"clear", 6, .intact⟩,
    .line ⟨"cd docs", 7, .intact⟩, .prompt]

theorem codeless_paintedScript : Codeless bareShell paintedScript bareWorld := by
  have hlines {entry : ScriptLine} (hentry : .line entry ∈ paintedScript) :
      '\x1b' ∉ entry.text.toList ∧
        ∀ e ∈ entry.medium.failure, '\x1b' ∉ e.message.toList := by
    simp only [paintedScript, List.mem_cons, List.not_mem_nil, Cue.line.injEq, reduceCtorEq,
      false_or, or_false] at hentry
    rcases hentry with rfl | rfl | rfl | rfl | rfl | rfl | rfl <;> decide
  refine ⟨fun hentry => (hlines hentry).1, fun hentry _ => (hlines hentry).2 _, by decide,
    by decide, by decide, fun {path node} hget => ?_, fun hget => by cases hget⟩
  have hfind : (MemoryStore.applyChange .empty
      (.put (.emptyDirectory Path.root Path.root))).find? path = some node := Except.ok.inj hget
  rw [MemoryStore.find?_put] at hfind
  split at hfind
  · obtain rfl := Option.some.inj hfind
    decide
  · cases hfind

theorem followAll_withColor_paintedScript :
    Codeless bareShell paintedScript bareWorld ∧
      (((bareShell.withColor true).followAll paintedScript bareWorld.silent).map
        fun reached => textSinceClear reached.2.output).getLast? =
          some ("\x1b[33mCurrent directory: ~/docs\x1b[39m\r\n" ++
            "\x1b[32muser@host\x1b[39m:\x1b[34m~/docs\x1b[39m$ ") ∧
      List.Forall₂ (fun reached reached' =>
          reached.2.output.map Output.unpainted = reached'.2.output ∧
          Text.unpainted (textSinceClear reached.2.output) = textSinceClear reached'.2.output)
        ((bareShell.withColor true).followAll paintedScript bareWorld.silent)
        ((bareShell.withColor false).followAll paintedScript bareWorld.silent) :=
  ⟨codeless_paintedScript, by decide +kernel,
    (followAll_withColor bareShell paintedScript bareWorld).2 codeless_paintedScript⟩

end Shell

end VirtualShell
