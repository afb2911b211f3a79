import VirtualShell.Proofs.Routine.Output
import VirtualShell.Proofs.Shell.Traceless

/-!
# Scripts without some of their lines

A script is a list of lines, each with the time at which it runs and the medium that the store is on
meanwhile, so that commits can fail in some lines and not in others.  Lines that did nothing, and
lines whose commands only read, can be taken out of a script together: the other lines come to the
same and put the same out, and the store and the cursor end up the same.
-/

namespace VirtualShell

/-- A line of a script, with the time at which it runs and the medium that the store is on. -/
structure ScriptLine where
  text : String
  now : Timestamp
  medium : Medium
  deriving DecidableEq, Repr

/-- The world at the time at which a line of a script runs. -/
def ScriptLine.start (entry : ScriptLine) (w : World) : World :=
  { w with now := entry.now }

/-- What a line of a script came to, and what it put out. -/
structure LineReport where
  outcome : Outcome
  output : List Output
  deriving DecidableEq, Repr

/-- The worlds have the same store and the same cursor. -/
structure World.SameState (w w' : World) : Prop where
  store : w.store = w'.store
  cursor : w.cursor = w'.cursor

theorem World.SameState.trans {w w' w'' : World} (hfirst : w.SameState w')
    (hsecond : w'.SameState w'') : w.SameState w'' :=
  ⟨hfirst.store.trans hsecond.store, hfirst.cursor.trans hsecond.cursor⟩

theorem World.SameState.symm {w w' : World} (hsame : w.SameState w') : w'.SameState w :=
  ⟨hsame.store.symm, hsame.cursor.symm⟩

/-- The members of a list whose positions are not erased. -/
def kept {α : Type} (erased : Nat → Prop) [DecidablePred erased] (xs : List α) : List α :=
  (xs.zipIdx.filter fun x => ¬ erased x.2).map (·.1)

section Kept

variable {α : Type} (erased : Nat → Prop) [DecidablePred erased] (x : α) (xs : List α)

@[simp]
theorem kept_nil : kept erased ([] : List α) = [] := rfl

theorem kept_cons :
    kept erased (x :: xs) =
      (if erased 0 then [] else [x]) ++ kept (fun position => erased (position + 1)) xs := by
  have hshift : xs.zipIdx 1 = xs.zipIdx.map fun y => (y.1, y.2 + 1) :=
    List.zipIdx_succ
  rw [kept, kept, List.zipIdx_cons, Nat.zero_add, hshift, List.filter_cons, List.filter_map]
  by_cases hzero : erased 0 <;> simp [hzero, Function.comp_def]

end Kept

namespace Shell

variable (shell : Shell)

/-- Runs a line of a script. -/
def runLine (entry : ScriptLine) (w : World) : LineReport × World :=
  let ended := ((shell.execute entry.text).upon entry.medium).run (entry.start w)
  (⟨ended.1, ended.2.outputSince (entry.start w)⟩, ended.2)

/-- Runs the lines of a script one after the other. -/
def runScript : List ScriptLine → World → List LineReport × World
  | [], w => ([], w)
  | entry :: script, w =>
    let (report, w) := shell.runLine entry w
    let (reports, w) := runScript script w
    (report :: reports, w)

/-- The line did nothing, or its command only reads. -/
def Idle (entry : ScriptLine) (report : LineReport) : Prop :=
  report.outcome ∈ [.empty, .failure, .unknownCommand, .storageFailure] ∨
    shell.readsOnly entry.text = true

instance (entry : ScriptLine) (report : LineReport) : Decidable (shell.Idle entry report) :=
  inferInstanceAs (Decidable (_ ∨ _))

section Line

variable {shell} (entry : ScriptLine) {w w' : World}

/-- What a line comes to depends on the store and the cursor only. -/
theorem runLine_congr (hsame : w.SameState w') :
    (shell.runLine entry w).1 = (shell.runLine entry w').1 ∧
      (shell.runLine entry w).2.SameState (shell.runLine entry w').2 := by
  have hsilent : (entry.start w).silent = (entry.start w').silent :=
    World.silent_eq_iff.mpr ⟨hsame.store, hsame.cursor, rfl⟩
  obtain ⟨houtcome, houtput, hworld⟩ :=
    ((shell.execute entry.text).upon entry.medium).run_congr hsilent
  obtain ⟨hstore, hcursor, -⟩ := World.silent_eq_iff.mp hworld
  refine ⟨?_, hstore, hcursor⟩
  rw [runLine, runLine, houtcome, houtput]

/-- An idle line leaves the store and the cursor as they were. -/
theorem runLine_idle (hidle : shell.Idle entry (shell.runLine entry w).1) :
    (shell.runLine entry w).2.SameState w := by
  have hrun := (shell.execute entry.text).run_upon_scene entry.medium (entry.start w)
  obtain ⟨houtcome, hscene⟩ := Prod.mk.inj hrun
  have hunchanged : ((shell.execute entry.text).play ((entry.start w).scene entry.medium)).2 =
      (entry.start w).scene entry.medium := by
    refine shell.scene_execute (hidle.imp_left fun hmem => ?_)
    rw [← houtcome]
    intro hsuccess
    simp [runLine, hsuccess] at hmem
  rw [hunchanged] at hscene
  exact ⟨congrArg Scene.store hscene, congrArg Scene.cursor hscene⟩

end Line

theorem runScript_cons (entry : ScriptLine) (script : List ScriptLine) (w : World) :
    shell.runScript (entry :: script) w =
      ((shell.runLine entry w).1 :: (shell.runScript script (shell.runLine entry w).2).1,
        (shell.runScript script (shell.runLine entry w).2).2) := rfl

variable {shell}

/-- Idle lines are missed by nobody: in a run without them every other line finds the store and the
cursor as it does in the full run. -/
theorem runScript_kept_of_sameState {script : List ScriptLine} {erased : Nat → Prop}
    [DecidablePred erased] {w w' : World} (hsame : w'.SameState w)
    (hidle : ∀ position, erased position → ∀ entry ∈ script[position]?,
      ∀ report ∈ (shell.runScript script w).1[position]?, shell.Idle entry report) :
    (shell.runScript (kept erased script) w').1 = kept erased (shell.runScript script w).1 ∧
      (shell.runScript (kept erased script) w').2.SameState (shell.runScript script w).2 := by
  induction script generalizing erased w w' with
  | nil => exact ⟨rfl, hsame⟩
  | cons entry script ih =>
      have hlater := fun position => hidle (position + 1)
      simp only [runScript_cons, kept_cons]
      by_cases hzero : erased 0
      · -- an erased line leaves the full run where the other one stands
        have hfirst : shell.Idle entry (shell.runLine entry w).1 := hidle 0 hzero entry rfl _ rfl
        rw [if_pos hzero, if_pos hzero]
        exact ih (hsame.trans (runLine_idle entry hfirst).symm) hlater
      · obtain ⟨hreport, hnext⟩ : (shell.runLine entry w').1 = (shell.runLine entry w).1 ∧
            (shell.runLine entry w').2.SameState (shell.runLine entry w).2 :=
          runLine_congr entry hsame
        obtain ⟨hreports, hlast⟩ := ih hnext hlater
        rw [if_neg hzero, if_neg hzero, List.singleton_append, List.singleton_append,
          runScript_cons, hreport, hreports]
        exact ⟨rfl, hlast⟩

/-! ### The commands that only read -/

/-- The names of the built-in commands that only read. -/
def readingNames : List String :=
  ["ls", "dir", "pwd", "cat", "echo", "help", "neofetch", "df", "clear"]

theorem readsOnly_of_mem_readingNames (hregistry : shell.registry = Registry.builtins)
    {line : String} {invocation : Invocation} (hline : Line.parse line = some invocation)
    (hname : invocation.name ∈ readingNames) : shell.readsOnly line = true := by
  have hall : ∀ name ∈ readingNames,
      (Registry.builtins.find? name).any Command.readsOnly = true := by decide +kernel
  rw [readsOnly, hline, hregistry]
  exact hall invocation.name hname

/-- Lines that came to nothing, and lines whose commands only read, can be taken out of a script.
The outcomes of the other lines and all that they put out stay the same, and so do the store and the
cursor at the end.  Among the built-in commands nine names are those of commands that only read. -/
theorem runScript_kept (script : List ScriptLine) (erased : Nat → Prop) [DecidablePred erased]
    (w : World)
    (hidle : ∀ position, erased position → ∀ entry ∈ script[position]?,
      ∀ report ∈ (shell.runScript script w).1[position]?, shell.Idle entry report) :
    (shell.runScript (kept erased script) w).1 = kept erased (shell.runScript script w).1 ∧
      (shell.runScript (kept erased script) w).2.store = (shell.runScript script w).2.store ∧
      (shell.runScript (kept erased script) w).2.cursor = (shell.runScript script w).2.cursor ∧
      (shell.registry = Registry.builtins → ∀ line invocation, Line.parse line = some invocation →
        invocation.name ∈ readingNames → shell.readsOnly line = true) := by
  obtain ⟨hreports, hlast⟩ := runScript_kept_of_sameState ⟨rfl, rfl⟩ hidle
  exact ⟨hreports, hlast.store, hlast.cursor, fun hregistry line invocation hline hname =>
    readsOnly_of_mem_readingNames hregistry hline hname⟩

/-- A shell with the built-in commands and without colours. -/
def bareShell : Shell :=
  ⟨.builtins, ⟨false⟩, ⟨230, false⟩, "user", "host"⟩

/-- A store with a root directory only. -/
def bareWorld : World :=
  ⟨.memory ⟨SortedMap.empty.insert Path.root (.emptyDirectory Path.root Path.root), false⟩,
    Path.root, 0, []⟩

/-- Some lines come to something and others do not. The third one fails because of its medium, the
sixth one because of the quota. -/
def mixedScript : List ScriptLine :=
  [⟨"mkdir a", 1, .intact⟩, ⟨"cd a", 2, .intact⟩,
    ⟨"touch f", 3, ⟨some (.system (.other "disk full")), none⟩⟩, ⟨" ", 4, .intact⟩,
    ⟨"touch f", 5, .intact⟩, ⟨"mkdir b", 6, .intact⟩, ⟨"rm g", 7, .intact⟩, ⟨"dir", 8, .intact⟩,
    ⟨"sudo rm f", 9, .intact⟩, ⟨"cat f", 10, .intact⟩, ⟨"df", 11, .intact⟩]

/-- Without its idle lines, all of which fail or list something, the script comes to the same. -/
theorem runScript_kept_mixedScript :
    (∀ position, position ∈ [2, 3, 5, 6, 7, 8] → ∀ entry ∈ mixedScript[position]?,
      ∀ report ∈ (bareShell.runScript mixedScript bareWorld).1[position]?,
        bareShell.Idle entry report) ∧
      (kept (· ∈ [2, 3, 5, 6, 7, 8]) mixedScript).map ScriptLine.text =
        ["mkdir a", "cd a", "touch f", "cat f", "df"] ∧
      (bareShell.runScript (kept (· ∈ [2, 3, 5, 6, 7, 8]) mixedScript) bareWorld).1 =
        kept (· ∈ [2, 3, 5, 6, 7, 8]) (bareShell.runScript mixedScript bareWorld).1 := by
  have hidle : ∀ position, position ∈ [2, 3, 5, 6, 7, 8] → ∀ entry ∈ mixedScript[position]?,
      ∀ report ∈ (bareShell.runScript mixedScript bareWorld).1[position]?,
        bareShell.Idle entry report := by decide +kernel
  exact ⟨hidle, by decide +kernel,
    (runScript_kept mixedScript (· ∈ [2, 3, 5, 6, 7, 8]) bareWorld hidle).1⟩

end Shell
end VirtualShell
