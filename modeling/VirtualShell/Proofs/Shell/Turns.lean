import VirtualShell.Proofs.Shell.Workshop

/-!
# What the step of a line does

A line that can take a step does some of what is left, and what it puts out goes behind what was put
out before.  Every other line changes nothing.
-/

namespace VirtualShell
namespace Workshop

/-- What the step of a line puts out. -/
def emitted (shell : Shell) (s : Workshop) (number : Nat) : List (Nat × Output) :=
  ((s.resume shell number).gate.value.outputSince s.gate.value).map fun output => (number, output)

section Emitted

variable {shell : Shell} {s : Workshop} {number : Nat}

theorem emitted_eq_nil (hvalue : (s.resume shell number).gate.value = s.gate.value) :
    s.emitted shell number = [] := by
  rw [emitted, hvalue, World.outputSince, List.drop_length, List.map_nil]

/-- A line that changes nothing puts nothing out. -/
theorem emitted_of_resume_eq (hresume : s.resume shell number = s) :
    s.emitted shell number = [] :=
  emitted_eq_nil (by rw [hresume])

end Emitted

variable (shell : Shell) (w : World) (lines : List String)

/-- The step of a line leaves less to do. -/
def Advances (s : Workshop) (started : Nat) (record : List (Nat × Output)) (left number : Nat) :
    Prop :=
  ∃ started' left',
    Arranged shell w lines (s.resume shell number) started' (record ++ s.emitted shell number)
      left' ∧
    started ≤ started' ∧ number < started' ∧ left' < left

variable {shell w lines} {started left number : Nat} {record : List (Nat × Output)}

/-- A step within the gate, which leaves the world as it is. -/
theorem Advances.of_resume {s s' : Workshop} {started' left' : Nat}
    (hresume : s.resume shell number = s') (hvalue : s'.gate.value = s.gate.value)
    (harranged : Arranged shell w lines s' started' record left') (hstarted : started ≤ started')
    (hnumber : number < started') (hleft : left' < left) :
    Advances shell w lines s started record left number := by
  have hemitted : s.emitted shell number = [] := emitted_eq_nil (by rw [hresume, hvalue])
  refine ⟨started', left', ?_, hstarted, hnumber, hleft⟩
  rw [hresume, hemitted, List.append_nil]
  exact harranged

/-- A line that just came in has put nothing out. -/
theorem Arranged.entered {done : List String} {line : String} {pending rest : List String}
    {invocation : Invocation} (hline : Line.parse line = some invocation)
    (hlines : lines = done ++ line :: (pending ++ rest)) :
    Arranged shell w lines
      (during shell w done (shell.perform invocation) (shell.executeAll done w).2 pending rest)
      (done.length + (pending.length + 1)) (shell.transcript 0 done w)
      (rest.length + ((shell.execute line).effort (shell.executeAll done w).2 + 1 +
        shell.work (pending ++ rest)
          ((shell.execute line).run (shell.executeAll done w).2).2)) := by
  have hinside : Arranged shell w lines _ _ _ _ := .inside done line (shell.execute line)
    (shell.executeAll done w).2 pending rest invocation hline rfl List.prefix_rfl hlines
  rw [World.outputSince, List.drop_length, List.map_nil, List.append_nil,
    Shell.execute_of_parse hline] at hinside
  rw [Shell.execute_of_parse hline]
  exact hinside

/-! ### One way to stand after the other -/

section Cases

variable {done : List String} {line : String} {pending rest : List String}

theorem advances_idle (hlines : lines = done ++ line :: rest) :
    Advances shell w lines (between shell w done [] (line :: rest)) done.length
      (shell.transcript 0 done w)
      ((line :: rest).length + shell.work (line :: rest) (shell.executeAll done w).2)
      done.length := by
  cases hline : Line.parse line with
  | none =>
      have harranged : Arranged shell w lines _ _ _ _ := .of_between done [line] rest hlines
      refine .of_resume (resume_idle_blank done rest hline) rfl harranged ?_ ?_ ?_
      · omega
      · simp
      · simp
  | some invocation =>
      refine .of_resume (resume_idle done rest hline) rfl (Arranged.entered hline hlines) ?_ ?_ ?_
      · simp
      · simp
      · rw [Shell.work_of_parse _ _ hline]
        simp only [List.length_cons, List.nil_append]
        omega

theorem advances_granted {invocation : Invocation} (hline : Line.parse line = some invocation)
    (hlines : lines = done ++ line :: (pending ++ rest)) :
    Advances shell w lines (between shell w done (line :: pending) rest)
      (done.length + (pending.length + 1)) (shell.transcript 0 done w)
      (rest.length + shell.work (line :: (pending ++ rest)) (shell.executeAll done w).2)
      done.length := by
  refine .of_resume (resume_granted done pending rest hline) rfl (Arranged.entered hline hlines)
    ?_ ?_ ?_
  · omega
  · omega
  · rw [Shell.work_of_parse _ _ hline]
    omega

theorem advances_granted_start {invocation : Invocation} {next : String}
    (hline : Line.parse line = some invocation)
    (hlines : lines = done ++ line :: (pending ++ next :: rest)) :
    Advances shell w lines (between shell w done (line :: pending) (next :: rest))
      (done.length + (pending.length + 1)) (shell.transcript 0 done w)
      ((next :: rest).length +
        shell.work (line :: (pending ++ next :: rest)) (shell.executeAll done w).2)
      (done.length + (pending.length + 1)) := by
  have harranged : Arranged shell w lines _ _ _ _ := .granted done line (pending ++ [next]) rest
    invocation hline (by simpa using hlines)
  rw [List.append_assoc, List.singleton_append] at harranged
  refine .of_resume (resume_granted_start done pending rest hline next) rfl harranged ?_ ?_ ?_
  · simp
  · simp
  · simp

variable {routine : Routine Outcome} {world : World} {invocation : Invocation}

theorem advances_inside_start {next : String} (hline : Line.parse line = some invocation)
    (hrun : routine.run world = (shell.execute line).run (shell.executeAll done w).2)
    (houtput : (shell.executeAll done w).2.output <+: world.output)
    (hlines : lines = done ++ line :: (pending ++ next :: rest)) :
    Advances shell w lines (during shell w done routine world pending (next :: rest))
      (done.length + (pending.length + 1))
      (shell.transcript 0 done w ++
        (world.outputSince (shell.executeAll done w).2).map fun output => (done.length, output))
      ((next :: rest).length + (routine.effort world + 1 +
        shell.work (pending ++ next :: rest) (routine.run world).2))
      (done.length + (pending.length + 1)) := by
  have harranged : Arranged shell w lines _ _ _ _ := .inside done line routine world
    (pending ++ [next]) rest invocation hline hrun houtput (by simpa using hlines)
  rw [List.append_assoc, List.singleton_append] at harranged
  refine .of_resume (resume_inside_start done pending rest routine world next) rfl harranged
    ?_ ?_ ?_
  · simp
  · simp
  · simp

/-- The line inside makes a call. -/
theorem advances_inside (hdone : routine.isDone = false) (hline : Line.parse line = some invocation)
    (hrun : routine.run world = (shell.execute line).run (shell.executeAll done w).2)
    (houtput : (shell.executeAll done w).2.output <+: world.output)
    (hlines : lines = done ++ line :: (pending ++ rest)) :
    Advances shell w lines (during shell w done routine world pending rest)
      (done.length + (pending.length + 1))
      (shell.transcript 0 done w ++
        (world.outputSince (shell.executeAll done w).2).map fun output => (done.length, output))
      (rest.length + (routine.effort world + 1 +
        shell.work (pending ++ rest) (routine.run world).2))
      done.length := by
  have hresume : (during shell w done routine world pending rest).resume shell done.length =
      during shell w done (routine.step world).1 (routine.step world).2 pending rest :=
    resume_inside done pending rest hdone world
  have hstep : world.output <+: (routine.step world).2.output :=
    Routine.prefix_output_step routine world
  have harranged : Arranged shell w lines _ _ _ _ := .inside done line (routine.step world).1
    (routine.step world).2 pending rest invocation hline (by rw [Routine.run_step, hrun])
    (houtput.trans hstep) hlines
  have heffort := Routine.effort_step hdone world
  have hemitted : (during shell w done routine world pending rest).emitted shell done.length =
      ((routine.step world).2.outputSince world).map fun output => (done.length, output) := by
    rw [emitted, hresume]
    rfl
  -- what the line has put out by now is what it had put out before and what the step adds
  have hsince : (routine.step world).2.outputSince (shell.executeAll done w).2 =
      world.outputSince (shell.executeAll done w).2 ++ (routine.step world).2.outputSince world :=
    World.outputSince_trans houtput hstep
  rw [Routine.run_step, hsince, List.map_append, ← List.append_assoc, ← hemitted,
    ← hresume] at harranged
  refine ⟨_, _, harranged, Nat.le_refl _, ?_, ?_⟩
  · omega
  · omega

/-- The line inside leaves. -/
theorem advances_leave {outcome : Outcome}
    (hrun : (shell.execute line).run (shell.executeAll done w).2 = (outcome, world))
    (hlines : lines = done ++ line :: (pending ++ rest)) :
    Advances shell w lines (during shell w done (.done outcome) world pending rest)
      (done.length + (pending.length + 1))
      (shell.transcript 0 done w ++
        (world.outputSince (shell.executeAll done w).2).map fun output => (done.length, output))
      (rest.length + ((Routine.done outcome).effort world + 1 +
        shell.work (pending ++ rest) ((Routine.done outcome).run world).2))
      done.length := by
  have hworld : (shell.executeAll (done ++ [line]) w).2 = world := by
    rw [Shell.executeAll_concat, hrun]
  have harranged : Arranged shell w lines _ _ _ _ := .of_between (done ++ [line]) pending rest
    (by simpa using hlines)
  rw [hworld, Shell.transcript_concat, hrun] at harranged
  refine .of_resume (resume_leave done pending rest hrun) ?_ harranged ?_ ?_ ?_
  · exact hworld
  · simp only [List.length_append, List.length_cons, List.length_nil]
    omega
  · simp only [List.length_append, List.length_cons, List.length_nil]
    omega
  · have hrest : ((Routine.done outcome).run world).2 = world := rfl
    rw [hrest]
    omega

/-- The line inside makes its next call, or leaves if there is none. -/
theorem advances_during (hline : Line.parse line = some invocation)
    (hrun : routine.run world = (shell.execute line).run (shell.executeAll done w).2)
    (houtput : (shell.executeAll done w).2.output <+: world.output)
    (hlines : lines = done ++ line :: (pending ++ rest)) :
    Advances shell w lines (during shell w done routine world pending rest)
      (done.length + (pending.length + 1))
      (shell.transcript 0 done w ++
        (world.outputSince (shell.executeAll done w).2).map fun output => (done.length, output))
      (rest.length + (routine.effort world + 1 +
        shell.work (pending ++ rest) (routine.run world).2))
      done.length := by
  cases hdone : routine.isDone with
  | false => exact advances_inside hdone hline hrun houtput hlines
  | true =>
      obtain ⟨outcome, rfl⟩ := Routine.exists_of_isDone hdone
      exact advances_leave hrun.symm hlines

end Cases

/-- While some lines were not started, there is a next one. -/
theorem exists_next {before rest : List String} (hlines : lines = before ++ rest)
    (hbefore : before.length < lines.length) : ∃ next later, rest = next :: later := by
  refine List.exists_cons_of_ne_nil ?_
  rintro rfl
  rw [hlines, List.append_nil] at hbefore
  exact Nat.lt_irrefl _ hbefore

section Turn

variable {s : Workshop}

/-- The step of a line that was started, or is the next to start, leaves less to do or changes
nothing. -/
theorem Arranged.turn (harranged : Arranged shell w lines s started record left)
    (hnumber : number ≤ started) (hline : number < lines.length) :
    (s.resume shell number = s ∧ number < started) ∨
      Advances shell w lines s started record left number := by
  cases harranged with
  | idle done rest hlines =>
      by_cases hnext : number = done.length
      · subst hnext
        obtain ⟨next, rest, rfl⟩ := exists_next hlines hline
        exact .inr (advances_idle hlines)
      · refine .inl ⟨resume_stuck [] [] rfl ?_ ?_ rfl, by omega⟩
        · simp only [List.length_nil]
          omega
        · omega
  | granted done line pending rest invocation hparse hlines =>
      by_cases hfirst : number = done.length
      · subst hfirst
        exact .inr (advances_granted hparse hlines)
      by_cases hnext : number = done.length + (pending.length + 1)
      · subst hnext
        have hbefore : lines = (done ++ line :: pending) ++ rest := by simp [hlines]
        obtain ⟨next, rest, rfl⟩ := exists_next hbefore (by simpa using hline)
        exact .inr (advances_granted_start hparse hlines)
      · have hadmits :
            (between shell w done (line :: pending) rest).gate.admits number = false := by
          rw [between, numbers_of_parse _ _ hparse]
          exact Gate.admits_ofLine_of_ne _ _ _ hfirst
        refine .inl ⟨resume_stuck [.queued line] pending rfl ?_ ?_ hadmits, by omega⟩
        · simp only [List.length_cons, List.length_nil]
          omega
        · simp only [List.length_cons, List.length_nil]
          omega
  | inside done line routine world pending rest invocation hparse hrun houtput hlines =>
      by_cases hfirst : number = done.length
      · subst hfirst
        exact .inr (advances_during hparse hrun houtput hlines)
      by_cases hnext : number = done.length + (pending.length + 1)
      · subst hnext
        have hbefore : lines = (done ++ line :: pending) ++ rest := by simp [hlines]
        obtain ⟨next, rest, rfl⟩ := exists_next hbefore (by simpa using hline)
        exact .inr (advances_inside_start hparse hrun houtput hlines)
      · have hadmits :
            (during shell w done routine world pending rest).gate.admits number = false :=
          Gate.admits_ofLine_of_ne _ _ _ hfirst
        refine .inl ⟨resume_stuck [.running routine] pending rfl ?_ ?_ hadmits, by omega⟩
        · simp only [List.length_cons, List.length_nil]
          omega
        · simp only [List.length_cons, List.length_nil]
          omega

/-- Until all lines are over, there is one that can take a step. -/
theorem Arranged.over_or_advances (harranged : Arranged shell w lines s started record left) :
    s = between shell w lines [] [] ∨
      ∃ number < lines.length, Advances shell w lines s started record left number := by
  cases harranged with
  | idle done rest hlines =>
      cases rest with
      | nil =>
          rw [List.append_nil] at hlines
          exact .inl (by rw [hlines])
      | cons next rest =>
          refine .inr ⟨done.length, ?_, advances_idle hlines⟩
          simp [hlines]
  | granted done line pending rest invocation hparse hlines =>
      refine .inr ⟨done.length, ?_, advances_granted hparse hlines⟩
      simp [hlines]
  | inside done line routine world pending rest invocation hparse hrun houtput hlines =>
      refine .inr ⟨done.length, ?_, advances_during hparse hrun houtput hlines⟩
      simp [hlines]

end Turn

end Workshop
end VirtualShell
