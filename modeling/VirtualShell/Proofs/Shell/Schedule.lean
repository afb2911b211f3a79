import VirtualShell.Proofs.Shell.Turns

/-!
# Any schedule comes to one line after the other

A schedule says which line takes the next step, for ever.  If it starts the lines in their order,
then whatever it does besides, every line that is over has the outcome it would have had if the
lines had been run one after the other, what was put out is the beginning of what they would have
put out, and when all lines are over the world is the one they would have left.  If it forgets no
line for good, all lines will be over.
-/

namespace VirtualShell
namespace Workshop

/-! ### What an arrangement tells -/

section Arrangement

variable {shell : Shell} {w : World} {lines : List String} {s : Workshop} {started left : Nat}
  {record : List (Nat × Output)}

/-- Every line is over. -/
def IsOver (s : Workshop) : Prop :=
  ∀ job ∈ s.jobs, ∃ outcome, job = Job.finished outcome

/-- What can be seen of a line that comes to an outcome. -/
inductive Befits (line : String) (outcome : Outcome) : Job → Prop
  | finished : Befits line outcome (.finished outcome)
  | queued : Befits line outcome (.queued line)
  | unstarted : Befits line outcome (.unstarted line)
  | running (routine : Routine Outcome) {invocation : Invocation}
      (hline : Line.parse line = some invocation) : Befits line outcome (.running routine)

theorem befits_remaining (pending : List String) {rest : List String} {number : Nat} {line : String}
    (hline : (pending ++ rest)[number]? = some line) (outcome : Outcome) :
    ∃ job, (remaining pending rest)[number]? = some job ∧ Befits line outcome job := by
  by_cases hpending : number < pending.length
  · rw [List.getElem?_append_left hpending] at hline
    refine ⟨.queued line, ?_, .queued⟩
    rw [remaining, List.getElem?_append_left (by simpa using hpending), List.getElem?_map, hline]
    rfl
  · rw [List.getElem?_append_right (by omega)] at hline
    refine ⟨.unstarted line, ?_, .unstarted⟩
    rw [remaining, List.getElem?_append_right (by rw [List.length_map]; omega), List.length_map,
      List.getElem?_map, hline]
    rfl

theorem befits_settled {done : List String} {number : Nat} (hnumber : number < done.length)
    {later : List String} {outcome : Outcome}
    (houtcome : (shell.executeAll (done ++ later) w).1[number]? = some outcome)
    (line : String) (jobs : List Job) :
    ∃ job, (settled shell w done ++ jobs)[number]? = some job ∧ Befits line outcome job := by
  have hlength : number < (shell.executeAll done w).1.length := by simpa using hnumber
  rw [Shell.executeAll_append, List.getElem?_append_left hlength] at houtcome
  refine ⟨.finished outcome, ?_, .finished⟩
  rw [List.getElem?_append_left (by simpa using hnumber), settled, List.getElem?_map, houtcome]
  rfl

/-- Every line has a job that befits it. -/
theorem Arranged.befits (harranged : Arranged shell w lines s started record left) {number : Nat}
    {line : String} (hline : lines[number]? = some line) {outcome : Outcome}
    (houtcome : (shell.executeAll lines w).1[number]? = some outcome) :
    ∃ job, s.jobs[number]? = some job ∧ Befits line outcome job := by
  have hbehind {done : List String} {later : List Job} (hnumber : done.length ≤ number) :
      (settled shell w done ++ later)[number]? = later[number - done.length]? := by
    rw [List.getElem?_append_right (by simpa using hnumber), length_settled]
  cases harranged with
  | idle done rest hlines =>
      subst hlines
      by_cases hnumber : number < done.length
      · exact befits_settled hnumber houtcome line _
      · rw [List.getElem?_append_right (by omega)] at hline
        rw [between, hbehind (by omega)]
        exact befits_remaining [] hline outcome
  | granted done first pending rest invocation hparse hlines =>
      subst hlines
      by_cases hnumber : number < done.length
      · exact befits_settled hnumber houtcome line _
      · rw [List.getElem?_append_right (by omega)] at hline
        rw [between, hbehind (by omega)]
        exact befits_remaining (first :: pending) hline outcome
  | inside done first routine world pending rest invocation hparse hrun houtput hlines =>
      subst hlines
      by_cases hnumber : number < done.length
      · exact befits_settled hnumber houtcome line _
      · rw [List.getElem?_append_right (by omega)] at hline
        rw [during, hbehind (by omega)]
        cases hplace : number - done.length with
        | zero =>
            rw [hplace, List.getElem?_cons_zero, Option.some.injEq] at hline
            exact ⟨_, rfl, .running routine (hline ▸ hparse)⟩
        | succ place =>
            rw [hplace, List.getElem?_cons_succ] at hline
            exact befits_remaining pending hline outcome

/-- A line that is over has the outcome that it comes to. -/
theorem Arranged.outcome (harranged : Arranged shell w lines s started record left) {number : Nat}
    {line : String} (hline : lines[number]? = some line) {outcome : Outcome}
    (hjob : s.jobs[number]? = some (.finished outcome)) :
    (shell.executeAll lines w).1[number]? = some outcome := by
  have hlength : number < (shell.executeAll lines w).1.length := by
    rw [Shell.length_executeAll]
    exact (List.getElem?_eq_some_iff.mp hline).1
  have hcomes := List.getElem?_eq_getElem hlength
  obtain ⟨job, hsame, hbefits⟩ := harranged.befits hline hcomes
  obtain rfl : job = .finished outcome := Option.some.inj (hsame.symm.trans hjob)
  generalize hqueued : Job.finished outcome = job at hbefits
  cases hbefits with
  | finished =>
      cases hqueued
      exact hcomes
  | queued =>
      cases hparse : Line.parse line with
      | none =>
          rw [Job.queued_blank hparse] at hqueued
          cases hqueued
          exact Shell.getElem?_executeAll_blank lines w hline hparse
      | some invocation =>
          rw [Job.queued_of_parse hparse] at hqueued
          cases hqueued
  | unstarted => cases hqueued
  | running routine hparse => cases hqueued

/-- The step of a blank line ends it, and does nothing else. -/
theorem Arranged.resume_blank (harranged : Arranged shell w lines s started record left)
    {number : Nat} {line : String} (hline : lines[number]? = some line)
    (hblank : Line.parse line = none) :
    (s.resume shell number).jobs[number]? = some (.finished .empty) ∧
      (s.resume shell number).gate = s.gate := by
  have houtcome : (shell.executeAll lines w).1[number]? = some .empty :=
    Shell.getElem?_executeAll_blank lines w hline hblank
  obtain ⟨job, hjob, hbefits⟩ := harranged.befits hline houtcome
  have hends : resumeJob shell s.gate number job = (s.gate, .finished .empty) := by
    cases hbefits with
    | finished => rfl
    | queued =>
        rw [Job.queued_blank hblank]
        rfl
    | unstarted => exact resumeJob_unstarted_blank hblank
    | running routine hparse =>
        rw [hblank] at hparse
        cases hparse
  have hlength := (List.getElem?_eq_some_iff.mp hjob).1
  rw [resume, hjob]
  dsimp only
  rw [Workshop.record, hends]
  exact ⟨List.getElem?_set_self hlength, rfl⟩

theorem Arranged.length_jobs (harranged : Arranged shell w lines s started record left) :
    s.jobs.length = lines.length := by
  cases harranged with
  | idle done rest hlines => simp [between, remaining, hlines]
  | granted done line pending rest invocation hparse hlines => simp [between, remaining, hlines]
  | inside done line routine world pending rest invocation hparse hrun houtput hlines =>
      simp [during, remaining, hlines]

/-- What is recorded was put out. -/
theorem Arranged.output (harranged : Arranged shell w lines s started record left) :
    s.gate.value.output = w.output ++ record.map (·.2) := by
  cases harranged with
  | idle done rest hlines => exact Shell.output_executeAll done w 0
  | granted done line pending rest invocation hparse hlines =>
      exact Shell.output_executeAll done w 0
  | inside done line routine world pending rest invocation hparse hrun houtput hlines =>
      have hworld : world.output = (shell.executeAll done w).2.output ++
          world.outputSince (shell.executeAll done w).2 := World.output_eq houtput
      rw [List.map_append, ← List.append_assoc, ← Shell.output_executeAll done w 0, List.map_map]
      simpa [during, Function.comp_def] using hworld

/-- What is recorded is a beginning of what the lines put out one after the other. -/
theorem Arranged.inTurn (harranged : Arranged shell w lines s started record left) :
    record <+: shell.transcript 0 lines w := by
  cases harranged with
  | idle done rest hlines =>
      rw [hlines, Shell.transcript_append]
      exact List.prefix_append _ _
  | granted done line pending rest invocation hparse hlines =>
      rw [hlines, Shell.transcript_append]
      exact List.prefix_append _ _
  | inside done line routine world pending rest invocation hparse hrun houtput hlines =>
      have hlater : world.output <+:
          ((shell.execute line).run (shell.executeAll done w).2).2.output := by
        rw [← hrun]
        exact Routine.prefix_output_run routine world
      rw [hlines, Shell.transcript_append, Nat.zero_add, List.prefix_append_right_inj,
        Shell.transcript, World.outputSince_trans houtput hlater, List.map_append,
        List.append_assoc]
      exact List.prefix_append _ _

/-- If every line is over, the lines were run one after the other. -/
theorem Arranged.of_isOver (harranged : Arranged shell w lines s started record left)
    (hover : s.IsOver) :
    s = between shell w lines [] [] ∧ record = shell.transcript 0 lines w := by
  cases harranged with
  | idle done rest hlines =>
      cases rest with
      | nil =>
          rw [List.append_nil] at hlines
          subst hlines
          exact ⟨rfl, rfl⟩
      | cons next rest =>
          have hmem : Job.unstarted next ∈ (between shell w done [] (next :: rest)).jobs := by
            simp [between, remaining]
          obtain ⟨outcome, houtcome⟩ := hover _ hmem
          cases houtcome
  | granted done line pending rest invocation hparse hlines =>
      have hmem : Job.waiting invocation ∈ (between shell w done (line :: pending) rest).jobs := by
        simp [between, remaining, Job.queued_of_parse hparse]
      obtain ⟨outcome, houtcome⟩ := hover _ hmem
      cases houtcome
  | inside done line routine world pending rest invocation hparse hrun houtput hlines =>
      have hmem : Job.running routine ∈ (during shell w done routine world pending rest).jobs := by
        simp [during]
      obtain ⟨outcome, houtcome⟩ := hover _ hmem
      cases houtcome

end Arrangement

/-! ### Schedules -/

/-- The workshop after some steps of a schedule. -/
def after (shell : Shell) (w : World) (lines : List String) (schedule : Nat → Nat)
    (count : Nat) : Workshop :=
  (ofLines w lines).follow shell ((List.range count).map schedule)

/-- What was put out by the first steps of a schedule, and by which lines. -/
def trace (shell : Shell) (w : World) (lines : List String) (schedule : Nat → Nat)
    (count : Nat) : List (Nat × Output) :=
  (List.range count).flatMap fun step =>
    (after shell w lines schedule step).emitted shell (schedule step)

/-- No line takes its first step before all earlier lines took theirs. -/
def StartsInOrder (schedule : Nat → Nat) : Prop :=
  ∀ count, ∀ earlier < schedule count, ∃ before < count, schedule before = earlier

/-- Every line gets a step again and again. -/
def Fair (schedule : Nat → Nat) (size : Nat) : Prop :=
  ∀ number < size, ∀ count, ∃ later ≥ count, schedule later = number

section Schedule

variable {shell : Shell} {w : World} {lines : List String} {schedule : Nat → Nat}

theorem after_succ (count : Nat) :
    after shell w lines schedule (count + 1) =
      (after shell w lines schedule count).resume shell (schedule count) := by
  rw [after, List.range_succ, List.map_append, follow, List.foldl_append]
  rfl

theorem trace_succ (count : Nat) :
    trace shell w lines schedule (count + 1) =
      trace shell w lines schedule count ++
        (after shell w lines schedule count).emitted shell (schedule count) := by
  rw [trace, List.range_succ, List.flatMap_append]
  simp [trace]

/-- After some steps the workshop is arranged, and whoever took a step was started. -/
def Reaches (shell : Shell) (w : World) (lines : List String) (schedule : Nat → Nat)
    (count started left : Nat) : Prop :=
  Arranged shell w lines (after shell w lines schedule count) started
    (trace shell w lines schedule count) left ∧
  ∀ before < count, schedule before < lines.length → schedule before < started

theorem reaches_zero (shell : Shell) (w : World) (lines : List String) (schedule : Nat → Nat) :
    Reaches shell w lines schedule 0 0 (lines.length + shell.work lines w) :=
  ⟨.idle [] lines rfl, fun before hbefore => absurd hbefore (Nat.not_lt_zero before)⟩

section Step

variable {count started left : Nat} (hreaches : Reaches shell w lines schedule count started left)
include hreaches

theorem Reaches.advance
    (hadvances : Advances shell w lines (after shell w lines schedule count) started
      (trace shell w lines schedule count) left (schedule count)) :
    ∃ started' left', Reaches shell w lines schedule (count + 1) started' left' ∧ left' < left := by
  obtain ⟨started', left', harranged, hstarted, hnumber, hleft⟩ := hadvances
  rw [← after_succ, ← trace_succ] at harranged
  refine ⟨started', left', ⟨harranged, ?_⟩, hleft⟩
  intro before hbefore hline
  rcases Nat.lt_succ_iff_lt_or_eq.mp hbefore with hbefore | rfl
  · have hearlier := hreaches.2 before hbefore hline
    omega
  · exact hnumber

/-- A step leaves less to do or changes nothing. -/
theorem Reaches.step (horder : StartsInOrder schedule) :
    (Reaches shell w lines schedule (count + 1) started left ∧
        after shell w lines schedule (count + 1) = after shell w lines schedule count ∧
        trace shell w lines schedule (count + 1) = trace shell w lines schedule count) ∨
      ∃ started' left', Reaches shell w lines schedule (count + 1) started' left' ∧
        left' < left := by
  have hstay (hresume : (after shell w lines schedule count).resume shell (schedule count) =
        after shell w lines schedule count)
      (hstarted : schedule count < lines.length → schedule count < started) :
      Reaches shell w lines schedule (count + 1) started left ∧
        after shell w lines schedule (count + 1) = after shell w lines schedule count ∧
        trace shell w lines schedule (count + 1) = trace shell w lines schedule count := by
    have hafter : after shell w lines schedule (count + 1) = after shell w lines schedule count :=
      (after_succ count).trans hresume
    have htrace : trace shell w lines schedule (count + 1) =
        trace shell w lines schedule count := by
      rw [trace_succ, emitted_of_resume_eq hresume, List.append_nil]
    refine ⟨⟨?_, ?_⟩, hafter, htrace⟩
    · rw [hafter, htrace]
      exact hreaches.1
    · intro before hbefore hline
      rcases Nat.lt_succ_iff_lt_or_eq.mp hbefore with hbefore | rfl
      · exact hreaches.2 before hbefore hline
      · exact hstarted hline
  by_cases hline : schedule count < lines.length
  · -- whoever was not started yet is the next to start
    have hnext : schedule count ≤ started := by
      by_contra hlate
      obtain ⟨before, hbefore, hstarted⟩ := horder count started (by omega)
      have hearlier := hreaches.2 before hbefore (by omega)
      omega
    rcases hreaches.1.turn hnext hline with ⟨hresume, hnumber⟩ | hadvances
    · exact .inl (hstay hresume fun _ => hnumber)
    · exact .inr (hreaches.advance hadvances)
  · have hlength : (after shell w lines schedule count).jobs.length ≤ schedule count := by
      rw [hreaches.1.length_jobs]
      omega
    have hresume : (after shell w lines schedule count).resume shell (schedule count) =
        after shell w lines schedule count := resume_of_length_le hlength
    exact .inl (hstay hresume fun h => absurd h hline)

/-- After any number of further steps, there is less to do or nothing has changed. -/
theorem Reaches.steps (horder : StartsInOrder schedule) (further : Nat) :
    (∃ later started' left', Reaches shell w lines schedule later started' left' ∧ left' < left) ∨
      (Reaches shell w lines schedule (count + further) started left ∧
        after shell w lines schedule (count + further) = after shell w lines schedule count ∧
        trace shell w lines schedule (count + further) = trace shell w lines schedule count) := by
  induction further with
  | zero => exact .inr ⟨hreaches, rfl, rfl⟩
  | succ further ih =>
      rcases ih with hless | ⟨hlater, hafter, htrace⟩
      · exact .inl hless
      rcases hlater.step horder with ⟨hnext, hsame, hsilent⟩ | ⟨started', left', hnext, hleft⟩
      · exact .inr ⟨hnext, hsame.trans hafter, hsilent.trans htrace⟩
      · exact .inl ⟨_, started', left', hnext, hleft⟩

end Step

theorem reaches (shell : Shell) (w : World) (lines : List String)
    (horder : StartsInOrder schedule) (count : Nat) :
    ∃ started left, Reaches shell w lines schedule count started left := by
  induction count with
  | zero => exact ⟨_, _, reaches_zero shell w lines schedule⟩
  | succ count ih =>
      obtain ⟨started, left, hreaches⟩ := ih
      rcases hreaches.step horder with ⟨hnext, _⟩ | ⟨started', left', hnext, _⟩
      · exact ⟨started, left, hnext⟩
      · exact ⟨started', left', hnext⟩

/-- While some lines are not over, a fair schedule leaves less and less to do. -/
theorem Reaches.completes (horder : StartsInOrder schedule) (hfair : Fair schedule lines.length)
    {count started left : Nat} (hreaches : Reaches shell w lines schedule count started left) :
    ∃ later, after shell w lines schedule later = between shell w lines [] [] := by
  induction left using Nat.strongRecOn generalizing count started with
  | ind left ih =>
      rcases hreaches.1.over_or_advances with hover | ⟨number, hline, hadvances⟩
      · exact ⟨count, hover⟩
      obtain ⟨later, hlater, hturn⟩ := hfair number hline count
      have hfurther : count + (later - count) = later := by omega
      rcases hreaches.steps horder (later - count) with
        ⟨sooner, started', left', hless, hleft⟩ | ⟨hsame, hafter, htrace⟩
      · exact ih left' hleft hless
      · -- nothing has changed until the line has its turn
        rw [hfurther] at hsame hafter htrace
        rw [← hafter, ← htrace, ← hturn] at hadvances
        obtain ⟨started', left', hless, hleft⟩ := hsame.advance hadvances
        exact ih left' hleft hless

end Schedule

/-! ### The main result -/

/-- A schedule comes to running the lines one after the other. -/
structure Serialized (shell : Shell) (w : World) (lines : List String) (schedule : Nat → Nat) :
    Prop where
  /-- Whatever line is over has the outcome that it would have had. -/
  outcome : ∀ (count number : Nat) (outcome : Outcome),
    (after shell w lines schedule count).jobs[number]? = some (.finished outcome) →
      (shell.executeAll lines w).1[number]? = some outcome
  /-- A blank line is over at once and leaves the gate and what is behind it alone. -/
  blank : ∀ count line, lines[schedule count]? = some line → Line.parse line = none →
    (after shell w lines schedule (count + 1)).jobs[schedule count]? = some (.finished .empty) ∧
      (after shell w lines schedule (count + 1)).gate = (after shell w lines schedule count).gate
  /-- All that was put out was put out by the steps of lines. -/
  output : ∀ count, (after shell w lines schedule count).gate.value.output =
    w.output ++ (trace shell w lines schedule count).map (·.2)
  /-- At any time the lines have put out a beginning of what they would have put out, so that the
  parts of each line are next to each other. -/
  inTurn : ∀ count, trace shell w lines schedule count <+: shell.transcript 0 lines w
  /-- When all lines are over, nobody is inside, and everything is as it would have been. -/
  ended : ∀ count, (after shell w lines schedule count).IsOver →
      (after shell w lines schedule count).outcomes = (shell.executeAll lines w).1 ∧
      (after shell w lines schedule count).gate.value = (shell.executeAll lines w).2 ∧
      trace shell w lines schedule count = shell.transcript 0 lines w ∧
      (after shell w lines schedule count).gate.state = .idle
  /-- If no line is forgotten, all lines will be over. -/
  completes : Fair schedule lines.length →
    ∃ count, (after shell w lines schedule count).IsOver

theorem outcomes_between (shell : Shell) (w : World) (lines : List String) :
    (between shell w lines [] []).outcomes = (shell.executeAll lines w).1 := by
  rw [outcomes, between, settled]
  simp [remaining, List.filterMap_map]

theorem isOver_between (shell : Shell) (w : World) (lines : List String) :
    (between shell w lines [] []).IsOver := by
  intro job hjob
  have hsettled : job ∈ settled shell w lines := by simpa [between, remaining] using hjob
  obtain ⟨outcome, -, houtcome⟩ := List.mem_map.mp hsettled
  exact ⟨outcome, houtcome.symm⟩

/-- Whatever shell, world and lines there are, every schedule that starts the lines in their order
comes to running them one after the other. -/
theorem serialized (shell : Shell) (w : World) (lines : List String) {schedule : Nat → Nat}
    (horder : StartsInOrder schedule) : Serialized shell w lines schedule := by
  have hreach := reaches shell w lines horder
  constructor
  case outcome =>
    intro count number outcome hjob
    obtain ⟨started, left, harranged, -⟩ := hreach count
    have hlength : number < lines.length := by
      rw [← harranged.length_jobs]
      exact (List.getElem?_eq_some_iff.mp hjob).1
    exact harranged.outcome (List.getElem?_eq_getElem hlength) hjob
  case blank =>
    intro count line hline hblank
    obtain ⟨started, left, harranged, -⟩ := hreach count
    rw [after_succ]
    exact harranged.resume_blank hline hblank
  case output =>
    intro count
    obtain ⟨started, left, harranged, -⟩ := hreach count
    exact harranged.output
  case inTurn =>
    intro count
    obtain ⟨started, left, harranged, -⟩ := hreach count
    exact harranged.inTurn
  case ended =>
    intro count hover
    obtain ⟨started, left, harranged, -⟩ := hreach count
    obtain ⟨hafter, htrace⟩ := harranged.of_isOver hover
    rw [hafter]
    exact ⟨outcomes_between shell w lines, rfl, htrace, rfl⟩
  case completes =>
    intro hfair
    obtain ⟨count, hafter⟩ := (reaches_zero shell w lines schedule).completes horder hfair
    refine ⟨count, ?_⟩
    rw [hafter]
    exact isOver_between shell w lines

/-- One line after the other, and again from the first. -/
def rotation (size count : Nat) : Nat :=
  count % size

theorem startsInOrder_rotation (size : Nat) : StartsInOrder (rotation size) := by
  intro count earlier hearlier
  rw [rotation] at hearlier
  have hle : count % size ≤ count := Nat.mod_le count size
  rcases Nat.eq_zero_or_pos size with rfl | hsize
  · exact ⟨earlier, by omega, Nat.mod_zero earlier⟩
  · have hlt : count % size < size := Nat.mod_lt count hsize
    exact ⟨earlier, by omega, Nat.mod_eq_of_lt (by omega)⟩

theorem fair_rotation (size : Nat) : Fair (rotation size) size := by
  intro number hnumber count
  refine ⟨number + size * count, ?_, ?_⟩
  · have hle : count ≤ size * count := Nat.le_mul_of_pos_left count (by omega)
    omega
  · rw [rotation, Nat.add_mul_mod_self_left, Nat.mod_eq_of_lt hnumber]

/-- A shell with all commands. -/
def plainShell : Shell where
  registry := .builtins
  palette := ⟨false⟩
  options := ⟨defaultQuotaBytes, false⟩
  user := "user"
  host := "host"

/-- A world with an empty store. -/
def emptyWorld : World where
  store := .memory .empty
  cursor := Path.root
  now := 0
  output := []

theorem serialized_rotation :
    StartsInOrder (rotation 3) ∧ Fair (rotation 3) 3 ∧
      (plainShell.executeAll ["echo one", " ", "two"] emptyWorld).1 =
        [.success, .empty, .unknownCommand] ∧
      Serialized plainShell emptyWorld ["echo one", " ", "two"] (rotation 3) :=
  ⟨startsInOrder_rotation 3, fair_rotation 3, by decide +kernel,
    serialized plainShell emptyWorld ["echo one", " ", "two"] (startsInOrder_rotation 3)⟩

end Workshop
end VirtualShell
