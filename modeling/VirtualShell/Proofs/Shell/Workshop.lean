import VirtualShell.Proofs.Shell.Gate
import VirtualShell.Proofs.Shell.InTurn
import VirtualShell.Shell.Concurrent

/-!
# Lines before a gate

Lines that were started in their order, and then resumed in any order, are always arranged in one of
three ways: nobody is before the gate, or the first in line was granted access, or it is inside.  In
each of them the lines before it are over, and the world is the one that they left or the one that
the line inside is at work on.  A step of a line goes from one arrangement to another and leaves
less to do, or it changes nothing; while there is something to do, there is a line whose step does
some of it.
-/

namespace VirtualShell

/-- A line that has arrived, of which a blank one is finished at once. -/
def Job.queued (line : String) : Job :=
  match Line.parse line with
  | none => .finished .empty
  | some invocation => .waiting invocation

theorem Job.queued_blank {line : String} (hblank : Line.parse line = none) :
    queued line = .finished .empty := by
  rw [queued, hblank]

theorem Job.queued_of_parse {line : String} {invocation : Invocation}
    (hline : Line.parse line = some invocation) : queued line = .waiting invocation := by
  rw [queued, hline]

namespace Workshop

/-! ### Lines that stand in line -/

/-- The numbers of the lines that are not blank, from a number on. -/
def numbers : Nat → List String → List Nat
  | _, [] => []
  | number, line :: lines =>
    match Line.parse line with
    | none => numbers (number + 1) lines
    | some _ => number :: numbers (number + 1) lines

theorem numbers_blank (number : Nat) {line : String} (lines : List String)
    (hblank : Line.parse line = none) :
    numbers number (line :: lines) = numbers (number + 1) lines := by
  rw [numbers, hblank]

theorem numbers_of_parse (number : Nat) {line : String} (lines : List String)
    {invocation : Invocation} (hline : Line.parse line = some invocation) :
    numbers number (line :: lines) = number :: numbers (number + 1) lines := by
  rw [numbers, hline]

theorem numbers_append (number : Nat) (lines later : List String) :
    numbers number (lines ++ later) =
      numbers number lines ++ numbers (number + lines.length) later := by
  induction lines generalizing number with
  | nil => rfl
  | cons line lines ih =>
      have hnumber : number + 1 + lines.length = number + (line :: lines).length := by
        rw [List.length_cons]
        omega
      cases hline : Line.parse line with
      | none =>
          rw [List.cons_append, numbers_blank _ _ hline, numbers_blank _ _ hline, ih, hnumber]
      | some invocation =>
          rw [List.cons_append, numbers_of_parse _ _ hline, numbers_of_parse _ _ hline, ih,
            hnumber, List.cons_append]

/-! ### Single steps -/

section Resume

variable {shell : Shell} {s : Workshop}

theorem resume_at {before after : List Job} {job job' : Job} {gate : Gate World}
    (hjobs : s.jobs = before ++ job :: after)
    (hjob : resumeJob shell s.gate before.length job = (gate, job')) :
    s.resume shell before.length = { gate := gate, jobs := before ++ job' :: after } := by
  have hget : s.jobs[before.length]? = some job := by simp [hjobs]
  rw [resume, hget]
  dsimp only
  rw [record, hjob, hjobs, List.set_append_right _ _ (Nat.le_refl _), Nat.sub_self,
    List.set_cons_zero]

/-- A line that cannot take a step changes nothing. -/
theorem resume_of_stuck {number : Nat} {job : Job} (hjob : s.jobs[number]? = some job)
    (hstuck : resumeJob shell s.gate number job = (s.gate, job)) : s.resume shell number = s := by
  obtain ⟨hlength, hget⟩ := List.getElem?_eq_some_iff.mp hjob
  have hset : s.jobs.set number job = s.jobs := by rw [← hget, List.set_getElem_self]
  rw [resume, hjob]
  dsimp only
  rw [record, hstuck, hset]

theorem resume_of_length_le {number : Nat} (hnumber : s.jobs.length ≤ number) :
    s.resume shell number = s := by
  rw [resume, List.getElem?_eq_none hnumber]

variable {gate : Gate World} {number : Nat} {line : String}

/-- Who was not granted access goes on waiting. -/
theorem resumeJob_queued (hadmits : gate.admits number = false) :
    resumeJob shell gate number (.queued line) = (gate, .queued line) := by
  cases hline : Line.parse line with
  | none => rw [Job.queued_blank hline, resumeJob]
  | some invocation =>
      rw [Job.queued_of_parse hline, resumeJob, approach, hadmits, if_neg Bool.false_ne_true]

theorem resumeJob_unstarted_blank (hblank : Line.parse line = none) :
    resumeJob shell gate number (.unstarted line) = (gate, .finished .empty) := by
  rw [resumeJob, hblank]

/-- Who comes to a gate with somebody before it goes to the end of the line. -/
theorem resumeJob_unstarted_behind (value : World) (inUse : Bool) {first : Nat}
    (others : List Nat) (hne : number ≠ first) :
    resumeJob shell (.ofLine value inUse (first :: others)) number (.unstarted line) =
      (.ofLine value inUse (first :: (others ++ numbers number [line])), .queued line) := by
  cases hline : Line.parse line with
  | none =>
      rw [resumeJob_unstarted_blank hline, Job.queued_blank hline, numbers_blank _ _ hline, numbers,
        List.append_nil]
  | some invocation =>
      have hadmits := Gate.admits_ofLine_of_ne value inUse (others ++ [number]) hne
      rw [numbers_of_parse _ _ hline, Job.queued_of_parse hline]
      simp [resumeJob, hline, approach, hadmits, numbers]

variable {invocation : Invocation} (hline : Line.parse line = some invocation)
include hline

/-- Who comes to a gate with nobody before it goes in. -/
theorem resumeJob_unstarted_alone (value : World) (inUse : Bool) :
    resumeJob shell (.ofLine value inUse []) number (.unstarted line) =
      (.ofLine value true [number], .running (shell.perform invocation)) := by
  simp [resumeJob, hline, approach]

/-- Who was granted access goes in. -/
theorem resumeJob_queued_first (value : World) (inUse : Bool) (others : List Nat) :
    resumeJob shell (.ofLine value inUse (number :: others)) number (.queued line) =
      (.ofLine value true (number :: others), .running (shell.perform invocation)) := by
  simp [resumeJob, Job.queued_of_parse hline, approach]

end Resume

theorem resumeJob_running {routine : Routine Outcome} (shell : Shell)
    (hdone : routine.isDone = false) (world : World) (number : Nat) (line : List Nat) :
    resumeJob shell (.ofLine world true line) number (.running routine) =
      (.ofLine (routine.step world).2 true line, .running (routine.step world).1) := by
  cases routine with
  | done outcome => cases hdone
  | call c next => rfl
  | walk pending found next => rfl

/-! ### Arrangements -/

section Arrangement

variable (shell : Shell) (w : World)

/-- What became of the lines that are over. -/
def settled (done : List String) : List Job :=
  (shell.executeAll done w).1.map .finished

@[simp]
theorem length_settled (done : List String) : (settled shell w done).length = done.length := by
  rw [settled, List.length_map, Shell.length_executeAll]

theorem settled_concat (done : List String) (line : String) :
    settled shell w (done ++ [line]) =
      settled shell w done ++
        [.finished ((shell.execute line).run (shell.executeAll done w).2).1] := by
  rw [settled, Shell.executeAll_concat, List.map_append]
  rfl

/-- The lines that have arrived, and those that were not started. -/
def remaining (pending rest : List String) : List Job :=
  pending.map .queued ++ rest.map .unstarted

/-- Nobody is inside. -/
def between (done pending rest : List String) : Workshop where
  gate := .ofLine (shell.executeAll done w).2 false (numbers done.length pending)
  jobs := settled shell w done ++ remaining pending rest

/-- A line is inside, with something left to do. -/
def during (done : List String) (routine : Routine Outcome) (world : World)
    (pending rest : List String) : Workshop where
  gate := .ofLine world true (done.length :: numbers (done.length + 1) pending)
  jobs := settled shell w done ++ .running routine :: remaining pending rest

/-- How a workshop can stand: how many of the lines were started, what has been put out by which of
them, and how many steps are left. -/
inductive Arranged (lines : List String) :
    Workshop → Nat → List (Nat × Output) → Nat → Prop
  | idle (done rest : List String) (hlines : lines = done ++ rest) :
      Arranged lines (between shell w done [] rest) done.length (shell.transcript 0 done w)
        (rest.length + shell.work rest (shell.executeAll done w).2)
  | granted (done : List String) (line : String) (pending rest : List String)
      (invocation : Invocation) (hline : Line.parse line = some invocation)
      (hlines : lines = done ++ line :: (pending ++ rest)) :
      Arranged lines (between shell w done (line :: pending) rest)
        (done.length + (pending.length + 1)) (shell.transcript 0 done w)
        (rest.length + shell.work (line :: (pending ++ rest)) (shell.executeAll done w).2)
  | inside (done : List String) (line : String) (routine : Routine Outcome) (world : World)
      (pending rest : List String) (invocation : Invocation)
      (hline : Line.parse line = some invocation)
      (hrun : routine.run world = (shell.execute line).run (shell.executeAll done w).2)
      (houtput : (shell.executeAll done w).2.output <+: world.output)
      (hlines : lines = done ++ line :: (pending ++ rest)) :
      Arranged lines (during shell w done routine world pending rest)
        (done.length + (pending.length + 1))
        (shell.transcript 0 done w ++
          (world.outputSince (shell.executeAll done w).2).map fun output => (done.length, output))
        (rest.length + (routine.effort world + 1 +
          shell.work (pending ++ rest) (routine.run world).2))

variable {shell w}

/-- A blank line that has arrived might as well be over. -/
theorem between_blank (done : List String) {line : String} (pending rest : List String)
    (hblank : Line.parse line = none) :
    between shell w done (line :: pending) rest =
      between shell w (done ++ [line]) pending rest := by
  rw [between, between, settled_concat, Shell.executeAll_concat, Shell.execute_blank _ hblank,
    numbers_blank _ _ hblank, List.length_append]
  simp [remaining, Job.queued_blank hblank]

variable {lines : List String}

/-- However many of the lines that have arrived are blank, if nobody is inside then nobody is
before the gate, or somebody was granted access. -/
theorem Arranged.of_between (done pending rest : List String)
    (hlines : lines = done ++ (pending ++ rest)) :
    Arranged shell w lines (between shell w done pending rest) (done.length + pending.length)
      (shell.transcript 0 done w)
      (rest.length + shell.work (pending ++ rest) (shell.executeAll done w).2) := by
  induction pending generalizing done with
  | nil => exact .idle done rest hlines
  | cons line pending ih =>
      cases hline : Line.parse line with
      | none =>
          have harranged := ih (done ++ [line]) (by simp [hlines])
          have hworld : (shell.executeAll (done ++ [line]) w).2 = (shell.executeAll done w).2 := by
            rw [Shell.executeAll_concat, Shell.execute_blank _ hline]
          have hstarted : (done ++ [line]).length + pending.length =
              done.length + (line :: pending).length := by
            simp only [List.length_append, List.length_cons, List.length_nil]
            omega
          rw [← between_blank done pending rest hline, hstarted, hworld,
            Shell.transcript_concat_blank _ _ hline] at harranged
          rw [List.cons_append, Shell.work_blank _ _ hline]
          exact harranged
      | some invocation => exact .granted done line pending rest invocation hline hlines

/-! ### Who cannot take a step -/

theorem getElem?_settled {done : List String} {number : Nat} (hnumber : number < done.length)
    (later : List Job) :
    ∃ outcome, (settled shell w done ++ later)[number]? = some (.finished outcome) := by
  have hlength : number < (shell.executeAll done w).1.length := by simpa using hnumber
  refine ⟨(shell.executeAll done w).1[number], ?_⟩
  rw [List.getElem?_append_left (by simpa using hnumber), settled, List.getElem?_map,
    List.getElem?_eq_getElem hlength]
  rfl

theorem getElem?_remaining {pending : List String} {number : Nat}
    (hnumber : number < pending.length) (rest : List String) :
    ∃ line, (remaining pending rest)[number]? = some (.queued line) := by
  refine ⟨pending[number], ?_⟩
  rw [remaining, List.getElem?_append_left (by simpa using hnumber), List.getElem?_map,
    List.getElem?_eq_getElem hnumber]
  rfl

/-- A line that is over, or that has arrived and was not granted access, changes nothing. -/
theorem resume_stuck {s : Workshop} {done rest : List String} (middle : List Job)
    (pending : List String) {number : Nat}
    (hjobs : s.jobs = settled shell w done ++ (middle ++ remaining pending rest))
    (hnumber : number < done.length + (middle.length + pending.length))
    (hmiddle : number < done.length ∨ done.length + middle.length ≤ number)
    (hadmits : s.gate.admits number = false) : s.resume shell number = s := by
  by_cases hdone : number < done.length
  · obtain ⟨outcome, hjob⟩ : ∃ outcome, (settled shell w done ++
        (middle ++ remaining pending rest))[number]? = some (.finished outcome) :=
      getElem?_settled hdone _
    exact resume_of_stuck (hjobs ▸ hjob) rfl
  · have hbehind : number - done.length - middle.length < pending.length := by omega
    obtain ⟨line, hjob⟩ := getElem?_remaining hbehind rest
    have hplace : s.jobs[number]? = some (.queued line) := by
      rw [hjobs, List.getElem?_append_right (by rw [length_settled]; omega), length_settled,
        List.getElem?_append_right (by omega)]
      exact hjob
    exact resume_of_stuck hplace (resumeJob_queued hadmits)

/-! ### Who can -/

section Step

variable (done : List String) {line : String} (pending rest : List String)

/-- The step of the first line that is not over. -/
theorem resume_first {s : Workshop} {job job' : Job} {later : List Job} {gate : Gate World}
    (hjobs : s.jobs = settled shell w done ++ job :: later)
    (hjob : resumeJob shell s.gate done.length job = (gate, job')) :
    s.resume shell done.length =
      { gate := gate, jobs := settled shell w done ++ job' :: later } := by
  have hlength := length_settled shell w done
  rw [← hlength] at hjob
  have hresume := resume_at hjobs hjob
  rw [hlength] at hresume
  exact hresume

theorem resume_idle_blank (hblank : Line.parse line = none) :
    (between shell w done [] (line :: rest)).resume shell done.length =
      between shell w done [line] rest := by
  rw [resume_first done rfl (resumeJob_unstarted_blank hblank), between, between,
    numbers_blank _ _ hblank]
  simp [remaining, Job.queued_blank hblank, numbers]

theorem resume_idle {invocation : Invocation} (hline : Line.parse line = some invocation) :
    (between shell w done [] (line :: rest)).resume shell done.length =
      during shell w done (shell.perform invocation) (shell.executeAll done w).2 [] rest :=
  resume_first done rfl (resumeJob_unstarted_alone hline _ _)

theorem resume_granted {invocation : Invocation} (hline : Line.parse line = some invocation) :
    (between shell w done (line :: pending) rest).resume shell done.length =
      during shell w done (shell.perform invocation) (shell.executeAll done w).2 pending rest := by
  have hjob : resumeJob shell (.ofLine (shell.executeAll done w).2 false
        (done.length :: numbers (done.length + 1) pending)) done.length (.queued line) =
      (.ofLine (shell.executeAll done w).2 true (done.length :: numbers (done.length + 1) pending),
        .running (shell.perform invocation)) := resumeJob_queued_first hline _ _ _
  rw [← numbers_of_parse _ _ hline] at hjob
  rw [resume_first done rfl hjob, numbers_of_parse _ _ hline]
  rfl

/-- Somebody arrives while somebody else was granted access or is inside. -/
theorem resume_start {s : Workshop} (world : World) (inUse : Bool) {first : Job} (next : String)
    (hgate : s.gate = .ofLine world inUse (done.length :: numbers (done.length + 1) pending))
    (hjobs : s.jobs = settled shell w done ++ first :: remaining pending (next :: rest)) :
    s.resume shell (done.length + (pending.length + 1)) =
      { gate := .ofLine world inUse
          (done.length :: numbers (done.length + 1) (pending ++ [next]))
        jobs := settled shell w done ++ first :: remaining (pending ++ [next]) rest } := by
  have hplace : s.jobs = (settled shell w done ++ first :: pending.map .queued) ++
      .unstarted next :: rest.map .unstarted := by
    rw [hjobs]
    simp [remaining]
  have hnumber : (settled shell w done ++ first :: pending.map Job.queued).length =
      done.length + (pending.length + 1) := by
    simp
  have hbehind : done.length + 1 + pending.length = done.length + (pending.length + 1) := by omega
  have hjob : resumeJob shell s.gate (done.length + (pending.length + 1)) (.unstarted next) =
      (.ofLine world inUse (done.length :: (numbers (done.length + 1) pending ++
        numbers (done.length + (pending.length + 1)) [next])), .queued next) := by
    rw [hgate]
    exact resumeJob_unstarted_behind _ _ _ (by omega)
  rw [← hnumber] at hjob
  have hresume := resume_at hplace hjob
  rw [hnumber] at hresume
  rw [hresume, numbers_append, hbehind]
  simp [remaining]

theorem resume_granted_start {invocation : Invocation} (hline : Line.parse line = some invocation)
    (next : String) :
    (between shell w done (line :: pending) (next :: rest)).resume shell
        (done.length + (pending.length + 1)) =
      between shell w done (line :: (pending ++ [next])) rest := by
  have hgate : (between shell w done (line :: pending) (next :: rest)).gate =
      .ofLine (shell.executeAll done w).2 false
        (done.length :: numbers (done.length + 1) pending) := by
    rw [between, numbers_of_parse _ _ hline]
  have hjobs : (between shell w done (line :: pending) (next :: rest)).jobs =
      settled shell w done ++ .queued line :: remaining pending (next :: rest) := rfl
  rw [resume_start done pending rest _ _ next hgate hjobs, between, numbers_of_parse _ _ hline]
  rfl

theorem resume_inside_start (routine : Routine Outcome) (world : World) (next : String) :
    (during shell w done routine world pending (next :: rest)).resume shell
        (done.length + (pending.length + 1)) =
      during shell w done routine world (pending ++ [next]) rest :=
  resume_start done pending rest world true next rfl rfl

theorem resume_inside {routine : Routine Outcome} (hdone : routine.isDone = false)
    (world : World) :
    (during shell w done routine world pending rest).resume shell done.length =
      during shell w done (routine.step world).1 (routine.step world).2 pending rest :=
  resume_first done rfl (resumeJob_running shell hdone world _ _)

theorem resume_leave {outcome : Outcome} {world : World}
    (hrun : (shell.execute line).run (shell.executeAll done w).2 = (outcome, world)) :
    (during shell w done (.done outcome) world pending rest).resume shell done.length =
      between shell w (done ++ [line]) pending rest := by
  have hjob : resumeJob shell
      (.ofLine world true (done.length :: numbers (done.length + 1) pending)) done.length
      (.running (.done outcome)) =
        (.ofLine world false (numbers (done.length + 1) pending), .finished outcome) := rfl
  rw [resume_first done rfl hjob, between, settled_concat, Shell.executeAll_concat, hrun,
    List.length_append]
  simp

end Step

end Arrangement

end Workshop
end VirtualShell
