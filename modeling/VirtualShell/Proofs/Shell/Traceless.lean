import VirtualShell.Proofs.Session.Atomicity
import VirtualShell.Shell.Dispatcher

/-!
# Lines that leave no trace

A command either only reads, or changes something exactly when it succeeds.  A line that does not
succeed, for whatever reason, and a line whose command only reads therefore leave the store and the
cursor as they were.
-/

namespace VirtualShell

open VirtualShell.Action

namespace Action

theorem play_lift {α : Type} (routine : Routine α) (s : Scene) :
    Action.play routine s = (.ok (routine.play s).1, (routine.play s).2) :=
  routine.play_bind _ s

theorem quiet_writeLine (s : String) : Quiet (Routine.writeLine s : Action Unit) := fun _ => rfl

theorem quiet_writeError (palette : Palette) (s : String) :
    Quiet (Routine.writeError palette s : Action Unit) := fun _ => rfl

theorem quiet_clear : Quiet Action.clear := fun _ => rfl

end Action

namespace Command

/-- Commands that never change anything. -/
def readsOnly : Command → Bool
  | .help | .ls | .pwd | .cat | .echo | .clear | .neofetch | .df => true
  | .cd | .mkdir | .touch | .rm => false

theorem play_writeLines (lines : List String) (s : Scene) :
    (writeLines lines).play s = ((), s) := by
  induction lines with
  | nil => rfl
  | cons line lines ih => exact ih

theorem quiet_writeLines (lines : List String) : Quiet (writeLines lines : Action Unit) := by
  intro s
  rw [play_lift, play_writeLines]

section Operands

variable (palette : Palette) (usage : String) (args : List String)
  {next : String → Action CommandStatus}

theorem quiet_withOperand (hnext : ∀ operand, Quiet (next operand)) :
    Quiet (withOperand palette usage args next) := by
  unfold withOperand
  split
  · exact hnext _
  · exact (quiet_writeError _ _).bind fun _ => quiet_pure _

theorem atomic_withOperand (hnext : ∀ operand, Atomic (· = .failure) (next operand)) :
    Atomic (· = .failure) (withOperand palette usage args next) := by
  unfold withOperand
  split
  · exact hnext _
  · exact ((quiet_writeError _ _).bind fun _ => quiet_pure _).atomic _

/-- A command that asks for a change fails if the change is refused. -/
theorem atomic_doneOr (complaint : String) {action : Action Bool}
    (haction : Atomic Session.Refused action) :
    Atomic (· = .failure) (do doneOr palette complaint (← action)) := by
  refine haction.bind (fun done hrefused => ?_) fun done hdone => ?_
  · subst hrefused
    exact ((quiet_writeError _ _).bind fun _ => quiet_pure _).atomic _
  · have htrue : done = true := by simpa using hdone
    subst htrue
    exact certain_pure (by decide)

end Operands

section Run

variable (palette : Palette) (options : SessionOptions) (args : List String)

theorem quiet_run {command : Command} (hreads : command.readsOnly = true) :
    Quiet (run palette options args command) := by
  cases command with
  | help => exact (quiet_writeLines _).bind fun _ => quiet_pure _
  | ls =>
      refine (Session.quiet_listDirectory _).bind fun listed => ?_
      cases listed with
      | none => exact (quiet_writeError _ _).bind fun _ => quiet_pure _
      | some entries => exact (quiet_writeLine _).bind fun _ => quiet_pure _
  | pwd => exact quiet_cursor.bind fun _ => (quiet_writeLine _).bind fun _ => quiet_pure _
  | cat =>
      refine quiet_withOperand _ _ _ fun path =>
        (Session.quiet_fileText path).bind fun content => ?_
      cases content with
      | none => exact (quiet_writeError _ _).bind fun _ => quiet_pure _
      | some text => exact (quiet_writeLine _).bind fun _ => quiet_pure _
  | echo => exact (quiet_writeLine _).bind fun _ => quiet_pure _
  | clear => exact quiet_clear.bind fun _ => quiet_pure _
  | neofetch => exact (quiet_writeLines _).bind fun _ => quiet_pure _
  | df =>
      exact (Session.quiet_usage _).bind fun _ => (quiet_writeLines _).bind fun _ => quiet_pure _
  | cd => cases hreads
  | mkdir => cases hreads
  | touch => cases hreads
  | rm => cases hreads

/-- The working directory is shown whether it was changed or not. -/
theorem atomic_cd : Atomic (· = .failure) (run palette options args .cd) := by
  refine (Session.atomic_changeDirectory _).bind (fun changed hrefused => ?_)
    fun changed hdone => ?_
  · subst hrefused
    exact ((quiet_writeError _ _).bind fun _ =>
      quiet_cursor.bind fun _ => (quiet_writeLine _).bind fun _ => quiet_pure _).atomic _
  · have htrue : changed = true := by simpa using hdone
    subst htrue
    intro s hfails
    cases hfails

/-- A command that fails changes nothing. -/
theorem atomic_run (command : Command) :
    Atomic (· = .failure) (run palette options args command) := by
  cases hreads : command.readsOnly with
  | true => exact (quiet_run palette options args hreads).atomic _
  | false =>
      cases command with
      | cd => exact atomic_cd palette options args
      | mkdir =>
          exact atomic_withOperand _ _ _ fun path =>
            atomic_doneOr _ _ (Session.atomic_createDirectory options path)
      | touch =>
          exact atomic_withOperand _ _ _ fun path =>
            atomic_doneOr _ _ (Session.atomic_touch options path)
      | rm =>
          exact atomic_withOperand _ _ _ fun path =>
            atomic_doneOr _ _ (Session.atomic_delete options path)
      | _ => cases hreads

end Run

end Command

namespace Shell

variable (shell : Shell)

/-- The line is an invocation of a command that only reads. -/
def readsOnly (line : String) : Bool :=
  match Line.parse line with
  | some invocation => (shell.registry.find? invocation.name).any Command.readsOnly
  | none => false

/-- What a line's invocation comes to, by the result of its command. -/
def outcomeOf : Except StorageError CommandStatus → Outcome
  | .ok .success => .success
  | .ok .failure => .failure
  | .error _ => .storageFailure

/-- Around its command, an invocation only reports and writes. -/
theorem play_perform {invocation : Invocation} {command : Command}
    (hcommand : shell.registry.find? invocation.name = some command) (s : Scene) :
    (shell.perform invocation).play s =
      (outcomeOf ((command.run shell.palette shell.options invocation.args).play s).1,
        ((command.run shell.palette shell.options invocation.args).play s).2) := by
  rw [perform, hcommand]
  show (Routine.bind (ExceptT.run (command.run shell.palette shell.options invocation.args)) _).play
    s = _
  rw [Routine.play_bind, Action.play]
  cases (ExceptT.run (command.run shell.palette shell.options invocation.args)).play s with
  | mk result s' =>
      cases result with
      | error e => rfl
      | ok status => cases status <;> rfl

/-- An invocation that does not succeed leaves everything as it was. -/
theorem scene_perform_of_ne_success {invocation : Invocation} {s : Scene}
    (houtcome : ((shell.perform invocation).play s).1 ≠ .success) :
    ((shell.perform invocation).play s).2 = s := by
  cases hcommand : shell.registry.find? invocation.name with
  | none =>
      rw [perform, hcommand]
      rfl
  | some command =>
      rw [play_perform shell hcommand] at houtcome ⊢
      refine command.atomic_run shell.palette shell.options invocation.args s ?_
      cases hresult : ((command.run shell.palette shell.options invocation.args).play s).1 with
      | error e => trivial
      | ok status =>
          rw [hresult] at houtcome
          cases status with
          | success => exact absurd rfl houtcome
          | failure => rfl

/-- A line that does not succeed, or whose command only reads, leaves everything as it was. -/
theorem scene_execute {line : String} {s : Scene}
    (hidle : ((shell.execute line).play s).1 ≠ .success ∨ shell.readsOnly line = true) :
    ((shell.execute line).play s).2 = s := by
  cases hline : Line.parse line with
  | none =>
      rw [execute, hline]
      rfl
  | some invocation =>
      simp only [readsOnly, execute, hline] at hidle ⊢
      rcases hidle with houtcome | hreads
      · exact shell.scene_perform_of_ne_success houtcome
      · obtain ⟨command, hcommand, hcommandReads⟩ := (Option.any_eq_true _ _).mp hreads
        rw [play_perform shell hcommand]
        exact command.quiet_run shell.palette shell.options invocation.args hcommandReads s

end Shell
end VirtualShell
