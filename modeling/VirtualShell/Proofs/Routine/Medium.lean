import VirtualShell.Routine

/-!
# What lies under a store

A store is kept on a medium that can be out of order.  Then commits fail although the store would
have made them, and the bytes in use are not those that the entries add up to.  A routine runs upon
a medium as it runs otherwise, but for the calls that the medium answers itself.
-/

namespace VirtualShell

/-- What commits fail with, if they do, and the bytes in use, if they are not those of the store. -/
structure Medium where
  failure : Option StorageError
  used : Option Nat
  deriving DecidableEq, Repr

namespace Medium

/-- The medium that answers nothing itself. -/
def intact : Medium where
  failure := none
  used := none

/-- What the medium answers in the place of the store. -/
def answer? (medium : Medium) : (c : Call) → Option c.Answer
  | .commit _ => medium.failure.map Except.error
  | .usage => medium.used
  | .get _ | .flush | .clock | .cursor | .moveCursor _ | .emit _ => none

theorem answer?_intact (c : Call) : intact.answer? c = none := by
  cases c <;> rfl

end Medium

namespace Routine

variable {α : Type}

/-- The routine without the calls that a medium answers. -/
def upon (medium : Medium) : Routine α → Routine α
  | .done value => .done value
  | .call c next =>
    match medium.answer? c with
    | some answer => (next answer).upon medium
    | none => .call c fun answer => (next answer).upon medium
  | .walk pending found next => .walk pending found fun paths => (next paths).upon medium

theorem upon_bind {β : Type} (routine : Routine α) (f : α → Routine β) (medium : Medium) :
    (routine.bind f).upon medium =
      (routine.upon medium).bind fun value => (f value).upon medium := by
  induction routine with
  | done value => rfl
  | call c next ih =>
      rw [bind, upon, upon]
      cases medium.answer? c with
      | some answer => exact ih answer
      | none => exact congrArg (Routine.call c) (funext ih)
  | walk pending found next ih => exact congrArg (Routine.walk pending found) (funext ih)

/-- Over an intact medium, a routine is what it is. -/
theorem upon_intact (routine : Routine α) : routine.upon .intact = routine := by
  induction routine with
  | done value => rfl
  | call c next ih =>
      rw [upon, Medium.answer?_intact]
      exact congrArg (Routine.call c) (funext ih)
  | walk pending found next ih => exact congrArg (Routine.walk pending found) (funext ih)

end Routine

/-- The action without the calls that a medium answers. -/
def Action.upon {α : Type} (medium : Medium) (action : Action α) : Action α :=
  ExceptT.mk (Routine.upon medium (ExceptT.run action))

theorem Action.upon_intact {α : Type} (action : Action α) : action.upon .intact = action :=
  Routine.upon_intact (ExceptT.run action)

end VirtualShell
