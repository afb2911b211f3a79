import VirtualShell.Log.Event
import VirtualShell.Store

/-!
# Routines

Everything that happens in a session is a routine: a finite tree of calls on the store, the clock,
the cursor and the output, each of which waits for its answer. A routine can be run to its end, or
one call at a time with other routines in between; both are defined here, on the same tree.
-/

namespace VirtualShell

/-- What a session shows or reports. -/
inductive Output where
  | text (s : String)
  | clear
  | event (e : Log.Event)
  deriving DecidableEq, Repr

/-- A call that a routine makes. -/
inductive Call where
  | get (path : String)
  | commit (changes : List Change)
  | usage
  | flush
  | clock
  | cursor
  | moveCursor (path : String)
  | emit (output : Output)

/-- The type of the answer to a call. -/
def Call.Answer : Call → Type
  | .get _ => Except StorageError (Option Node)
  | .commit _ => Except StorageError Unit
  | .usage => Nat
  | .flush => Unit
  | .clock => Timestamp
  | .cursor => String
  | .moveCursor _ => Unit
  | .emit _ => Unit

/-- A routine that ends with a value: it is done, it makes a call, or it walks a subtree of the
store, looking up the children of one path at a time. -/
inductive Routine (α : Type) where
  | done (value : α)
  | call (c : Call) (next : c.Answer → Routine α)
  | walk (pending found : List String) (next : List String → Routine α)

namespace Routine

/-- Goes on with another routine. -/
def bind {α β : Type} : Routine α → (α → Routine β) → Routine β
  | .done value, f => f value
  | .call c next, f => .call c fun answer => (next answer).bind f
  | .walk pending found next, f => .walk pending found fun paths => (next paths).bind f

instance : Monad Routine where
  pure := .done
  bind := .bind

/-- The routine that makes one call. -/
def ofCall (c : Call) : Routine c.Answer :=
  .call c .done

end Routine

/-- What routines share: the store, the cursor of the session, a clock that stands still, and
what was put out so far. -/
structure World where
  store : Store
  cursor : String
  now : Timestamp
  output : List Output

namespace World

/-- The world with one more output. -/
def emit (w : World) (output : Output) : World :=
  { w with output := w.output ++ [output] }

/-- The world after a commit. A durable store reports it. -/
def commit (w : World) (changes : List Change) : Except StorageError Unit × World :=
  match w.store.commit changes with
  | .error e => (.error e, w)
  | .ok store =>
    let w := { w with store }
    match store with
    | .memory _ => (.ok (), w)
    | .durable _ =>
      (.ok (), w.emit (.event (Log.Source.durableStore.event .debug "Committed batch"
        [("ops", .count changes.length)])))

/-- The answer to a call, and the world after it. -/
def answer (w : World) : (c : Call) → c.Answer × World
  | .get path => (w.store.get path, w)
  | .commit changes => w.commit changes
  | .usage => (w.store.usage, w)
  | .flush => ((), w)
  | .clock => (w.now, w)
  | .cursor => (w.cursor, w)
  | .moveCursor path => ((), { w with cursor := path })
  | .emit output => ((), w.emit output)

end World

namespace Routine

variable {α : Type}

/-- Runs a routine to its end. -/
def run : Routine α → World → α × World
  | .done value, w => (value, w)
  | .call c next, w => (next (w.answer c).1).run (w.answer c).2
  | .walk pending found next, w => (next (w.store.walk pending found)).run w

/-- One call, or one step of a walk. -/
def step : Routine α → World → Routine α × World
  | .done value, w => (.done value, w)
  | .call c next, w => (next (w.answer c).1, (w.answer c).2)
  | .walk [] found next, w => (next found, w)
  | .walk (path :: rest) found next, w =>
    (.walk ((w.store.children path).reverse ++ rest) (path :: found) next, w)

end Routine

/-- A routine that can fail with a storage error. -/
abbrev Action (α : Type) := ExceptT StorageError Routine α

namespace Action

/-- The node under a path. -/
def get (path : String) : Action (Option Node) :=
  ExceptT.mk (Routine.ofCall (.get path))

/-- Makes changes, all or none. -/
def commit (changes : List Change) : Action Unit :=
  ExceptT.mk (Routine.ofCall (.commit changes))

/-- The paths at and below a path, those below first. -/
def subtree (path : String) : Action (List String) :=
  ExceptT.lift (.walk [path] [] .done)

/-- The bytes that the store uses. -/
def usage : Action Nat :=
  ExceptT.lift (Routine.ofCall .usage)

/-- Waits until earlier changes are kept for good. -/
def flush : Action Unit :=
  ExceptT.lift (Routine.ofCall .flush)

/-- The time. -/
def clock : Action Timestamp :=
  ExceptT.lift (Routine.ofCall .clock)

/-- The working directory. -/
def cursor : Action String :=
  ExceptT.lift (Routine.ofCall .cursor)

/-- Sets the working directory. -/
def moveCursor (path : String) : Action Unit :=
  ExceptT.lift (Routine.ofCall (.moveCursor path))

/-- Shows a text. -/
def write (s : String) : Action Unit :=
  ExceptT.lift (Routine.ofCall (.emit (.text s)))

/-- Clears what was shown. -/
def clear : Action Unit :=
  ExceptT.lift (Routine.ofCall (.emit .clear))

/-- Reports an event. -/
def log (event : Log.Event) : Action Unit :=
  ExceptT.lift (Routine.ofCall (.emit (.event event)))

/-- Runs an action to its end. -/
def run {α : Type} (action : Action α) (w : World) : Except StorageError α × World :=
  Routine.run (ExceptT.run action) w

end Action
end VirtualShell
