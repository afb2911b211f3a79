import VirtualShell.Proofs.History.Deed

/-!
# Sessions that share a store

Any number of sessions work on one store.  One step is a session that starts, one operation of one
session, the clock being set, writes being refused from now on or no longer, or a change of the
medium, after which commits fail on any store.  The steps come in any order; nothing says that the
first start is successful.
-/

namespace VirtualShell

/-- The two kinds of stores. -/
inductive Backend where
  | memory
  | durable
  deriving DecidableEq, Repr

/-- A store of a kind with nothing in it. -/
def Store.empty : Backend → Store
  | .memory => .memory .empty
  | .durable => .durable .empty

/-- The store when writes are refused, or no longer. A durable store is not told. -/
def Store.refusing : Store → Bool → Store
  | .memory s, on => .memory { s with refusesWrites := on }
  | .durable s, _ => .durable s

/-- What a session has of its own. -/
structure Client where
  cursor : String
  options : SessionOptions
  deriving DecidableEq, Repr

/-- A store on a medium, with the sessions that were started on it, and the clock. -/
structure Shared where
  store : Store
  medium : Medium
  now : Timestamp
  clients : List Client

/-- What can happen next. -/
inductive Step where
  | start (seeded : Bool) (options : SessionOptions)
  | operate (client : Nat) (operation : Operation)
  | refuse (on : Bool)
  | change (medium : Medium)
  | tick (now : Timestamp)
  deriving DecidableEq, Repr

namespace Shared

/-- An empty store on which nobody has started, on an intact medium. -/
def fresh (backend : Backend) (now : Timestamp) : Shared where
  store := .empty backend
  medium := .intact
  now := now
  clients := []

/-- The world that a session with a cursor finds itself in. -/
def world (s : Shared) (cursor : String) : World where
  store := s.store
  cursor := cursor
  now := s.now
  output := []

/-- What a routine can learn or change there. -/
def scene (s : Shared) (cursor : String) : Scene :=
  (s.world cursor).scene s.medium

/-- A request made from a cursor: its answer, and the world it leaves. -/
def request (s : Shared) (cursor : String) (options : SessionOptions) (request : Request) :
    Except StorageError Reply × World :=
  ((request.perform options).upon s.medium).run (s.world cursor)

/-- One step. A session that could not start is not there. -/
def step (s : Shared) : Step → Shared
  | .start seeded options =>
    let (result, w) := s.request Path.root options (.start seeded)
    match result with
    | .ok _ => { s with store := w.store, clients := s.clients ++ [⟨w.cursor, options⟩] }
    | .error _ => { s with store := w.store }
  | .operate number operation =>
    match s.clients[number]? with
    | none => s
    | some client =>
      let (_, w) := s.request client.cursor client.options (.operate operation)
      { s with
        store := w.store
        clients := s.clients.set number { client with cursor := w.cursor } }
  | .refuse on => { s with store := s.store.refusing on }
  | .change medium => { s with medium }
  | .tick now => { s with now }

/-- One step after the other. -/
def run (s : Shared) (steps : List Step) : Shared :=
  steps.foldl step s

/-- The answer to a step, if there is somebody to give it. -/
def answer? (s : Shared) : Step → Option (Except StorageError Reply)
  | .start seeded options => some (s.request Path.root options (.start seeded)).1
  | .operate number operation =>
    (s.clients[number]?).map fun client =>
      (s.request client.cursor client.options (.operate operation)).1
  | .refuse _ | .change _ | .tick _ => none

/-- The answers to some steps, in order. -/
def answers (s : Shared) : List Step → List (Except StorageError Reply)
  | [] => []
  | step :: steps => (s.answer? step).toList ++ (s.step step).answers steps

/-- What a step did, going by the answer to it. -/
def deeds (s : Shared) : Step → List Deed
  | .start seeded options =>
    match (s.request Path.root options (.start seeded)).1 with
    | .ok (.started true) => Seed.deeds s.now
    | _ => []
  | .operate number operation =>
    match s.clients[number]? with
    | none => []
    | some client =>
      operation.deeds (s.scene client.cursor)
        (s.request client.cursor client.options (.operate operation)).1
  | .refuse _ | .change _ | .tick _ => []

/-- What some steps did, in order. -/
def history (s : Shared) : List Step → List Deed
  | [] => []
  | step :: steps => s.deeds step ++ (s.step step).history steps

theorem answers_append (s : Shared) (steps steps' : List Step) :
    s.answers (steps ++ steps') = s.answers steps ++ (s.run steps).answers steps' := by
  induction steps generalizing s with
  | nil => rfl
  | cons step steps ih => rw [List.cons_append, answers, answers, ih, List.append_assoc]; rfl

end Shared
end VirtualShell
