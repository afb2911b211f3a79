/-!
# A gate for one at a time

A gate holds a value that one entrant at a time may use. Access is granted in the order of arrival:
who leaves passes it on to the one who has waited longest, and who gives up waiting after access
was granted passes it on as well. Whether the gate counts as in use is noted when an entrant comes
in and when one leaves.
-/

namespace VirtualShell

/-- A gate before a value. Entrants are told apart by numbers. -/
structure Gate (α : Type) where
  value : α
  inUse : Bool
  /-- Who was granted access and did not pass it on. -/
  holder : Option Nat
  /-- Who waits for access, the first to come first. -/
  queue : List Nat

/-- What a gate tells of itself. -/
inductive GateState where
  | idle
  | executing
  deriving DecidableEq, Repr

namespace Gate

variable {α : Type}

/-- The gate that nobody has come to. -/
def ofValue (value : α) : Gate α where
  value
  inUse := false
  holder := none
  queue := []

/-- Whether the gate counts as in use. -/
def state (g : Gate α) : GateState :=
  if g.inUse then .executing else .idle

/-- Whether access was granted to an entrant. -/
def admits (g : Gate α) (entrant : Nat) : Bool :=
  g.holder == some entrant

/-- An entrant arrives. It is granted access if nobody has it, and waits otherwise. -/
def arrive (g : Gate α) (entrant : Nat) : Gate α :=
  match g.holder with
  | none => { g with holder := some entrant }
  | some _ => { g with queue := g.queue ++ [entrant] }

/-- An entrant comes in to which access was granted. -/
def comeIn (g : Gate α) : Gate α :=
  { g with inUse := true }

/-- Access is passed on to the first who waits. -/
def passOn (g : Gate α) : Gate α :=
  { g with holder := g.queue.head?, queue := g.queue.tail }

/-- The entrant inside leaves. -/
def leave (g : Gate α) : Gate α :=
  { g with inUse := false }.passOn

/-- An entrant that is not inside gives up. -/
def giveUp (g : Gate α) (entrant : Nat) : Gate α :=
  if g.admits entrant then g.passOn else { g with queue := g.queue.erase entrant }

end Gate

/-! ### Entrants -/

/-- How far an entrant has come. -/
inductive EntrantStage where
  | started
  | waiting
  | inside
  deriving DecidableEq, Repr

/-- An entrant with a number of its own, and a name that others may have too. -/
structure Entrant where
  number : Nat
  name : Int
  stage : EntrantStage
  deriving DecidableEq, Repr

/-- A gate before a list, and those who are at the gate in the order they started. -/
structure Crowd where
  gate : Gate (List Int)
  entrants : List Entrant
  next : Nat

/-- What can happen at a gate. -/
inductive CrowdStep where
  | enter (name : Int)
  | leave (name : Int)
  | push (value : Int)
  deriving DecidableEq, Repr

namespace Crowd

/-- Nobody at a gate before an empty list. -/
def empty : Crowd where
  gate := .ofValue []
  entrants := []
  next := 0

/-- The gate after an entrant was dropped. -/
def dropEntrant (gate : Gate (List Int)) (entrant : Entrant) : Gate (List Int) :=
  match entrant.stage with
  | .started => gate
  | .waiting => gate.giveUp entrant.number
  | .inside => gate.leave

/-- Those inside before those who wait, each in their order. -/
def insideFirst (entrants : List Entrant) : List Entrant :=
  entrants.filter (·.stage = .inside) ++ entrants.filter (·.stage ≠ .inside)

/-- What happens at once: somebody starts, all of a name go, or the one inside adds to the list. -/
def act (c : Crowd) : CrowdStep → Crowd
  | .enter name =>
    { c with entrants := c.entrants ++ [⟨c.next, name, .started⟩], next := c.next + 1 }
  | .leave name =>
    { c with
      gate := (insideFirst (c.entrants.filter (·.name = name))).foldl dropEntrant c.gate
      entrants := c.entrants.filter (·.name ≠ name) }
  | .push value =>
    if c.entrants.any (·.stage = .inside) then
      { c with gate := { c.gate with value := c.gate.value ++ [value] } }
    else c

/-- An entrant looks whether it may come in. -/
def pollEntrant (gate : Gate (List Int)) (entrant : Entrant) : Gate (List Int) × Entrant :=
  let arrived := if entrant.stage = .started then gate.arrive entrant.number else gate
  if entrant.stage = .inside then (gate, entrant)
  else if arrived.admits entrant.number then (arrived.comeIn, { entrant with stage := .inside })
  else (arrived, { entrant with stage := .waiting })

/-- All entrants look in turn. -/
def pollAll (gate : Gate (List Int)) : List Entrant → Gate (List Int) × List Entrant
  | [] => (gate, [])
  | entrant :: rest =>
    let (gate, entrant) := pollEntrant gate entrant
    let (gate, rest) := pollAll gate rest
    (gate, entrant :: rest)

/-- The crowd after all entrants have looked. -/
def poll (c : Crowd) : Crowd :=
  let (gate, entrants) := pollAll c.gate c.entrants
  { c with gate, entrants }

/-- One step, after which everybody looks whether they may come in. -/
def step (c : Crowd) (s : CrowdStep) : Crowd :=
  (c.act s).poll

/-- The names of those inside. -/
def held (c : Crowd) : List Int :=
  (c.entrants.filter (·.stage = .inside)).map (·.name)

/-- The names of those who are not inside. -/
def waiting (c : Crowd) : List Int :=
  (c.entrants.filter (·.stage ≠ .inside)).map (·.name)

/-- The list behind the gate, if somebody is inside to see it. -/
def visibleValue (c : Crowd) : Option (List Int) :=
  if c.held.isEmpty then none else some c.gate.value

end Crowd
end VirtualShell
