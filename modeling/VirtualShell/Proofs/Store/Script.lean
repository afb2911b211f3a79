import VirtualShell.Proofs.Host.Kept
import VirtualShell.Proofs.Store.Contents

/-!
# What is done to a store from outside

A store is given commits, single nodes to put and single paths to remove, and a durable store is
closed and opened again in its directory any number of times.  Whatever is done in which order, a
store that refuses nothing goes on holding the nodes that the changes come to.
-/

namespace VirtualShell

/-- What can be done to a store. -/
inductive StoreStep where
  | commit (changes : List Change)
  | put (node : Node)
  | remove (path : String)
  | reopen
  deriving DecidableEq, Repr

/-- The changes that are asked for. -/
def StoreStep.changes : StoreStep → List Change
  | .commit changes => changes
  | .put node => [.put node]
  | .remove path => [.remove path]
  | .reopen => []

namespace Store

/-- A store that was closed and opened again. A durable one is kept in a directory meanwhile; one in
memory has to stay open. -/
def reopened (disk : Disk) (directory : String) : Store → Except StorageError Store
  | .memory s => .ok (.memory s)
  | .durable s =>
    (((disk.keepStore directory s).openStore directory).1.map .durable).mapError .system

/-- The store after one step. -/
def take (disk : Disk) (directory : String) (s : Store) : StoreStep → Except StorageError Store
  | .commit changes => s.commit changes
  | .put node => s.commit [.put node]
  | .remove path => s.commit [.remove path]
  | .reopen => s.reopened disk directory

/-- The store after some steps, if none of them fails. -/
def takeAll (disk : Disk) (directory : String) (s : Store) (steps : List StoreStep) :
    Except StorageError Store :=
  steps.foldlM (take disk directory) s

variable {s : Store} {nodes : SortedMap String Node}

theorem refuses_apply (s : Store) (change : Change) : (s.apply change).refuses = s.refuses := by
  cases s <;> rfl

theorem refuses_foldl_apply (s : Store) (changes : List Change) :
    (changes.foldl apply s).refuses = s.refuses := by
  induction changes generalizing s with
  | nil => rfl
  | cons change changes ih => rw [List.foldl_cons, ih, refuses_apply]

/-- The store refuses nothing, and keeps these nodes and nothing else. -/
structure Serves (s : Store) (nodes : SortedMap String Node) : Prop where
  holds : s.Holds nodes
  willing : s.refuses = false

theorem Serves.commit (hs : s.Serves nodes) (changes : List Change) :
    ∃ s', s.commit changes = .ok s' ∧
      s'.Serves (changes.foldl MemoryStore.applyChange nodes) := by
  refine ⟨changes.foldl apply s, ?_, hs.holds.foldl_apply changes, ?_⟩
  · rw [commit_eq, hs.willing, if_neg Bool.false_ne_true]
  · rw [refuses_foldl_apply, hs.willing]

section Directory

variable {disk : Disk} {directory : String} (hdirectory : disk.leadsToDirectory directory = true)

include hdirectory

theorem reopened_eq (s : Store) : s.reopened disk directory = .ok s := by
  cases s with
  | memory s => rfl
  | durable s =>
      rw [reopened, Disk.openStore_keepStore hdirectory]
      rfl

theorem Serves.take (hs : s.Serves nodes) (step : StoreStep) :
    ∃ s', s.take disk directory step = .ok s' ∧
      s'.Serves (step.changes.foldl MemoryStore.applyChange nodes) := by
  cases step with
  | commit changes => exact hs.commit changes
  | put node => exact hs.commit [.put node]
  | remove path => exact hs.commit [.remove path]
  | reopen => exact ⟨s, reopened_eq hdirectory s, hs⟩

theorem Serves.takeAll (hs : s.Serves nodes) (steps : List StoreStep) :
    ∃ s', s.takeAll disk directory steps = .ok s' ∧
      s'.Serves ((steps.flatMap StoreStep.changes).foldl MemoryStore.applyChange nodes) := by
  induction steps generalizing s nodes with
  | nil => exact ⟨s, rfl, hs⟩
  | cons step steps ih =>
      obtain ⟨middle, hstep, hmiddle⟩ := hs.take hdirectory step
      obtain ⟨s', hsteps, hs'⟩ := ih hmiddle
      refine ⟨s', ?_, ?_⟩
      · rw [Store.takeAll, List.foldlM_cons, hstep]
        exact hsteps
      · rw [List.flatMap_cons, List.foldl_append]
        exact hs'

end Directory

end Store
end VirtualShell
