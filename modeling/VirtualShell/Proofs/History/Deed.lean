import VirtualShell.Proofs.Routine.Play
import VirtualShell.Proofs.Session.Operation

/-!
# Deeds

A deed is a successful change, as it is known from the outside: from what was asked, from the
working directory, and from the answer.  A birth is a creation where nothing was stored before.
-/

namespace VirtualShell

/-- A file was written, a directory was made, or a path was deleted. -/
inductive Deed where
  | wrote (path content : String) (time : Timestamp) (birth : Bool)
  | made (path : String) (birth : Bool)
  | deleted (path : String)
  deriving DecidableEq, Repr

namespace Deed

/-- The deed brings something into being under a path. -/
def Births (path : String) : Deed → Prop
  | .wrote own _ _ birth => own = path ∧ birth = true
  | .made own birth => own = path ∧ birth = true
  | .deleted _ => False

/-- The deed removes whatever is under a path, because it deletes the path or one above it. -/
def Removes (path : String) : Deed → Prop
  | .deleted own => Path.isWithin path own = true
  | _ => False

/-- The deed that a node of the first tree stands for. -/
def ofNode : Node → Deed
  | .directory path _ _ => .made path true
  | .file path content _ modified => .wrote path content modified true

end Deed

/-- Whether a store answers that there is nothing under a path. -/
def Store.lacks (store : Store) (path : String) : Bool :=
  match store.get path with
  | .ok none => true
  | _ => false

/-- A deed to the path that a text means in a scene. -/
def Scene.deedAt (s : Scene) (raw : String) (deed : String → Deed) : List Deed :=
  match Path.resolve raw s.cursor with
  | .ok path => [deed path]
  | .error _ => []

/-- What an operation did, going by its answer. -/
def Operation.deeds (operation : Operation) (s : Scene)
    (result : Except StorageError Reply) : List Deed :=
  match operation, result with
  | .createFile raw content, .ok (.truth true) =>
    s.deedAt raw fun path => .wrote path content s.now (s.store.lacks path)
  | .touch raw, .ok (.truth true) =>
    s.deedAt raw fun path => .wrote path "" s.now (s.store.lacks path)
  | .createDirectory raw, .ok (.truth true) =>
    s.deedAt raw fun path => .made path (s.store.lacks path)
  | .delete raw, .ok (.truth true) => s.deedAt raw .deleted
  | _, _ => []

/-- What seeding did: everything in the first tree but the root came into being, in the order of the
tree. -/
def Seed.deeds (now : Timestamp) : List Deed :=
  (Seed.tree now).tail.map .ofNode

end VirtualShell
