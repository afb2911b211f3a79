import VirtualShell.Routine

/-!
# Text buffers and their handles

A buffer gathers what is written to it. Handles to buffers can be copied, and all copies of a
handle write to the same buffer.
-/

namespace VirtualShell

/-- The text written since the last time it was taken or cleared, and the number of clears. -/
structure Buffer where
  text : String
  clears : Nat
  deriving DecidableEq, Repr

namespace Buffer

/-- The buffer nothing was written to. -/
def empty : Buffer :=
  ⟨"", 0⟩

/-- The buffer with a text appended. -/
def write (b : Buffer) (s : String) : Buffer :=
  { b with text := b.text ++ s }

/-- The buffer without its text. -/
def clear (b : Buffer) : Buffer :=
  ⟨"", b.clears + 1⟩

/-- The text, and the buffer after it was taken out. -/
def take (b : Buffer) : String × Buffer :=
  (b.text, { b with text := "" })

/-- The buffer after what a session put out. Events leave no mark. -/
def add (b : Buffer) : Output → Buffer
  | .text s => b.write s
  | .clear => b.clear
  | .event _ => b

end Buffer

/-- Handles and the buffers they stand for, by number. -/
structure Handles where
  buffers : List Buffer
  targets : List Nat
  deriving DecidableEq, Repr

/-- What can be done with handles. -/
inductive HandleStep where
  | write (handle : Nat) (s : String)
  | clear (handle : Nat)
  | take (handle : Nat)
  | copy (handle : Nat)
  | create
  deriving DecidableEq, Repr

namespace Handles

/-- One handle to one empty buffer. -/
def single : Handles :=
  ⟨[.empty], [0]⟩

/-- The number of the buffer that a handle stands for. -/
def target (h : Handles) (handle : Nat) : Nat :=
  h.targets.getD handle 0

/-- The buffer that a handle stands for. -/
def buffer (h : Handles) (handle : Nat) : Buffer :=
  h.buffers.getD (h.target handle) .empty

/-- Changes the buffer that a handle stands for. -/
def update (h : Handles) (handle : Nat) (f : Buffer → Buffer) : Handles :=
  { h with buffers := h.buffers.modify (h.target handle) f }

/-- The handles after a step, and the text if one was taken. -/
def apply (h : Handles) : HandleStep → Handles × Option String
  | .write handle s => (h.update handle (·.write s), none)
  | .clear handle => (h.update handle Buffer.clear, none)
  | .take handle => (h.update handle fun b => b.take.2, some (h.buffer handle).take.1)
  | .copy handle => ({ h with targets := h.targets ++ [h.target handle] }, none)
  | .create => (⟨h.buffers ++ [.empty], h.targets ++ [h.buffers.length]⟩, none)

/-- What all handles show, in the order they came about. -/
def shown (h : Handles) : List Buffer :=
  (List.range h.targets.length).map h.buffer

end Handles
end VirtualShell
