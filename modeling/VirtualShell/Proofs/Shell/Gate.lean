import Mathlib.Data.List.Nodup
import VirtualShell.Shell.Gate

/-!
# A gate as a line

Who was granted access and those who wait for it stand in one line, the first of whom has access.
Arriving goes to the end of the line, leaving takes the first one off, and giving up takes somebody
out wherever they stand.  Each operation of a gate has one equation for this; nothing else about
gates is used later on.
-/

namespace VirtualShell
namespace Gate

variable {α : Type}

/-- The gate before which some stand in line. -/
def ofLine (value : α) (inUse : Bool) (line : List Nat) : Gate α where
  value := value
  inUse := inUse
  holder := line.head?
  queue := line.tail

section OfLine

variable (value : α) (inUse : Bool)

@[simp]
theorem value_ofLine (line : List Nat) : (ofLine value inUse line).value = value := rfl

@[simp]
theorem holder_ofLine (line : List Nat) : (ofLine value inUse line).holder = line.head? := rfl

theorem state_ofLine (line : List Nat) :
    (ofLine value inUse line).state = .executing ↔ inUse = true := by
  cases inUse <;> simp [state, ofLine]

@[simp]
theorem arrive_ofLine (line : List Nat) (entrant : Nat) :
    (ofLine value inUse line).arrive entrant = ofLine value inUse (line ++ [entrant]) := by
  cases line <;> rfl

@[simp]
theorem comeIn_ofLine (line : List Nat) :
    (ofLine value inUse line).comeIn = ofLine value true line := rfl

@[simp]
theorem leave_ofLine (line : List Nat) :
    (ofLine value inUse line).leave = ofLine value false line.tail := rfl

theorem admits_ofLine (line : List Nat) (entrant : Nat) :
    (ofLine value inUse line).admits entrant = true ↔ line.head? = some entrant := by
  rw [admits, beq_iff_eq, holder_ofLine]

@[simp]
theorem admits_ofLine_self (first : Nat) (line : List Nat) :
    (ofLine value inUse (first :: line)).admits first = true :=
  (admits_ofLine value inUse _ _).mpr rfl

/-- Only the first in line has access. -/
theorem admits_ofLine_of_ne {first entrant : Nat} (line : List Nat) (hne : entrant ≠ first) :
    (ofLine value inUse (first :: line)).admits entrant = false := by
  rw [Bool.eq_false_iff, Ne, admits_ofLine]
  intro hhead
  exact hne (Option.some.inj hhead).symm

@[simp]
theorem giveUp_ofLine (line : List Nat) (entrant : Nat) :
    (ofLine value inUse line).giveUp entrant = ofLine value inUse (line.erase entrant) := by
  cases line with
  | nil => rfl
  | cons first line =>
      by_cases hfirst : entrant = first
      · subst hfirst
        rw [giveUp, if_pos (admits_ofLine_self value inUse entrant line), List.erase_cons_head]
        rfl
      · rw [giveUp, admits_ofLine_of_ne value inUse line hfirst, if_neg Bool.false_ne_true,
          List.erase_cons_tail (by simpa using Ne.symm hfirst)]
        rfl

end OfLine

end Gate
end VirtualShell
