import VirtualShell.Host.Disk

/-!
# Which calls a task makes

On a given machine a task makes one call after the other.  Some calls make directories, files or
stores; a task that makes none of these on a disk leaves it as it is, but for the lines that were
written for the user.
-/

namespace VirtualShell

/-- Whether a call makes something if it is not there. -/
def HostCall.makes : HostCall → Bool
  | .createDirectories _ | .openLog _ | .openStore _ => true
  | .isFile _ | .content _ | .warn _ => false

namespace HostTask

section Calls

variable {α β μ : Type} (answer : μ → (c : HostCall) → c.Answer × μ)

/-- The calls that a task makes on a machine that make something, in order. -/
def makings : HostTask α → μ → List HostCall
  | .done _, _ => []
  | .call c next, m =>
    (if c.makes then [c] else []) ++ (next (answer m c).1).makings (answer m c).2

/-- A task after another one starts on the machine that the first one leaves. -/
theorem run_bind (task : HostTask α) (next : α → HostTask β) (m : μ) :
    (task.bind next).run answer m =
      (next (task.run answer m).1).run answer (task.run answer m).2 := by
  induction task generalizing m with
  | done value => rfl
  | call c rest ih => exact ih (answer m c).1 (answer m c).2

theorem makings_bind (task : HostTask α) (next : α → HostTask β) (m : μ) :
    (task.bind next).makings answer m =
      task.makings answer m ++
        (next (task.run answer m).1).makings answer (task.run answer m).2 := by
  induction task generalizing m with
  | done value => rfl
  | call c rest ih =>
      rw [bind, makings, makings, List.append_assoc]
      exact congrArg _ (ih (answer m c).1 (answer m c).2)

/-- Writing lines for the user makes nothing. -/
theorem makings_warn (lines : List String) (m : μ) : (warn lines).makings answer m = [] := by
  induction lines generalizing m with
  | nil => rfl
  | cons line lines ih => exact ih (answer m (.warn line)).2

end Calls

/-- A task that makes nothing leaves on a disk no more than lines for the user. -/
theorem run_disk_of_makings_eq_nil {α : Type} {task : HostTask α} {d : Disk}
    (hmakings : task.makings Disk.answer d = []) :
    ∃ lines, (task.run Disk.answer d).2 = { d with warnings := d.warnings ++ lines } := by
  induction task generalizing d with
  | done value => exact ⟨[], by rw [List.append_nil]; rfl⟩
  | call c next ih =>
      rw [makings, List.append_eq_nil_iff] at hmakings
      obtain ⟨hcall, hnext⟩ := hmakings
      have hrest := ih (d.answer c).1 hnext
      cases c with
      | isFile path => exact hrest
      | content path => exact hrest
      | warn line =>
          obtain ⟨lines, hlines⟩ := hrest
          refine ⟨line :: lines, hlines.trans ?_⟩
          simp [Disk.answer]
      | createDirectories path => cases hcall
      | openLog path => cases hcall
      | openStore path => cases hcall

end HostTask
end VirtualShell
