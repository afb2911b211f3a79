import VirtualShell.Program
import VirtualShell.Proofs.Host.Calls
import VirtualShell.Proofs.Settings.Layered

/-!
# Loading settings

The program loads the layers one after the other, and lets the options of the command line go over all
of them.  What it comes to is settled setting by setting, so whatever is changed about one setting
leaves the others as they are, and an empty group is as good as none.
-/

namespace VirtualShell

namespace Settings

/-- The layers that settings are loaded from, the topmost last. -/
def layersOf (place : Surroundings) (common explicit : List (String × Tree)) :
    List (List (String × Tree)) :=
  [common, explicit, environmentLayer place.environment]

section Load

variable {μ : Type} {answer : μ → (c : HostCall) → c.Answer × μ} {m m₁ m₂ : μ}
  {place : Surroundings} {common explicit : List (String × Tree)}

theorem run_load {name : Option String}
    (hcommon : (commonLayer place).run answer m = (.ok common, m₁))
    (hexplicit : (explicitLayer place name).run answer m₁ = (.ok explicit, m₂)) :
    (load place name).run answer m = (ofLayers (layersOf place common explicit), m₂) := by
  change ((commonLayer place).bind _).run answer m = _
  rw [HostTask.run_bind, hcommon]
  change ((explicitLayer place name).bind _).run answer m₁ = _
  rw [HostTask.run_bind, hexplicit]
  rfl

end Load

end Settings

namespace CommandLine

open Settings (Setting)

end CommandLine

/-! ### Empty groups -/

namespace Settings

section EmptyGroup

variable (front back : List (String × Tree)) (group : Group) (origin : Option String)

theorem writtenEntry_group (t : Tree) : writtenEntry (group.name, t) = (group.name, t) := by
  have haddress : Address.ofText group.name = ⟨group.name, []⟩ := by
    cases group <;> decide +kernel
  rw [writtenEntry, haddress]
  rfl

theorem lowercase_name : Text.lowercase group.name = group.name := by
  cases group <;> decide +kernel

end EmptyGroup

end Settings

/-! ### All of it -/

namespace Program

open CommandLine (Options)
open Settings

end Program

end VirtualShell
