import VirtualShell.Host.Disk
import VirtualShell.Proofs.SortedMap

/-!
# What a disk keeps of a store

A store that is kept in a directory is there when the directory is opened again, and nothing else
changes on the disk.
-/

namespace VirtualShell
namespace Disk

section SameRoot

variable {d d' : Disk} (hroot : d'.root = d.root)

include hroot

theorem entry?_congr (t : Trail) : d'.entry? t = d.entry? t := by
  cases t with
  | nil => exact congrArg some hroot
  | cons place above => rfl

/-- Where names lead depends on what lies below the root and on nothing else. -/
theorem follow_congr (t : Trail) (names : List String) : d'.follow t names = d.follow t names := by
  induction names generalizing t with
  | nil => rfl
  | cons name names ih => simp only [follow, entry?_congr hroot, ih]

theorem locate_congr (hdirectory : d'.workingDirectory = d.workingDirectory) (path : String) :
    d'.locate path = d.locate path := by
  rw [locate, locate, route, route, hdirectory]
  simp only [follow_congr hroot]

end SameRoot

section Keep

variable (d : Disk) (path : String) (store : DurableStore)

@[simp]
theorem root_keepStore : (d.keepStore path store).root = d.root := by
  rw [keepStore]
  cases d.locate path <;> rfl

@[simp]
theorem workingDirectory_keepStore :
    (d.keepStore path store).workingDirectory = d.workingDirectory := by
  rw [keepStore]
  cases d.locate path <;> rfl

theorem locate_keepStore (other : String) :
    (d.keepStore path store).locate other = d.locate other :=
  locate_congr (root_keepStore d path store) (workingDirectory_keepStore d path store) other

theorem leadsToDirectory_keepStore (other : String) :
    (d.keepStore path store).leadsToDirectory other = d.leadsToDirectory other := by
  simp only [leadsToDirectory, locate_keepStore, entry?_congr (root_keepStore d path store)]

end Keep

variable {d : Disk} {path : String}

/-- A directory that is there need not be made. -/
theorem createDirectories_of_leadsToDirectory (hdirectory : d.leadsToDirectory path = true) :
    d.createDirectories path = (.ok (), d) := by
  have hmake : d.makeDirectory path = .error .alreadyExists := by
    rw [leadsToDirectory] at hdirectory
    rw [makeDirectory]
    cases hlocate : d.locate path with
    | error e =>
        rw [hlocate] at hdirectory
        cases hdirectory
    | ok t =>
        rw [hlocate] at hdirectory
        cases hentry : d.entry? t with
        | none => simp [hentry] at hdirectory
        | some entry =>
            simp only [bind, Except.bind, hentry]
            rfl
  have hensure : d.ensureDirectory path = (.ok (), d) := by
    rw [ensureDirectory, hmake]
    simp [hdirectory]
  rw [createDirectories]
  cases NativePath.parents path with
  | nil => rfl
  | cons above further => rw [makeDirectories, hensure]

/-- What was kept in a directory is found when it is opened again. -/
theorem openStore_keepStore (hdirectory : d.leadsToDirectory path = true) (store : DurableStore) :
    (d.keepStore path store).openStore path = (.ok store, d.keepStore path store) := by
  have hkept := hdirectory
  rw [← leadsToDirectory_keepStore d path store] at hkept
  rw [openStore, createDirectories_of_leadsToDirectory hkept]
  have hstore : (d.keepStore path store).storeAt path = .ok store := by
    rw [storeAt, locate_keepStore, keepStore]
    cases hlocate : d.locate path with
    | error e =>
        rw [leadsToDirectory, hlocate] at hdirectory
        cases hdirectory
    | ok t =>
        simp only [bind, Except.bind, SortedMap.find?_insert, if_pos]
        rfl
  dsimp only
  rw [hstore]

end Disk
end VirtualShell
