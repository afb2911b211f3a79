import VirtualShell.Host.Directories

/-!
# Texts that count

Where one of several texts is wanted, those that are missing and those that are empty do not count,
and the first that does is taken.  A home directory is found in this way, and without one there are
no directories of the user.
-/

namespace VirtualShell

/-- There is a text, and it is not empty. -/
def IsGiven (text? : Option String) : Prop :=
  ∃ s, text? = some s ∧ s ≠ ""

theorem not_isGiven_none : ¬ IsGiven none := by
  rintro ⟨s, hs, -⟩
  cases hs

theorem filter_isEmpty_eq_none_iff {text? : Option String} :
    text?.filter (! ·.isEmpty) = none ↔ ¬ IsGiven text? := by
  cases text? with
  | none => simp [not_isGiven_none]
  | some s => simp [IsGiven]

theorem firstGiven_eq_none_iff {texts : List (Option String)} :
    firstGiven texts = none ↔ ∀ text? ∈ texts, ¬ IsGiven text? := by
  simp only [firstGiven, List.findSome?_eq_none_iff, filter_isEmpty_eq_none_iff]

/-- The text that is taken is not empty, and no text before it counts. -/
theorem firstGiven_eq_some_iff {texts : List (Option String)} {s : String} :
    firstGiven texts = some s ↔
      s ≠ "" ∧ ∃ before after, texts = before ++ some s :: after ∧
        ∀ text? ∈ before, ¬ IsGiven text? := by
  simp only [firstGiven, List.findSome?_eq_some_iff, filter_isEmpty_eq_none_iff]
  constructor
  · rintro ⟨before, text?, after, rfl, htext, hbefore⟩
    obtain ⟨rfl, hs⟩ := Option.filter_eq_some_iff.mp htext
    exact ⟨by simpa using hs, before, after, rfl, hbefore⟩
  · rintro ⟨hs, before, after, rfl, hbefore⟩
    refine ⟨before, some s, after, rfl, Option.filter_eq_some_iff.mpr ⟨rfl, ?_⟩, hbefore⟩
    simpa using hs

namespace Directories

variable (place : Surroundings)

/-- There are directories of the user if there is a home directory, and only then. -/
theorem named_eq_error_iff {variableName fallback : String} {fault : Fault} :
    named place variableName fallback = .error fault ↔
      ¬ IsGiven (place.environment.value? "HOME") ∧ ¬ IsGiven place.systemHome := by
  have hhome : home? place = none ↔
      ¬ IsGiven (place.environment.value? "HOME") ∧ ¬ IsGiven place.systemHome := by
    rw [home?, firstGiven_eq_none_iff, List.forall_mem_cons, List.forall_mem_singleton]
  rw [← hhome, named]
  cases home? place with
  | none => cases fault; simp
  | some home => simp

end Directories
end VirtualShell
