import VirtualShell.Path
import VirtualShell.Proofs.Text.Runs

/-!
# Components and the text of a path

`ofComponents` writes a list of components below the root, `split` cuts a text at its separators
and `components` reads the list back.  Reading inverts writing for components that are not empty
and hold no separator, which is what makes a canonical path the same thing as a list of components.
-/

namespace VirtualShell
namespace Path

/-- What may stand between two separators of a canonical path. -/
structure IsComponent (part : List Char) : Prop where
  ne_nil : part ≠ []
  ne_dot : part ≠ ['.']
  ne_dots : part ≠ ['.', '.']
  noSeparator : separator ∉ part
  noControl : ∀ c ∈ part, Text.isControl c = false

/-! ### Cutting at separators -/

theorem split_eq_splitOn (text : List Char) : split text = text.splitOn separator := by
  induction text with
  | nil => rfl
  | cons c cs ih =>
      obtain ⟨part, parts, hparts⟩ :=
        List.exists_cons_of_ne_nil (List.splitOn_ne_nil separator cs)
      rw [split, ih, List.splitOn_cons_eq_if_modifyHead, hparts]
      simp only [beq_iff_eq, List.modifyHead_cons]

/-- What stands before a separator and what stands behind it are cut each on its own. -/
theorem split_append (text rest : List Char) :
    split (text ++ separator :: rest) = split text ++ split rest := by
  rw [split_eq_splitOn, split_eq_splitOn, split_eq_splitOn, List.splitOn_append_cons_self]

theorem split_of_notMem {part : List Char} (hpart : separator ∉ part) : split part = [part] := by
  rw [split_eq_splitOn, List.splitOn_eq_singleton hpart]

theorem split_append_flatMap {part : List Char} {parts : List (List Char)}
    (hpart : separator ∉ part) (hparts : ∀ p ∈ parts, separator ∉ p) :
    split (part ++ parts.flatMap fun p => separator :: p) = part :: parts := by
  induction parts generalizing part with
  | nil => simpa using split_of_notMem hpart
  | cons next parts ih =>
      rw [List.forall_mem_cons] at hparts
      rw [List.flatMap_cons, List.cons_append, split_append, split_of_notMem hpart,
        ih hparts.1 hparts.2, List.singleton_append]

/-- The pieces hold no separator, and nothing that the text does not hold. -/
theorem of_mem_split {text part : List Char} (hpart : part ∈ split text) :
    separator ∉ part ∧ ∀ c ∈ part, c ∈ text := by
  rw [split_eq_splitOn] at hpart
  exact of_mem_splitOn hpart

/-! ### Writing and reading -/

@[simp]
theorem toList_root : root.toList = ['~'] := rfl

theorem toList_ofComponents (parts : List (List Char)) :
    (ofComponents parts).toList = '~' :: parts.flatMap fun part => separator :: part := by
  simp [ofComponents]

@[simp]
theorem ofComponents_nil : ofComponents [] = root := by
  apply String.toList_inj.mp
  simp [toList_ofComponents]

@[simp]
theorem toList_join (directory name : String) :
    (join directory name).toList = directory.toList ++ separator :: name.toList := by
  simp [join, separator]

theorem ofComponents_append (parts : List (List Char)) (part : List Char) :
    ofComponents (parts ++ [part]) = join (ofComponents parts) (String.ofList part) := by
  apply String.toList_inj.mp
  simp [toList_ofComponents]

/-- A part that is read back where it was written. -/
structure IsSolid (part : List Char) : Prop where
  ne_nil : part ≠ []
  noSeparator : separator ∉ part

theorem IsComponent.isSolid {part : List Char} (hpart : IsComponent part) : IsSolid part :=
  ⟨hpart.ne_nil, hpart.noSeparator⟩

theorem mem_split_of_mem_components {path : String} {part : List Char}
    (hpart : part ∈ components path) : part ∈ split path.toList ∧ part ≠ [] := by
  rw [components, List.mem_filter] at hpart
  obtain ⟨hmem, hnonempty⟩ := hpart
  refine ⟨?_, by simpa using hnonempty⟩
  split at hmem
  · exact List.mem_of_mem_tail hmem
  · exact hmem

/-- Whatever is read from a text can be written and read back. -/
theorem isSolid_of_mem_components {path : String} {part : List Char}
    (hpart : part ∈ components path) : IsSolid part := by
  obtain ⟨hsplit, hne⟩ := mem_split_of_mem_components hpart
  exact ⟨hne, (of_mem_split hsplit).1⟩

theorem components_of_isSolid {parts : List (List Char)} (hparts : ∀ part ∈ parts, IsSolid part) :
    components (ofComponents parts) = parts := by
  have hroot : separator ∉ ['~'] := by decide
  have hsplit : split (ofComponents parts).toList = ['~'] :: parts := by
    rw [toList_ofComponents]
    exact split_append_flatMap hroot fun part hpart => (hparts part hpart).noSeparator
  have hnonempty : ∀ part ∈ parts, (!part.isEmpty) = true := by
    intro part hpart
    simpa using (hparts part hpart).ne_nil
  simp [components, hsplit, List.filter_eq_self.mpr hnonempty]

/-- Reading gives back what was written. -/
theorem components_ofComponents {parts : List (List Char)}
    (hparts : ∀ part ∈ parts, IsComponent part) : components (ofComponents parts) = parts :=
  components_of_isSolid fun part hpart => (hparts part hpart).isSolid

end Path
end VirtualShell
