import VirtualShell.Proofs.Path.Canonical

/-!
# Parents, names and containment

`parent?` and `name` take apart what `join` puts together, and `isWithin` says that one path is
reached from another by going up.  The lemmas on `join` hold for every directory text; only the name
has to be free of separators.
-/

namespace VirtualShell
namespace Path

/-! ### Taking a path apart -/

section Join

variable {directory name : String}

theorem reverse_toList_join :
    (join directory name).toList.reverse =
      name.toList.reverse ++ separator :: directory.toList.reverse := by
  simp

theorem forall_mem_reverse_ne (hname : separator ∉ name.toList) :
    ∀ c ∈ name.toList.reverse, decide (c ≠ separator) = true := by
  intro c hc
  have hne : c ≠ separator := fun heq => hname (heq ▸ List.mem_reverse.mp hc)
  exact decide_eq_true hne

theorem parent?_join (hname : separator ∉ name.toList) :
    parent? (join directory name) = some directory := by
  rw [parent?, reverse_toList_join, List.dropWhile_append_of_pos (forall_mem_reverse_ne hname)]
  simp

theorem name_join (hname : separator ∉ name.toList) : Path.name (join directory name) = name := by
  rw [Path.name, reverse_toList_join, List.takeWhile_append_of_pos (forall_mem_reverse_ne hname)]
  simp

theorem join_ne_self : join directory name ≠ directory := by
  intro heq
  have hlength := congrArg List.length (congrArg String.toList heq)
  simp at hlength

end Join

@[simp]
theorem parent?_root : parent? root = none := rfl

/-- Canonical paths are joined in one way only. -/
theorem join_inj {d d' n n' : String} (hn : separator ∉ n.toList) (hn' : separator ∉ n'.toList) :
    join d n = join d' n' ↔ d = d' ∧ n = n' := by
  constructor
  · intro heq
    have hparent := congrArg parent? heq
    have hname := congrArg Path.name heq
    rw [parent?_join hn, parent?_join hn'] at hparent
    rw [name_join hn, name_join hn'] at hname
    exact ⟨Option.some.inj hparent, hname⟩
  · rintro ⟨rfl, rfl⟩
    rfl

theorem Canonical.join_ne_root {directory name : String} (hname : IsComponent name.toList) :
    Path.join directory name ≠ Path.root := by
  intro heq
  have hparent := congrArg parent? heq
  rw [parent?_join hname.noSeparator, parent?_root] at hparent
  cases hparent

/-- A canonical path has a parent unless it is the root, and is its parent with its name. -/
theorem Canonical.cases_parent {path : String} (hpath : Canonical path) :
    path = root ∨ ∃ parent, parent? path = some parent ∧ Canonical parent ∧
      IsComponent (Path.name path).toList ∧ path = Path.join parent (Path.name path) := by
  cases hpath with
  | atRoot => exact .inl rfl
  | @beneath directory name hdirectory hname =>
      right
      rw [parent?_join hname.noSeparator, name_join hname.noSeparator]
      exact ⟨directory, rfl, hdirectory, hname, rfl⟩

theorem Canonical.parent?_eq_none_iff {path : String} (hpath : Canonical path) :
    parent? path = none ↔ path = root := by
  constructor
  · intro hnone
    rcases hpath.cases_parent with heq | ⟨parent, hparent, -⟩
    · exact heq
    · rw [hnone] at hparent
      cases hparent
  · rintro rfl
    exact parent?_root

theorem Canonical.of_parent? {path parent : String} (hpath : Canonical path)
    (hparent : parent? path = some parent) :
    Canonical parent ∧ IsComponent (Path.name path).toList ∧
      path = Path.join parent (Path.name path) := by
  rcases hpath.cases_parent with rfl | ⟨parent', hparent', hspec⟩
  · simp at hparent
  · rw [hparent] at hparent'
    cases hparent'
    exact hspec

/-! ### Containment -/

theorem toList_childStem (path : String) :
    (childStem path).toList = path.toList ++ [separator] := by
  simp [childStem, separator]

theorem isWithin_iff {path ancestor : String} :
    isWithin path ancestor = true ↔
      path = ancestor ∨ ancestor.toList ++ [separator] <+: path.toList := by
  rw [isWithin, Bool.or_eq_true, beq_iff_eq, List.isPrefixOf_iff_prefix, toList_childStem]

@[simp]
theorem isWithin_self (path : String) : isWithin path path = true := by
  simp [isWithin]

theorem isWithin_trans {path middle ancestor : String} (hlow : isWithin path middle = true)
    (hhigh : isWithin middle ancestor = true) : isWithin path ancestor = true := by
  rw [isWithin_iff] at hlow hhigh ⊢
  rcases hlow with rfl | hlow
  · exact hhigh
  · rcases hhigh with rfl | hhigh
    · exact .inr hlow
    · exact .inr (hhigh.trans ((List.prefix_append _ _).trans hlow))

/-- The root lies in nothing but itself. -/
theorem eq_root_of_isWithin {path : String} (hwithin : isWithin root path = true) :
    path = root := by
  rw [isWithin_iff, toList_root] at hwithin
  rcases hwithin with heq | hwithin
  · exact heq.symm
  · rcases List.prefix_cons_iff.mp hwithin with hnil | ⟨rest, hrest, htail⟩
    · simp at hnil
    · rw [List.prefix_nil] at htail
      subst htail
      obtain ⟨-, hlast⟩ := List.append_inj' (hrest.trans (List.nil_append _).symm) rfl
      exact absurd hlast (by decide)

/-- A stem that ends in a separator does not reach into a name. -/
theorem stem_prefix_append_iff {stem directory name : List Char} (hname : separator ∉ name) :
    stem ++ [separator] <+: directory ++ [separator] ++ name ↔
      stem ++ [separator] <+: directory ++ [separator] := by
  constructor
  · intro hlong
    rcases List.prefix_or_prefix_of_prefix hlong (List.prefix_append _ _) with hshort | hshort
    · exact hshort
    · obtain ⟨rest, hrest⟩ := hshort
      have htail : rest <+: name := by
        rw [← hrest] at hlong
        exact (List.prefix_append_right_inj _).mp hlong
      -- the last separator of the longer stem would lie in the name
      rcases List.eq_nil_or_concat rest with rfl | ⟨front, last, rfl⟩
      · rw [List.append_nil] at hrest
        exact hrest ▸ List.prefix_rfl
      · rw [List.concat_eq_append, ← List.append_assoc] at hrest
        have hlast : [last] = [separator] := (List.append_inj' hrest rfl).2
        refine absurd (htail.subset ?_) hname
        simp [List.cons.inj hlast |>.1]
  · intro hshort
    exact hshort.trans (List.prefix_append _ _)

/-- A path is within another one if they are the same or its parent is. -/
theorem isWithin_join_iff {directory name ancestor : String} (hname : separator ∉ name.toList) :
    isWithin (join directory name) ancestor = true ↔
      join directory name = ancestor ∨ isWithin directory ancestor = true := by
  have hjoin : (join directory name).toList = directory.toList ++ [separator] ++ name.toList := by
    simp
  rw [isWithin_iff, isWithin_iff, hjoin, stem_prefix_append_iff hname, List.prefix_concat_iff,
    List.append_left_inj, String.toList_inj]
  exact or_congr_right (or_congr_left eq_comm)

theorem isWithin_join_self {directory name : String} (hname : separator ∉ name.toList) :
    isWithin (join directory name) directory = true :=
  (isWithin_join_iff hname).mpr (.inr (isWithin_self directory))

theorem length_le_of_isWithin {path ancestor : String} (hwithin : isWithin path ancestor = true) :
    ancestor.toList.length ≤ path.toList.length := by
  rw [isWithin_iff] at hwithin
  rcases hwithin with rfl | hwithin
  · exact Nat.le_refl _
  · have := hwithin.length_le
    simp at this ⊢
    omega

/-- Nothing lies within what lies below it. -/
theorem not_isWithin_join {directory name : String} :
    ¬ isWithin directory (join directory name) = true := by
  intro hwithin
  have hlength := length_le_of_isWithin hwithin
  rw [toList_join, List.length_append, List.length_cons] at hlength
  omega

/-- What one path lies within stands in one line. -/
theorem isWithin_or_isWithin {path first second : String}
    (hfirst : isWithin path first = true) (hsecond : isWithin path second = true) :
    isWithin first second = true ∨ isWithin second first = true := by
  have hline {above below : String}
      (hstem : above.toList ++ [separator] <+: below.toList ++ [separator]) :
      isWithin below above = true := by
    rw [isWithin_iff]
    rcases List.prefix_concat_iff.mp hstem with heq | hshort
    · exact .inl (String.toList_inj.mp (List.append_left_inj _ |>.mp heq)).symm
    · exact .inr hshort
  rw [isWithin_iff] at hfirst hsecond
  rcases hfirst with rfl | hfirst
  · exact .inl (isWithin_iff.mpr hsecond)
  · rcases hsecond with rfl | hsecond
    · exact .inr (isWithin_iff.mpr (.inr hfirst))
    · exact (List.prefix_or_prefix_of_prefix hfirst hsecond).symm.imp hline hline

/-- A path lies where its parent does. -/
theorem Canonical.isWithin_of_parent? {path parent : String} (hpath : Canonical path)
    (hparent : parent? path = some parent) {ancestor : String}
    (hwithin : isWithin parent ancestor = true) : isWithin path ancestor = true := by
  obtain ⟨-, hname, hjoin⟩ := hpath.of_parent? hparent
  rw [hjoin]
  exact isWithin_trans (isWithin_join_self hname.noSeparator) hwithin

/-! ### One component below -/

/-- The keys directly below a path are the path with one more component. -/
theorem isDirectChild_iff {key path : String} :
    isDirectChild key (childStem path) = true ↔
      ∃ name, name ≠ "" ∧ separator ∉ name.toList ∧ key = join path name := by
  have hlength : (childStem path).length = (path.toList ++ [separator]).length := by
    rw [← toList_childStem, String.length_toList]
  simp only [isDirectChild, Bool.and_eq_true, Bool.not_eq_true', List.isPrefixOf_iff_prefix,
    toList_childStem, hlength]
  constructor
  · rintro ⟨⟨rest, hrest⟩, hempty, hseparator⟩
    rw [← hrest, List.drop_left] at hempty hseparator
    refine ⟨String.ofList rest, ?_, ?_, ?_⟩
    · intro hnil
      have := congrArg String.toList hnil
      simp_all
    · simpa using hseparator
    · apply String.toList_inj.mp
      rw [toList_join, String.toList_ofList, ← hrest, List.append_assoc, List.singleton_append]
  · rintro ⟨name, hname, hseparator, rfl⟩
    have hsplit : (join path name).toList = (path.toList ++ [separator]) ++ name.toList := by
      rw [toList_join, List.append_assoc, List.singleton_append]
    rw [hsplit, List.drop_left]
    refine ⟨List.prefix_append _ _, ?_, ?_⟩
    · simpa using hname
    · simpa using hseparator

end Path
end VirtualShell
