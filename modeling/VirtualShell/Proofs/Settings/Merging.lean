import VirtualShell.Settings.Layers
import VirtualShell.Proofs.Settings.Reading

/-!
# Merging trees

A tree can be asked in two ways what stands at the end of some keys.  In a tree as it was written keys
may be repeated, in any letters, and the last one that says something counts; in a tree that was
merged each key stands once.  Merging puts the one over the other: at the end of a path to a value
the merged tree has what was written there, or else what it had before.  This needs that nothing but
tables stands on the way, which is what a shape says of a tree.
-/

namespace VirtualShell
namespace Settings

/-! ### Paths into trees -/

namespace Tree

/-- What a merged tree has at the end of some keys. -/
def at? : List String → Tree → Option Tree
  | [], t => some t
  | key :: path, t => (t.entries.lookup key).bind (at? path)

/-- What a written tree says at the end of some keys, which are given in small letters. -/
def said? : List String → Tree → Option Tree
  | [], t => some t
  | key :: path, t =>
    t.entries.reverse.findSome? fun entry =>
      if Text.lowercase entry.1 = key then said? path entry.2 else none

variable {key : String} {path : List String} {origin : Option String}

theorem said?_table_nil : said? (key :: path) (.table [] origin) = none := rfl

theorem said?_table_single {entry : String × Tree} :
    said? (key :: path) (.table [entry] origin) =
      if Text.lowercase entry.1 = key then said? path entry.2 else none := by
  simp [said?, entries]

/-- Of the entries of a table the later ones count first. -/
theorem said?_table_append (before after : List (String × Tree)) :
    said? (key :: path) (.table (before ++ after) origin) =
      (said? (key :: path) (.table after origin)).or
        (said? (key :: path) (.table before origin)) := by
  simp only [said?, entries, List.reverse_append, List.findSome?_append]

end Tree

/-! ### Shapes -/

/-- What is expected of a tree. -/
inductive Shape where
  /-- Nothing at all. -/
  | free
  /-- A value that can be taken as one of a kind. -/
  | value (kind : Kind)
  /-- A table with something expected under each key. -/
  | group (part : String → Shape)

namespace Shape

/-- Whether a written tree is as expected. -/
def fits : Shape → Tree → Bool
  | free, _ => true
  | value kind, .leaf scalar origin => (treeForm.take kind (.leaf scalar origin)).isOk
  | group part, .table entries _ =>
    entries.all fun entry => (part (Text.lowercase entry.1)).fits entry.2
  | _, _ => false

/-- A merged tree is as expected, with every key of a group once. -/
def Merged : Shape → Tree → Prop
  | free, _ => True
  | value kind, t => (value kind).fits t = true
  | group part, t => ∃ entries origin, t = .table entries origin ∧
      (entries.map Prod.fst).Nodup ∧ ∀ entry ∈ entries, (part entry.1).Merged entry.2

/-- Some keys lead through groups to a value. -/
def Leads : Shape → List String → Prop
  | value _, [] => True
  | group part, key :: path => (part key).Leads path
  | _, _ => False

variable {part : String → Shape} {kind : Kind} {t t' : Tree}

theorem exists_leaf_of_fits (hfits : (value kind).fits t = true) :
    ∃ scalar origin a, t = .leaf scalar origin ∧ treeForm.take kind t = .ok a := by
  cases t with
  | leaf scalar origin =>
      rw [fits] at hfits
      cases htake : treeForm.take kind (.leaf scalar origin) with
      | error fault =>
          rw [htake] at hfits
          cases hfits
      | ok a => exact ⟨scalar, origin, a, rfl, rfl⟩
  | list items origin => cases hfits
  | table entries origin => cases hfits

theorem exists_table_of_fits (hfits : (group part).fits t = true) :
    ∃ entries origin, t = .table entries origin ∧
      ∀ entry ∈ entries, (part (Text.lowercase entry.1)).fits entry.2 = true := by
  cases t with
  | leaf scalar origin => cases hfits
  | list items origin => cases hfits
  | table entries origin => exact ⟨entries, origin, rfl, List.all_eq_true.mp hfits⟩

theorem merged_emptyTable : (group part).Merged Tree.emptyTable :=
  ⟨[], none, rfl, List.nodup_nil, by simp⟩

/-- What a merged group has under a key is as expected there. -/
theorem Merged.of_lookup {key : String} {child : Tree} (ht : (group part).Merged t)
    (hchild : t.entries.lookup key = some child) : (part key).Merged child := by
  obtain ⟨entries, origin, rfl, -, hparts⟩ := ht
  obtain ⟨before, after, hentries, -⟩ := List.lookup_eq_some_iff.mp hchild
  obtain rfl : entries = before ++ (key, child) :: after := hentries
  exact hparts (key, child) (by simp)

/-- The written tree went over the tree before: what it says at the end of a path to a value is there
now, and where it says nothing all is as before. -/
def Covers (shape : Shape) (written before after : Tree) : Prop :=
  shape.Merged after ∧ ∀ path, shape.Leads path →
    after.at? path = (written.said? path).or (before.at? path)

theorem Covers.trans {first second : List (String × Tree)} {origin : Option String} {t'' : Tree}
    (hfirst : (group part).Covers (.table first origin) t t')
    (hsecond : (group part).Covers (.table second origin) t' t'') :
    (group part).Covers (.table (first ++ second) origin) t t'' := by
  refine ⟨hsecond.1, fun path hpath => ?_⟩
  cases path with
  | nil => cases hpath
  | cons key path =>
      rw [hsecond.2 _ hpath, hfirst.2 _ hpath, Tree.said?_table_append, Option.or_assoc]

end Shape

/-! ### Changing an entry -/

namespace Tree

variable {key : String} {change : Option Tree → Tree}

theorem lookup_alterEntry (entries : List (String × Tree)) (other : String) :
    (alterEntry key change entries).lookup other =
      if other = key then some (change (entries.lookup key)) else entries.lookup other := by
  induction entries with
  | nil => rw [alterEntry, lookup_cons_ite, List.lookup_nil, List.lookup_nil]
  | cons entry entries ih =>
      obtain ⟨name, t⟩ := entry
      rw [alterEntry]
      by_cases hname : name = key
      · subst hname
        rw [if_pos rfl, lookup_cons_ite, lookup_cons_ite, lookup_cons_ite, if_pos rfl]
        split <;> rfl
      · rw [if_neg hname, lookup_cons_ite, lookup_cons_ite, lookup_cons_ite, ih,
          if_neg (Ne.symm hname)]
        by_cases hother : other = name
        · subst hother
          rw [if_pos rfl, if_neg hname, if_pos rfl]
        · rw [if_neg hother, if_neg hother]

theorem of_mem_alterEntry {entries : List (String × Tree)} {entry : String × Tree}
    (hentry : entry ∈ alterEntry key change entries) :
    entry = (key, change (entries.lookup key)) ∨ entry ∈ entries := by
  induction entries with
  | nil => exact .inl (List.mem_singleton.mp hentry)
  | cons first entries ih =>
      obtain ⟨name, t⟩ := first
      rw [alterEntry] at hentry
      by_cases hname : name = key
      · subst hname
        rw [if_pos rfl] at hentry
        rcases List.mem_cons.mp hentry with rfl | hentry
        · exact .inl (by rw [lookup_cons_ite, if_pos rfl])
        · exact .inr (List.mem_cons_of_mem _ hentry)
      · rw [if_neg hname] at hentry
        rcases List.mem_cons.mp hentry with rfl | hentry
        · exact .inr List.mem_cons_self
        · rw [lookup_cons_ite, if_neg (Ne.symm hname)]
          exact (ih hentry).imp_right (List.mem_cons_of_mem _)

theorem map_fst_alterEntry (entries : List (String × Tree)) :
    (alterEntry key change entries).map Prod.fst =
      if key ∈ entries.map Prod.fst then entries.map Prod.fst
      else entries.map Prod.fst ++ [key] := by
  induction entries with
  | nil => rfl
  | cons entry entries ih =>
      rw [alterEntry]
      by_cases hname : entry.1 = key
      · simp [hname]
      · rw [if_neg hname, List.map_cons, ih, List.map_cons]
        by_cases hmem : key ∈ entries.map Prod.fst
        · rw [if_pos hmem, if_pos (List.mem_cons_of_mem _ hmem)]
        · rw [if_neg hmem, if_neg (by simp [hmem, Ne.symm hname]), List.cons_append]

theorem nodup_alterEntry {entries : List (String × Tree)} (hnodup : (entries.map Prod.fst).Nodup) :
    ((alterEntry key change entries).map Prod.fst).Nodup := by
  rw [map_fst_alterEntry]
  split
  · exact hnodup
  · rename_i hmem
    exact List.concat_eq_append ▸ hnodup.concat hmem

end Tree

/-! ### Putting one tree over another -/

theorem Tree.put_leaf (t : Tree) (key : String) (scalar : Scalar) (origin : Option String) :
    t.put key (.leaf scalar origin) = t.alter key fun _ => .leaf scalar origin := by
  rw [Tree.put]
  simp

theorem Tree.put_table (t : Tree) (key : String) (entries : List (String × Tree))
    (origin : Option String) : t.put key (.table entries origin) =
      t.alter key fun old => (old.getD Tree.emptyTable).putAll entries := by
  rw [Tree.put]

theorem Tree.exists_put_eq (t : Tree) (key : String) (w : Tree) :
    ∃ change, t.put key w = t.alter key change := by
  cases w with
  | leaf scalar origin => exact ⟨_, t.put_leaf key scalar origin⟩
  | table entries origin => exact ⟨_, t.put_table key entries origin⟩
  | list items origin =>
      refine ⟨fun _ => .list items origin, ?_⟩
      rw [Tree.put]
      simp

namespace Shape

variable {part : String → Shape} {t : Tree} {key : String} {change : Option Tree → Tree}
  {w : Tree}

/-- A change of one entry puts a tree over a group if it puts it over what the group has there. -/
theorem covers_alter (ht : (group part).Merged t)
    (hmerged : (part (Text.lowercase key)).Merged (change (t.entries.lookup (Text.lowercase key))))
    (hchange : ∀ path, (part (Text.lowercase key)).Leads path →
      (change (t.entries.lookup (Text.lowercase key))).at? path =
        (w.said? path).or ((t.entries.lookup (Text.lowercase key)).bind (Tree.at? path)))
    (origin : Option String) :
    (group part).Covers (.table [(key, w)] origin) t (t.alter key change) := by
  obtain ⟨entries, tableOrigin, rfl, hnodup, hparts⟩ := ht
  constructor
  · refine ⟨_, tableOrigin, rfl, Tree.nodup_alterEntry hnodup, fun entry hentry => ?_⟩
    rcases Tree.of_mem_alterEntry hentry with rfl | hentry
    · exact hmerged
    · exact hparts entry hentry
  · intro path hpath
    cases path with
    | nil => cases hpath
    | cons first path =>
        have hat : ((Tree.table entries tableOrigin).alter key change).at? (first :: path) =
            ((Tree.alterEntry (Text.lowercase key) change entries).lookup first).bind
              (Tree.at? path) := rfl
        rw [hat, Tree.lookup_alterEntry, Tree.said?_table_single]
        by_cases hfirst : Text.lowercase key = first
        · subst hfirst
          rw [if_pos rfl, if_pos rfl]
          exact hchange path hpath
        · rw [if_neg (Ne.symm hfirst), if_neg hfirst, Option.none_or]
          rfl

/-- Where nothing is expected, any change will do. -/
theorem covers_alter_of_free (ht : (group part).Merged t)
    (hfree : part (Text.lowercase key) = free) (origin : Option String) :
    (group part).Covers (.table [(key, w)] origin) t (t.alter key change) := by
  refine covers_alter ht ?_ (fun path hpath => ?_) origin
  · rw [hfree]
    trivial
  · rw [hfree] at hpath
    cases path <;> cases hpath

/-- A change of one entry puts a tree over a group if it puts it over every group, an empty one taking
the place of none. -/
theorem covers_alter_of_group {inner : String → Shape} {f : Tree → Tree}
    (ht : (group part).Merged t) (hinner : part (Text.lowercase key) = group inner)
    (hf : ∀ child, (group inner).Merged child → (group inner).Covers w child (f child))
    (origin : Option String) :
    (group part).Covers (.table [(key, w)] origin) t
      (t.alter key fun old => f (old.getD Tree.emptyTable)) := by
  have hchild : (group inner).Merged ((t.entries.lookup (Text.lowercase key)).getD
      Tree.emptyTable) := by
    cases hold : t.entries.lookup (Text.lowercase key) with
    | none => exact merged_emptyTable
    | some child => exact hinner ▸ ht.of_lookup hold
  obtain ⟨hmerged, hat⟩ := hf _ hchild
  refine covers_alter ht (by rwa [hinner]) (fun path hpath => ?_) origin
  rw [hinner] at hpath
  rw [hat path hpath]
  -- a path to a value does not end at the group, so an empty table has nothing there
  cases path with
  | nil => cases hpath
  | cons first path => cases t.entries.lookup (Text.lowercase key) <;> rfl

/-- Putting a written tree under a key puts it over what is there. -/
theorem covers_put {shape : Shape} (ht : (group part).Merged t)
    (hshape : part (Text.lowercase key) = shape) (hfits : shape.fits w = true)
    (origin : Option String) :
    (group part).Covers (.table [(key, w)] origin) t (t.put key w) := by
  induction shape generalizing part t key w origin with
  | free =>
      obtain ⟨change, hchange⟩ := t.exists_put_eq key w
      rw [hchange]
      exact covers_alter_of_free ht hshape origin
  | value kind =>
      obtain ⟨scalar, leafOrigin, a, rfl, -⟩ := exists_leaf_of_fits hfits
      rw [Tree.put_leaf]
      refine covers_alter ht (by rw [hshape]; exact hfits) (fun path hpath => ?_) origin
      rw [hshape] at hpath
      cases path with
      | nil => rfl
      | cons first path => cases hpath
  | group inner ih =>
      obtain ⟨entries, tableOrigin, rfl, hentries⟩ := exists_table_of_fits hfits
      rw [Tree.put_table]
      refine covers_alter_of_group (f := fun child => child.putAll entries) ht hshape
        (fun child hchild => ?_) origin
      -- the entries are put over the child one after the other
      clear hfits
      induction entries generalizing child with
      | nil =>
          rw [Tree.putAll]
          refine ⟨hchild, fun path hpath => ?_⟩
          cases path with
          | nil => cases hpath
          | cons first path => rw [Tree.said?_table_nil, Option.none_or]
      | cons entry entries ihEntries =>
          rw [List.forall_mem_cons] at hentries
          rw [Tree.putAll]
          have hfirst := ih _ hchild rfl hentries.1 tableOrigin
          exact hfirst.trans (ihEntries hentries.2 _ hfirst.1)

end Shape

end Settings
end VirtualShell
