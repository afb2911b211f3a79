import VirtualShell.Proofs.SortedMap
import VirtualShell.Proofs.Settings.Setting

/-!
# Settings read from values

A value of any form is readable if it is groups of named settings, no name twice, and each setting
that is there can be taken.  Then all settings are read from it, and each of them is taken from the
value found under its name, or keeps its own value if none is found.
-/

namespace VirtualShell
namespace Settings

variable {ν ε σ α : Type}

/-- What was got was taken from what was found, or is what was there before if nothing was. -/
def Taken (take : ν → Except ε α) (found : Option ν) (before got : α) : Prop :=
  match found with
  | some value => take value = .ok got
  | none => got = before

theorem Taken.unique {take : ν → Except ε α} {found : Option ν} {before got got' : α}
    (hgot : Taken take found before got) (hgot' : Taken take found before got') : got = got' := by
  cases found with
  | none => exact Eq.trans hgot (Eq.symm hgot')
  | some value => exact Except.ok.inj (Eq.trans (Eq.symm hgot) hgot')

/-! ### Entries one after the other -/

section Entries

variable (form : Form ν ε) {set : σ → String → ν → Except ε σ} {entries : List (String × ν)}

theorem Form.setEntries_cons_eq_ok {entry : String × ν} {start s' : σ} :
    form.setEntries set start (entry :: entries) = .ok s' ↔
      ∃ s, set start entry.1 entry.2 = .ok s ∧ form.setEntries set s entries = .ok s' := by
  rw [Form.setEntries]
  cases set start entry.1 entry.2 with
  | error e => simp [Except.mapError, bind, Except.bind]
  | ok s => simp [Except.mapError, bind, Except.bind]

theorem Form.exists_setEntries
    (hset : ∀ entry ∈ entries, ∀ s, ∃ s', set s entry.1 entry.2 = .ok s') (start : σ) :
    ∃ s', form.setEntries set start entries = .ok s' := by
  induction entries generalizing start with
  | nil => exact ⟨start, rfl⟩
  | cons entry entries ih =>
      rw [List.forall_mem_cons] at hset
      obtain ⟨s, hs⟩ := hset.1 start
      obtain ⟨s', hs'⟩ := ih hset.2 s
      exact ⟨s', form.setEntries_cons_eq_ok.mpr ⟨s, hs, hs'⟩⟩

variable {form} in
/-- Of entries with different names, the one of a name settles what the name governs. -/
theorem Governs.setEntries {name : String} {get : σ → α} {take : ν → Except ε α}
    (hgoverns : Governs set name get take) (hnodup : (entries.map Prod.fst).Nodup) {start s' : σ}
    (hentries : form.setEntries set start entries = .ok s') :
    Taken take (entries.lookup name) (get start) (get s') := by
  induction entries generalizing start with
  | nil =>
      cases hentries
      exact rfl
  | cons entry entries ih =>
      obtain ⟨key, value⟩ := entry
      rw [List.map_cons, List.nodup_cons] at hnodup
      obtain ⟨hkey, hnodup⟩ := hnodup
      obtain ⟨s, hs, hrest⟩ := form.setEntries_cons_eq_ok.mp hentries
      have hlater := ih hnodup hrest
      by_cases hname : name = key
      · subst hname
        -- no later entry has the name again
        have hnone : entries.lookup name = none :=
          List.lookup_eq_none_iff.mpr fun entry hentry =>
            bne_iff_ne.mpr fun heq => hkey (List.mem_map.mpr ⟨entry, hentry, heq.symm⟩)
        rw [hnone] at hlater
        have hkept : get s' = get s := hlater
        have hown : take value = .ok (get s) := hgoverns.own hs
        rw [lookup_cons_ite, if_pos rfl]
        exact hkept ▸ hown
      · have hbefore : get s = get start := hgoverns.other (Ne.symm hname) hs
        rw [lookup_cons_ite, if_neg hname]
        exact hbefore ▸ hlater

end Entries

/-! ### Texts by name -/

section Texts

variable (form : Form ν ε)

/-- Takes the text that stands for a name. -/
def Form.level (value : ν) : Except ε (Option String) := do
  return some (← form.text value)

/-- Puts a text under a name. -/
def Form.putLevel (levels : SortedMap String String) (name : String) (value : ν) :
    Except ε (SortedMap String String) := do
  return levels.insert name (← form.text value)

theorem Form.governs_putLevel (name : String) :
    Governs form.putLevel name (fun levels => levels.find? name) form.level where
  own {before after value} hput := by
    obtain ⟨s, hs, rfl⟩ := exists_of_bind_eq_ok hput
    rw [SortedMap.find?_insert, if_pos rfl, Form.level, hs]
    rfl
  other {before after key value} hne hput := by
    obtain ⟨s, -, rfl⟩ := exists_of_bind_eq_ok hput
    rw [SortedMap.find?_insert, if_neg (Ne.symm hne)]

variable {form} {value : ν} {entries : List (String × ν)}

/-- Texts are read from a map of them, and each is found under its name. -/
theorem Form.readTexts_eq_ok (hentries : form.entries value = .ok entries)
    (hnodup : (entries.map Prod.fst).Nodup)
    (htexts : ∀ entry ∈ entries, ∃ s, form.text entry.2 = .ok s) :
    ∃ levels, form.readTexts value = .ok levels ∧
      ∀ name, Taken form.level (entries.lookup name) none (levels.find? name) := by
  have hread : form.readTexts value = form.setEntries form.putLevel .empty entries := by
    rw [Form.readTexts, hentries]
    rfl
  have hput : ∀ entry ∈ entries, ∀ levels, ∃ levels',
      form.putLevel levels entry.1 entry.2 = .ok levels' := by
    intro entry hentry levels
    obtain ⟨s, hs⟩ := htexts entry hentry
    exact ⟨levels.insert entry.1 s, by rw [Form.putLevel, hs]; rfl⟩
  obtain ⟨levels, hlevels⟩ := form.exists_setEntries hput .empty
  exact ⟨levels, hread.trans hlevels,
    fun name => (form.governs_putLevel name).setEntries hnodup hlevels⟩

end Texts

/-! ### All settings -/

section Reading

variable (form : Form ν ε)

/-- The value is a group of named parts, no name twice, that all are as they should be. -/
def Form.Parts (title : String) (value : ν) (part : String → ν → Prop) : Prop :=
  ∃ entries, form.members title value = .ok (.named entries) ∧
    (entries.map Prod.fst).Nodup ∧ ∀ entry ∈ entries, part entry.1 entry.2

/-- The value is groups of settings that all can be taken.  Other names are of no account. -/
def Form.Readable (value : ν) : Prop :=
  form.Parts "TermiConfig" value fun groupName fields =>
    ∀ group : Group, group.name = groupName →
      form.Parts group.title fields fun name part =>
        ∀ k : Setting, k.group = group → k.name = name → ∃ a, form.take k.kind part = .ok a

/-- What a group has under a name. -/
def Form.part? (title name : String) (value : ν) : Option ν :=
  match form.members title value with
  | .ok (.named entries) => entries.lookup name
  | _ => none

/-- What a value has for a setting. -/
def Form.find? (k : Setting) (value : ν) : Option ν :=
  (form.part? "TermiConfig" k.group.name value).bind (form.part? k.group.title k.name)

variable {form} {value : ν}

theorem Form.part?_of_members {title name : String} {entries : List (String × ν)}
    (hentries : form.members title value = .ok (.named entries)) :
    form.part? title name value = entries.lookup name := by
  rw [Form.part?, hentries]

theorem Form.readGroup_of_members {title : String} {names : List String}
    {set : σ → String → ν → Except ε σ} {start : σ} {entries : List (String × ν)}
    (hentries : form.members title value = .ok (.named entries)) :
    form.readGroup title names set start value = form.setEntries set start entries := by
  rw [Form.readGroup, hentries]
  rfl

theorem Form.readFields_eq_ok {group : Group}
    (hparts : form.Parts group.title value fun name part =>
      ∀ k : Setting, k.group = group → k.name = name → ∃ a, form.take k.kind part = .ok a) :
    ∃ fields, form.readFields group value = .ok fields := by
  obtain ⟨entries, hentries, -, htake⟩ := hparts
  rw [Form.readFields, Form.readGroup_of_members hentries]
  exact form.exists_setEntries (fun entry hentry => form.exists_set (htake entry hentry)) _

/-- A setting is taken from what its group has under its name. -/
theorem Form.taken_readFields {k : Setting} {fields : k.group.Fields} {part : String → ν → Prop}
    (hparts : form.Parts k.group.title value part)
    (hread : form.readFields k.group value = .ok fields) :
    Taken (form.take k.kind) (form.part? k.group.title k.name value) (k.get {})
      (k.getIn fields) := by
  obtain ⟨entries, hentries, hnodup, -⟩ := hparts
  rw [Form.readFields, Form.readGroup_of_members hentries, Group.blank_eq_get] at hread
  rw [Form.part?_of_members hentries]
  exact (form.governs_set k).setEntries hnodup hread

theorem Form.readable_part {k : Setting} {fields : ν} (hreadable : form.Readable value)
    (hfields : form.part? "TermiConfig" k.group.name value = some fields) :
    form.Parts k.group.title fields fun name part =>
      ∀ k' : Setting, k'.group = k.group → k'.name = name → ∃ a, form.take k'.kind part = .ok a := by
  obtain ⟨entries, hentries, -, hgroups⟩ := hreadable
  rw [Form.part?_of_members hentries, List.lookup_eq_some_iff] at hfields
  obtain ⟨before, after, rfl, -⟩ := hfields
  exact hgroups (k.group.name, fields) (by simp) k.group rfl

/-- All settings are read from a readable value, each of them from what is found for it. -/
theorem Form.read_eq_ok (hreadable : form.Readable value) :
    ∃ s, form.read value = .ok s ∧
      ∀ k : Setting, Taken (form.take k.kind) (form.find? k value) (k.get {}) (k.get s) := by
  obtain ⟨entries, hentries, hnodup, hgroups⟩ := hreadable
  have hread : form.read value = form.setEntries form.setGroup {} entries :=
    Form.readGroup_of_members hentries
  obtain ⟨s, hs⟩ := form.exists_setEntries
    (fun entry hentry => form.exists_setGroup fun group hgroup =>
      Form.readFields_eq_ok (hgroups entry hentry group hgroup)) ({} : Settings)
  refine ⟨s, hread.trans hs, fun k => ?_⟩
  have hgroup := (form.governs_setGroup k.group).setEntries hnodup hs
  rw [Form.find?, Form.part?_of_members hentries]
  cases hlookup : entries.lookup k.group.name with
  | none =>
      rw [hlookup] at hgroup
      exact congrArg k.getIn hgroup
  | some fields =>
      rw [hlookup] at hgroup
      have hpart : form.part? "TermiConfig" k.group.name value = some fields :=
        (Form.part?_of_members hentries).trans hlookup
      exact Form.taken_readFields
        (Form.readable_part ⟨entries, hentries, hnodup, hgroups⟩ hpart) hgroup

end Reading

end Settings
end VirtualShell
