import VirtualShell.Settings.Written
import VirtualShell.Proofs.Json.Written
import VirtualShell.Proofs.Settings.Reading

/-!
# Settings out of trimmed objects

All settings can be written as an object of objects and read back.  Of what was written any settings
and any whole groups may be left out, and entries of other names may be added anywhere: what is still
there is read as it was, and what was left out has its own value again.
-/

namespace VirtualShell
namespace Settings

/-! ### What is written -/

/-- What a value of a kind is written as. -/
def Kind.toJson : (kind : Kind) → kind.Value → Json
  | .truth, b => .boolean b
  | .amount, n => .integer (UInt64.toNat n)
  | .text, s => .text s
  | .path, s => optionalText s
  | .levels, m => .object ((SortedMap.entries m).map fun entry => (entry.1, .text entry.2))

/-- What the settings of a group are written as, in order. -/
def Group.entries (group : Group) (s : Settings) : List (String × Json) :=
  (Setting.all.filter fun k => k.group = group).map fun k => (k.name, k.kind.toJson (k.get s))

/-- What groups with some entries are written as. -/
def groupEntries (fields : Group → List (String × Json)) : List (String × Json) :=
  Group.all.map fun group => (group.name, .object (fields group))

theorem toJson_eq (s : Settings) :
    s.toJson = .object (groupEntries fun group => group.entries s) :=
  rfl

theorem keys_groupEntries (fields : Group → List (String × Json)) :
    (groupEntries fields).map Prod.fst = groupNames :=
  rfl

theorem Group.keys_entries (group : Group) (s : Settings) :
    (group.entries s).map Prod.fst = group.names := by
  cases group <;> rfl

theorem eq_of_mem_groupEntries {fields : Group → List (String × Json)} {group : Group} {value : Json}
    (hmem : (group.name, value) ∈ groupEntries fields) : value = .object (fields group) := by
  obtain ⟨group', -, heq⟩ := List.mem_map.mp hmem
  obtain ⟨hname, hvalue⟩ := Prod.mk.inj heq
  rw [← hvalue, Group.eq_of_name hname]

theorem eq_of_mem_entries {k : Setting} {s : Settings} {value : Json}
    (hmem : (k.name, value) ∈ k.group.entries s) : value = k.kind.toJson (k.get s) := by
  obtain ⟨k', hk', heq⟩ := List.mem_map.mp hmem
  obtain ⟨hname, hvalue⟩ := Prod.mk.inj heq
  obtain rfl := Setting.eq_of_name (of_decide_eq_true (List.mem_filter.mp hk').2) hname
  exact hvalue.symm

theorem Group.name_mem_groupNames (group : Group) : group.name ∈ groupNames := by
  cases group <;> decide

theorem Setting.name_mem_names (k : Setting) : k.name ∈ k.group.names := by
  cases k <;> decide

/-- A value is written in plain JSON, one level deep at most. -/
theorem Kind.plain_toJson (kind : Kind) (a : kind.Value) (depth : Nat) :
    Json.Plain (depth + 1) (kind.toJson a) := by
  cases kind with
  | truth => exact .boolean a
  | amount =>
      have hsize : UInt64.toNat a < 2 ^ 64 := UInt64.toNat_lt a
      exact .integer (by omega) (by omega)
  | text => exact .text a
  | path =>
      cases a with
      | none => exact .null
      | some s => exact .text s
  | levels =>
      refine .object fun entry hentry => ?_
      obtain ⟨level, -, rfl⟩ := List.mem_map.mp hentry
      exact .text level.2

theorem plain_toJson (s : Settings) (depth : Nat) : Json.Plain (depth + 3) s.toJson := by
  rw [toJson_eq]
  refine .object fun entry hentry => ?_
  obtain ⟨group, -, rfl⟩ := List.mem_map.mp hentry
  refine .object fun entry hentry => ?_
  obtain ⟨k, -, rfl⟩ := List.mem_map.mp hentry
  exact k.kind.plain_toJson (k.get s) depth

/-! ### Entries in the order of their names -/

section Sorted

variable {entries : List (String × Json)} {name : String} {value : Json}

theorem find?_foldl_insert (m : SortedMap String Json) (entries : List (String × Json))
    (name : String) :
    (entries.foldl (fun (m : SortedMap String Json) entry => m.insert entry.1 entry.2) m).find?
        name = (entries.reverse.lookup name).or (m.find? name) := by
  induction entries generalizing m with
  | nil => rfl
  | cons entry entries ih =>
      obtain ⟨key, value⟩ := entry
      rw [List.foldl_cons, ih, SortedMap.find?_insert, List.reverse_cons, List.lookup_append,
        lookup_cons_ite, List.lookup_nil, Option.or_assoc]
      by_cases hname : name = key
      · rw [if_pos hname, if_pos hname, Option.some_or]
      · rw [if_neg hname, if_neg hname, Option.none_or]

/-- Of several entries with one name the last one is there. -/
theorem mem_sortedEntries_iff :
    (name, value) ∈ sortedEntries entries ↔ entries.reverse.lookup name = some value := by
  rw [sortedEntries, ← SortedMap.find?_eq_some_iff, find?_foldl_insert, SortedMap.find?_empty,
    Option.or_none]

theorem nodup_sortedEntries (entries : List (String × Json)) :
    ((sortedEntries entries).map Prod.fst).Nodup :=
  SortedMap.nodup_keys _

theorem mem_of_mem_sortedEntries (hmem : (name, value) ∈ sortedEntries entries) :
    (name, value) ∈ entries := by
  obtain ⟨before, after, hreverse, -⟩ :=
    List.lookup_eq_some_iff.mp (mem_sortedEntries_iff.mp hmem)
  rw [← List.mem_reverse, hreverse]
  exact List.mem_append_right before List.mem_cons_self

theorem lookup_sortedEntries (entries : List (String × Json)) (name : String) :
    (sortedEntries entries).lookup name = entries.reverse.lookup name := by
  cases hlookup : (sortedEntries entries).lookup name with
  | some value =>
      obtain ⟨before, after, hsorted, -⟩ := List.lookup_eq_some_iff.mp hlookup
      refine (mem_sortedEntries_iff.mp ?_).symm
      exact hsorted ▸ List.mem_append_right before List.mem_cons_self
  | none =>
      refine (Option.eq_none_iff_forall_ne_some.mpr fun value hvalue => ?_).symm
      have hne := List.lookup_eq_none_iff.mp hlookup _ (mem_sortedEntries_iff.mpr hvalue)
      exact bne_iff_ne.mp hne rfl

/-- A name whose entries all have one value has it if there are any. -/
theorem lookup_sortedEntries_of_forall (hvalue : ∀ value', (name, value') ∈ entries → value' = value) :
    (sortedEntries entries).lookup name =
      if name ∈ entries.map Prod.fst then some value else none := by
  cases hlookup : (sortedEntries entries).lookup name with
  | none =>
      rw [lookup_sortedEntries, List.lookup_eq_none_iff] at hlookup
      refine (if_neg fun hname => ?_).symm
      obtain ⟨entry, hentry, rfl⟩ := List.mem_map.mp hname
      exact bne_iff_ne.mp (hlookup entry (List.mem_reverse.mpr hentry)) rfl
  | some value' =>
      obtain ⟨before, after, hsorted, -⟩ := List.lookup_eq_some_iff.mp hlookup
      have hmem : (name, value') ∈ entries := mem_of_mem_sortedEntries
        (hsorted ▸ List.mem_append_right before List.mem_cons_self)
      rw [if_pos (List.mem_map_of_mem (f := Prod.fst) hmem), hvalue value' hmem]

end Sorted

/-- What levels are written as has a text for each name that has a level. -/
theorem lookup_textEntries (m : SortedMap String String) (name : String) :
    (sortedEntries (m.entries.map fun entry => (entry.1, .text entry.2))).lookup name =
      (m.find? name).map .text := by
  have hkeys : (m.entries.map fun entry => (entry.1, Json.text entry.2)).map Prod.fst = m.keys := by
    rw [List.map_map]
    rfl
  cases hfind : m.find? name with
  | none =>
      rw [SortedMap.find?_eq_none_iff, ← hkeys] at hfind
      rw [lookup_sortedEntries, Option.map_none, List.lookup_eq_none_iff]
      intro entry hentry
      exact bne_iff_ne.mpr fun heq =>
        hfind (List.mem_map.mpr ⟨entry, List.mem_reverse.mp hentry, heq.symm⟩)
  | some s =>
      have hname : name ∈ m.keys := SortedMap.mem_keys_of_find? hfind
      have hvalue : ∀ value,
          (name, value) ∈ m.entries.map (fun entry => (entry.1, Json.text entry.2)) →
            value = .text s := by
        intro value hmem
        obtain ⟨⟨name', s'⟩, hentry, heq⟩ := List.mem_map.mp hmem
        cases heq
        rw [SortedMap.find?_of_mem_entries hentry] at hfind
        rw [Option.some.inj hfind]
      rw [lookup_sortedEntries_of_forall hvalue, hkeys, if_pos hname]
      rfl

/-- The texts by name that are written are read back. -/
theorem readTexts_toJson (m : SortedMap String String) :
    jsonForm.readTexts (Kind.levels.toJson m) = .ok m := by
  have hentries : jsonForm.entries (Kind.levels.toJson m) =
      .ok (sortedEntries (m.entries.map fun entry => (entry.1, .text entry.2))) := rfl
  have htexts : ∀ entry ∈ sortedEntries (m.entries.map fun entry => (entry.1, .text entry.2)),
      ∃ s, jsonForm.text entry.2 = .ok s := by
    intro entry hentry
    obtain ⟨⟨name, s⟩, -, heq⟩ := List.mem_map.mp (mem_of_mem_sortedEntries hentry)
    exact ⟨s, congrArg (fun entry => jsonForm.text entry.2) heq.symm⟩
  obtain ⟨m', hread, htaken⟩ := Form.readTexts_eq_ok hentries (nodup_sortedEntries _) htexts
  rw [hread]
  refine congrArg Except.ok (SortedMap.ext_find? fun name => ?_)
  have hname := htaken name
  rw [lookup_textEntries] at hname
  cases hfind : m.find? name with
  | none =>
      rw [hfind] at hname
      exact hname
  | some s =>
      rw [hfind] at hname
      exact (Except.ok.inj hname).symm

theorem natural_toJson (n : UInt64) : jsonForm.natural (.integer n.toNat) = .ok n := by
  have hrange : 0 ≤ (n.toNat : Int) ∧ (n.toNat : Int) < (Decimal.twoTo 64 : Int) :=
    ⟨Int.natCast_nonneg _, Int.ofNat_lt.mpr n.toNat_lt⟩
  have htake : jsonForm.natural (.integer n.toNat) = .ok (UInt64.ofNat n.toNat) := by
    dsimp only [jsonForm]
    rw [if_pos hrange]
    rfl
  rw [htake, UInt64.ofNat_toNat]

/-- What is written for the value of a setting is taken as it. -/
theorem take_toJson (kind : Kind) (a : kind.Value) :
    jsonForm.take kind (kind.toJson a) = .ok a := by
  cases kind with
  | truth => rfl
  | amount => exact natural_toJson a
  | text => rfl
  | path =>
      cases a with
      | none => rfl
      | some s => rfl
  | levels => exact readTexts_toJson a

/-! ### Trimmed entries -/

/-- Some entries are left out and some added, in any order, but none of a known name is added. -/
def Trimmed (known : List String) (entries entries' : List (String × Json)) : Prop :=
  ∃ kept added, kept.Sublist entries ∧ entries'.Perm (kept ++ added) ∧
    ∀ entry ∈ added, entry.1 ∉ known

theorem Trimmed.refl (known : List String) (entries : List (String × Json)) :
    Trimmed known entries entries :=
  ⟨entries, [], .refl entries, by rw [List.append_nil], by simp⟩

/-- An entry of a known name was there before. -/
theorem Trimmed.mem {known : List String} {entries entries' : List (String × Json)} {name : String}
    {value : Json} (htrimmed : Trimmed known entries entries') (hknown : name ∈ known)
    (hmem : (name, value) ∈ entries') : (name, value) ∈ entries := by
  obtain ⟨kept, added, hkept, hperm, hadded⟩ := htrimmed
  rcases List.mem_append.mp (hperm.mem_iff.mp hmem) with hmem | hmem
  · exact hkept.mem hmem
  · exact absurd hknown (hadded _ hmem)

section Reading

variable {s : Settings} {fields : Group → List (String × Json)} {roots : List (String × Json)}

theorem eq_of_mem_roots (hroots : Trimmed groupNames (groupEntries fields) roots) {group : Group}
    {value : Json} (hmem : (group.name, value) ∈ roots) : value = .object (fields group) :=
  eq_of_mem_groupEntries (hroots.mem group.name_mem_groupNames hmem)

theorem eq_of_mem_fields
    (hfields : ∀ group : Group, Trimmed group.names (group.entries s) (fields group)) {k : Setting}
    {value : Json} (hmem : (k.name, value) ∈ fields k.group) : value = k.kind.toJson (k.get s) :=
  eq_of_mem_entries ((hfields k.group).mem k.name_mem_names hmem)

theorem readable_trimmed
    (hfields : ∀ group : Group, Trimmed group.names (group.entries s) (fields group))
    (hroots : Trimmed groupNames (groupEntries fields) roots) :
    jsonForm.Readable (.object roots) := by
  refine ⟨sortedEntries roots, rfl, nodup_sortedEntries roots, ?_⟩
  rintro ⟨groupName, groupValue⟩ hgroup group rfl
  obtain rfl := eq_of_mem_roots hroots (mem_of_mem_sortedEntries hgroup)
  refine ⟨sortedEntries (fields group), rfl, nodup_sortedEntries _, ?_⟩
  rintro ⟨name, value⟩ hmem k rfl rfl
  obtain rfl := eq_of_mem_fields hfields (mem_of_mem_sortedEntries hmem)
  exact ⟨k.get s, take_toJson k.kind (k.get s)⟩

/-- What is there for a setting is what was written for it. -/
theorem find?_trimmed
    (hfields : ∀ group : Group, Trimmed group.names (group.entries s) (fields group))
    (hroots : Trimmed groupNames (groupEntries fields) roots) (k : Setting) :
    jsonForm.find? k (.object roots) =
      if k.group.name ∈ roots.map Prod.fst ∧ k.name ∈ (fields k.group).map Prod.fst then
        some (k.kind.toJson (k.get s)) else none := by
  have hgroup : jsonForm.part? "TermiConfig" k.group.name (.object roots) =
      if k.group.name ∈ roots.map Prod.fst then some (.object (fields k.group)) else none :=
    lookup_sortedEntries_of_forall fun _ => eq_of_mem_roots hroots
  have hsetting : jsonForm.part? k.group.title k.name (.object (fields k.group)) =
      if k.name ∈ (fields k.group).map Prod.fst then some (k.kind.toJson (k.get s)) else none :=
    lookup_sortedEntries_of_forall fun _ => eq_of_mem_fields hfields
  rw [Form.find?, hgroup, ite_and]
  split
  · exact hsetting
  · rfl

/-- From what is left of written settings all settings are read: those that are there as they were, and
those that are not with their own values. -/
theorem exists_ofJson_trimmed
    (hfields : ∀ group : Group, Trimmed group.names (group.entries s) (fields group))
    (hroots : Trimmed groupNames (groupEntries fields) roots) :
    ∃ s', ofJson (.object roots) = .ok s' ∧ ∀ k : Setting, k.get s' =
      if k.group.name ∈ roots.map Prod.fst ∧ k.name ∈ (fields k.group).map Prod.fst then k.get s
      else k.get {} := by
  obtain ⟨s', hread, htaken⟩ := Form.read_eq_ok (readable_trimmed hfields hroots)
  refine ⟨s', hread, fun k => ?_⟩
  have hsetting := htaken k
  rw [find?_trimmed hfields hroots] at hsetting
  by_cases hthere : k.group.name ∈ roots.map Prod.fst ∧ k.name ∈ (fields k.group).map Prod.fst
  · rw [if_pos hthere] at hsetting ⊢
    exact (Except.ok.inj ((take_toJson k.kind (k.get s)).symm.trans hsetting)).symm
  · rw [if_neg hthere] at hsetting ⊢
    exact hsetting

end Reading

/-- Settings that are written are read back. -/
theorem ofJson_toJson (s : Settings) : ofJson s.toJson = .ok s := by
  obtain ⟨s', hread, hget⟩ := exists_ofJson_trimmed
    (fun group => Trimmed.refl group.names (group.entries s)) (.refl groupNames (groupEntries _))
  have hall : s' = s := Setting.ext_get fun k => by
    rw [hget, keys_groupEntries, k.group.keys_entries,
      if_pos ⟨k.group.name_mem_groupNames, k.name_mem_names⟩]
  rw [toJson_eq, hread, hall]

/-- All settings are written as an object of objects, whose text is read back as it and taken as the same
settings.  Whatever is left out of it and whatever is added under other names, settings come about, and
exactly those that were left out have their own values. -/
theorem toJson_trimmed (s : Settings) :
    s.toJson = .object (groupEntries fun group => group.entries s) ∧
    Json.read (Text.Utf8.encode (Json.write s.toJson)) = .ok s.toJson ∧
    ofJson s.toJson = .ok s ∧
    ∀ (fields : Group → List (String × Json)) (roots : List (String × Json)),
      (∀ group : Group, Trimmed group.names (group.entries s) (fields group)) →
      Trimmed groupNames (groupEntries fields) roots →
      ∃ s', ofJson (.object roots) = .ok s' ∧ ∀ k : Setting, k.get s' =
        if k.group.name ∈ roots.map Prod.fst ∧ k.name ∈ (fields k.group).map Prod.fst then k.get s
        else k.get {} :=
  ⟨toJson_eq s, Json.read_write (plain_toJson s 124), ofJson_toJson s,
    fun _ _ => exists_ofJson_trimmed⟩

/-- Settings that differ from the ones that are there by themselves. -/
def busySettings : Settings where
  storage := { quotaBytes := 18446744073709551615 }
  shell := { user := "ann", host := "box" }
  logging := { level := "debug", modules := SortedMap.empty.insert "vfs" "trace" }

/-- The groups of the settings, the shell without its user and with a theme. -/
def themedFields (group : Group) : List (String × Json) :=
  match group with
  | .shell => (group.entries busySettings).tail ++ [("theme", .text "dark")]
  | .storage | .logging => group.entries busySettings

theorem toJson_trimmed_busySettings :
    ∃ s', ofJson (.object ((groupEntries themedFields).tail ++ [("plugins", .list [])])) = .ok s' ∧
      s'.storage.quotaBytes = 52428800 ∧ s'.shell.user = "user" ∧ s'.shell.host = "box" ∧
      s'.logging.level = "debug" := by
  have hfields : ∀ group : Group,
      Trimmed group.names (group.entries busySettings) (themedFields group) := by
    intro group
    cases group with
    | shell =>
        exact ⟨_, _, List.tail_sublist _, .refl _, by simp [Group.names, shellNames]⟩
    | storage => exact .refl _ _
    | logging => exact .refl _ _
  have hroots : Trimmed groupNames (groupEntries themedFields)
      ((groupEntries themedFields).tail ++ [("plugins", .list [])]) :=
    ⟨_, _, List.tail_sublist _, .refl _, by simp [groupNames]⟩
  obtain ⟨-, -, -, htrimmed⟩ := toJson_trimmed busySettings
  obtain ⟨s', hs', hget⟩ := htrimmed _ _ hfields hroots
  exact ⟨s', hs', (hget .quotaBytes).trans (if_neg (by decide)),
    (hget .user).trans (if_neg (by decide)), (hget .host).trans (if_pos (by decide)),
    (hget .level).trans (if_pos (by decide))⟩

end Settings
end VirtualShell
