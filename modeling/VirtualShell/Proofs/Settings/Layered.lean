import VirtualShell.Program
import VirtualShell.Proofs.Settings.Merging

/-!
# Settings in layers

When everything that the layers say is of the type that is wanted there, the settings load, and each of
them comes from the topmost layer that says something about it: the options of the command line, the
environment, the file that was asked for, the common file; what none of them says keeps its own value.
The levels of single parts of the program are settled one by one in the same way.
-/

namespace VirtualShell
namespace Settings

/-! ### What a layer says -/

/-- A value with the steps to it written out as tables.  A list stands where the way goes on by an
index. -/
def nested (value : Tree) : List Step → Tree
  | [] => value
  | .child key :: steps => .table [(key, nested value steps)] none
  | .item _ :: _ => .list [] none

/-- What an entry of a layer says, with its key as an address. -/
def writtenEntry (entry : String × Tree) : String × Tree :=
  ((Address.ofText entry.1).head, nested entry.2 (Address.ofText entry.1).steps)

/-- All that a layer says, as one tree. -/
def written (layer : List (String × Tree)) : Tree :=
  .table (layer.map writtenEntry) none

/-- What the topmost layer that says anything there says at the end of a path. -/
def topmost? (layers : List (List (String × Tree))) (path : List String) : Option Tree :=
  layers.reverse.findSome? fun layer => (written layer).said? path

theorem topmost?_append (lower higher : List (List (String × Tree))) (path : List String) :
    topmost? (lower ++ higher) path = (topmost? higher path).or (topmost? lower path) := by
  rw [topmost?, List.reverse_append, List.findSome?_append, topmost?, topmost?]

theorem topmost?_cons (layer : List (String × Tree)) (layers : List (List (String × Tree)))
    (path : List String) :
    topmost? (layer :: layers) path = (topmost? layers path).or ((written layer).said? path) := by
  rw [topmost?, List.reverse_cons, List.findSome?_append, List.findSome?_singleton, topmost?]

namespace Shape

variable {part : String → Shape} {t : Tree} {value : Tree}

/-- Nothing at all is changed in the same way as an empty table. -/
theorem putAt_nothing (value : Tree) (key : String) (steps : List Step) :
    Tree.putAt value (.child key :: steps) (.leaf .nothing none) =
      Tree.putAt value (.child key :: steps) Tree.emptyTable := by
  cases steps with
  | nil => cases value <;> rfl
  | cons step steps => rfl

/-- Putting a value at the end of some steps puts it over what is there, with the steps written out. -/
theorem covers_putAt {steps : List Step} {head : String} (ht : (group part).Merged t)
    (hfits : (part (Text.lowercase head)).fits (nested value steps) = true)
    (origin : Option String) :
    (group part).Covers (.table [(head, nested value steps)] origin) t
      (Tree.putAt value (.child head :: steps) t) := by
  induction steps generalizing part t head origin with
  | nil => exact covers_put ht rfl hfits origin
  | cons step steps ih =>
      cases hshape : part (Text.lowercase head) with
      | free => exact covers_alter_of_free ht hshape origin
      | value kind =>
          rw [hshape] at hfits
          cases step <;> cases hfits
      | group inner =>
          rw [hshape] at hfits
          cases step with
          | item index => cases hfits
          | child key =>
              have hput : Tree.putAt value (.child head :: .child key :: steps) t =
                  t.alter head fun old =>
                    Tree.putAt value (.child key :: steps) (old.getD Tree.emptyTable) := by
                rw [Tree.putAt]
                · congr 1
                  funext old
                  cases old with
                  | none => exact putAt_nothing value key steps
                  | some child => rfl
                · simp
              rw [hput]
              refine covers_alter_of_group (f := Tree.putAt value (.child key :: steps)) ht hshape
                (fun child hchild => ih hchild ?_ none) origin
              rw [nested, fits, List.all_cons, Bool.and_eq_true] at hfits
              exact hfits.1

theorem covers_addLayer {layer : List (String × Tree)} (ht : (group part).Merged t)
    (hfits : (group part).fits (written layer) = true) :
    (group part).Covers (written layer) t (t.addLayer layer) := by
  obtain ⟨entries, origin, heq, hentries⟩ := exists_table_of_fits hfits
  cases heq
  clear hfits
  induction layer generalizing t with
  | nil =>
      refine ⟨ht, fun path hpath => ?_⟩
      cases path with
      | nil => cases hpath
      | cons key path => rfl
  | cons entry layer ih =>
      rw [List.map_cons, List.forall_mem_cons] at hentries
      have hfirst : (group part).Covers (.table [writtenEntry entry] none) t
          (t.putAddress (.ofText entry.1) entry.2) := covers_putAt ht hentries.1 none
      exact hfirst.trans (ih hfirst.1 hentries.2)

/-- Of several layers the topmost one that says anything counts. -/
theorem covers_layers {layers : List (List (String × Tree))} (ht : (group part).Merged t)
    (hfits : ∀ layer ∈ layers, (group part).fits (written layer) = true) :
    (group part).Merged (layers.foldl Tree.addLayer t) ∧
      ∀ path, (group part).Leads path →
        (layers.foldl Tree.addLayer t).at? path = (topmost? layers path).or (t.at? path) := by
  induction layers generalizing t with
  | nil => exact ⟨ht, fun _ _ => rfl⟩
  | cons layer layers ih =>
      rw [List.forall_mem_cons] at hfits
      have hlayer := covers_addLayer ht hfits.1
      obtain ⟨hmerged, hat⟩ := ih hlayer.1 hfits.2
      refine ⟨hmerged, fun path hpath => ?_⟩
      rw [List.foldl_cons, hat path hpath, hlayer.2 path hpath, topmost?_cons, Option.or_assoc]

end Shape

/-! ### The shape of settings -/

namespace Setting

/-- The keys that lead to a setting. -/
def keys (k : Setting) : List String :=
  [k.group.name, k.name]

/-- What is expected for a setting. -/
def shape (k : Setting) : Shape :=
  match k.kind with
  | .levels => .group fun _ => .value .text
  | kind => .value kind

theorem shape_of_ne {k : Setting} (hk : k.kind ≠ .levels) : k.shape = .value k.kind := by
  rw [shape]
  split
  · exact absurd ‹_› hk
  · rfl

theorem eq_modules {k : Setting} (hk : k.kind = .levels) : k = modules := by
  cases k <;> first | rfl | cases hk

end Setting

/-- What is expected in a group. -/
def groupShape (group : Group) : Shape :=
  .group fun name =>
    match Setting.named? group name with
    | some k => k.shape
    | none => .free

/-- What is expected of all settings.  Names that are not known stand for anything. -/
def settingsShape : Shape :=
  .group fun name =>
    match Group.named? name with
    | some group => groupShape group
    | none => .free

/-- The keys that lead to the level of a part of the program. -/
def levelKeys (name : String) : List String :=
  [Group.logging.name, Setting.modules.name, name]

theorem settingsShape_leads (k : Setting) (path : List String) :
    settingsShape.Leads (k.keys ++ path) ↔ k.shape.Leads path := by
  rw [Setting.keys, List.cons_append, List.cons_append, List.nil_append, settingsShape, Shape.Leads,
    Group.named?_name]
  dsimp only
  rw [groupShape, Shape.Leads, Setting.named?_name]

theorem leads_keys {k : Setting} (hk : k.kind ≠ .levels) : settingsShape.Leads k.keys := by
  have hleads := (settingsShape_leads k []).mpr
  rw [List.append_nil, Setting.shape_of_ne hk] at hleads
  exact hleads trivial

theorem leads_levelKeys (name : String) : settingsShape.Leads (levelKeys name) :=
  (settingsShape_leads .modules [name]).mpr trivial

/-! ### Reading a merged tree -/

section Merged

variable {t : Tree}

theorem treeForm_part? (title name : String) (t : Tree) :
    treeForm.part? title name t = t.entries.lookup name := by
  cases t <;> rfl

theorem treeForm_find? (k : Setting) (t : Tree) : treeForm.find? k t = t.at? k.keys := by
  rw [Form.find?, treeForm_part?]
  refine Option.bind_congr fun fields _ => ?_
  rw [treeForm_part?]
  cases hlookup : fields.entries.lookup k.name with
  | none => rw [Tree.at?, hlookup]; rfl
  | some value => rw [Tree.at?, hlookup]; rfl

theorem treeForm_parts {title : String} {part : String → Shape} {accepts : String → Tree → Prop}
    (ht : (Shape.group part).Merged t)
    (haccepts : ∀ name child, (part name).Merged child → accepts name child) :
    treeForm.Parts title t accepts := by
  obtain ⟨entries, origin, rfl, hnodup, hparts⟩ := ht
  exact ⟨entries, rfl, hnodup, fun entry hentry => haccepts _ _ (hparts entry hentry)⟩

/-- The levels of a merged table are read from it, each under its name. -/
theorem readTexts_of_merged (ht : (Shape.group fun _ => .value .text).Merged t) :
    ∃ levels, treeForm.readTexts t = .ok levels ∧
      ∀ name, Taken treeForm.level (t.entries.lookup name) none (levels.find? name) := by
  obtain ⟨entries, origin, rfl, hnodup, hparts⟩ := ht
  refine Form.readTexts_eq_ok rfl hnodup fun entry hentry => ?_
  obtain ⟨-, -, s, -, hs⟩ := Shape.exists_leaf_of_fits (hparts entry hentry)
  exact ⟨s, hs⟩

theorem exists_take_of_merged {k : Setting} (ht : k.shape.Merged t) :
    ∃ a, treeForm.take k.kind t = .ok a := by
  by_cases hk : k.kind = .levels
  · obtain rfl := Setting.eq_modules hk
    obtain ⟨levels, hlevels, -⟩ := readTexts_of_merged ht
    exact ⟨levels, hlevels⟩
  · rw [Setting.shape_of_ne hk] at ht
    obtain ⟨-, -, a, -, ha⟩ := Shape.exists_leaf_of_fits ht
    exact ⟨a, ha⟩

theorem readable_of_merged (ht : settingsShape.Merged t) : treeForm.Readable t := by
  refine treeForm_parts ht fun groupName fields hfields group hgroup => ?_
  subst hgroup
  rw [Group.named?_name] at hfields
  refine treeForm_parts hfields fun name child hchild k hgroup hname => ?_
  subst hgroup hname
  rw [Setting.named?_name] at hchild
  exact exists_take_of_merged hchild

theorem Tree.at?_append (path further : List String) (t : Tree) :
    t.at? (path ++ further) = (t.at? path).bind (Tree.at? further) := by
  induction path generalizing t with
  | nil => rfl
  | cons key path ih =>
      rw [List.cons_append, Tree.at?, Tree.at?, Option.bind_assoc]
      exact Option.bind_congr fun child _ => ih child

theorem shape_merged_of_at? {k : Setting} {w : Tree} (ht : settingsShape.Merged t)
    (hw : t.at? k.keys = some w) : k.shape.Merged w := by
  rw [Setting.keys, Tree.at?, Option.bind_eq_some_iff] at hw
  obtain ⟨fields, hfields, hw⟩ := hw
  rw [Tree.at?, Option.bind_eq_some_iff] at hw
  obtain ⟨value, hvalue, hw⟩ := hw
  cases hw
  have hgroup := ht.of_lookup hfields
  rw [Group.named?_name] at hgroup
  have hsetting := Shape.Merged.of_lookup hgroup hvalue
  rwa [Setting.named?_name] at hsetting

/-- Each level is taken from what the tree has for its part of the program. -/
theorem taken_level (ht : settingsShape.Merged t) {levels : SortedMap String String}
    (hlevels : Taken treeForm.readTexts (t.at? Setting.modules.keys) .empty levels)
    (name : String) :
    Taken treeForm.level (t.at? (levelKeys name)) none (levels.find? name) := by
  have hkeys : levelKeys name = Setting.modules.keys ++ [name] := rfl
  rw [hkeys, Tree.at?_append]
  cases hw : t.at? Setting.modules.keys with
  | none =>
      rw [hw] at hlevels
      obtain rfl : levels = .empty := hlevels
      exact SortedMap.find?_empty name
  | some w =>
      rw [hw] at hlevels
      obtain ⟨levels', hread, htaken⟩ := readTexts_of_merged (shape_merged_of_at? ht hw)
      obtain rfl : levels' = levels := Except.ok.inj (hread.symm.trans hlevels)
      have hat : w.at? [name] = w.entries.lookup name := by
        rw [Tree.at?]
        cases w.entries.lookup name <;> rfl
      rw [Option.bind_some, hat]
      exact htaken name

end Merged

/-! ### All layers -/

/-- The settings come from some layers: each of them, and each level by itself, from the topmost layer
that says anything about it. -/
structure FromLayers (layers : List (List (String × Tree))) (s : Settings) : Prop where
  setting (k : Setting) : k.kind ≠ .levels →
    Taken (treeForm.take k.kind) (topmost? layers k.keys) (k.get {}) (k.get s)
  level (name : String) :
    Taken treeForm.level (topmost? layers (levelKeys name)) none (s.logging.modules.find? name)

/-- Settings that come from layers that say the same are the same. -/
theorem FromLayers.unique {layers layers' : List (List (String × Tree))} {s s' : Settings}
    (hs : FromLayers layers s) (hs' : FromLayers layers' s')
    (hsame : ∀ key key' path,
      topmost? layers (key :: key' :: path) = topmost? layers' (key :: key' :: path)) : s = s' := by
  have hlevels : s.logging.modules = s'.logging.modules := by
    apply SortedMap.ext_find?
    intro name
    have hlevel := hs.level name
    rw [levelKeys, hsame] at hlevel
    exact hlevel.unique (hs'.level name)
  refine Setting.ext_get fun k => ?_
  by_cases hk : k.kind = .levels
  · obtain rfl := Setting.eq_modules hk
    exact hlevels
  · have hsetting := hs.setting k hk
    rw [Setting.keys, hsame] at hsetting
    exact hsetting.unique (hs'.setting k hk)

/-- Layers that say nothing of a wrong type make up settings. -/
theorem ofLayers_eq_ok {layers : List (List (String × Tree))}
    (hfits : ∀ layer ∈ layers, settingsShape.fits (written layer) = true) :
    ∃ s, ofLayers layers = .ok s ∧ FromLayers layers s := by
  obtain ⟨hmerged, hat⟩ := Shape.covers_layers Shape.merged_emptyTable hfits
  have htopmost : ∀ path, settingsShape.Leads path →
      (layers.foldl Tree.addLayer Tree.emptyTable).at? path = topmost? layers path := by
    intro path hpath
    rw [hat path hpath]
    cases path with
    | nil => cases hpath
    | cons key path => exact Option.or_none
  obtain ⟨s, hs, htaken⟩ := Form.read_eq_ok (readable_of_merged hmerged)
  simp only [treeForm_find?] at htaken
  refine ⟨s, hs, fun k hk => ?_, fun name => ?_⟩
  · rw [← htopmost k.keys (leads_keys hk)]
    exact htaken k
  · rw [← htopmost (levelKeys name) (leads_levelKeys name)]
    exact taken_level hmerged (htaken .modules) name

end Settings
end VirtualShell
