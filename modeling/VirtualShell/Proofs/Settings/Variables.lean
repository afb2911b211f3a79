import VirtualShell.Proofs.Settings.Loading
import VirtualShell.Proofs.Toml.Quoted

/-!
# Texts from the environment

Each setting has a variable of the environment.  What it is set to is looked at first as a truth value
and as a number, and where a text is wanted that is written out again, so that a text which reads as
one of them may come out in another spelling.  The same text in quotes in a file comes out as it is.
-/

namespace VirtualShell
namespace Settings

/-! ### The variables of settings -/

/-- A name in capital letters. -/
def capitals (s : String) : String :=
  String.ofList (s.toList.map Char.toUpper)

namespace Setting

/-- The variable of a setting. -/
def variableName (k : Setting) : String :=
  "TERMIWEB__" ++ capitals k.group.name ++ "__" ++ capitals k.name

/-- The address of a setting. -/
def address (k : Setting) : String :=
  k.group.name ++ "." ++ k.name

theorem variableKey?_variableName (k : Setting) : variableKey? k.variableName = some k.address := by
  cases k <;> decide +kernel

theorem ofText_address (k : Setting) :
    Address.ofText k.address = ⟨k.group.name, [.child k.name]⟩ := by
  cases k <;> decide +kernel

theorem lowercase_name (k : Setting) : Text.lowercase k.name = k.name := by
  cases k <;> decide +kernel

theorem isBare_name (k : Setting) : Toml.IsBare k.group.name ∧ Toml.IsBare k.name := by
  constructor <;> refine Toml.isBare_of_all ?_ ?_ <;> cases k <;> decide +kernel

end Setting

theorem environmentLayer_append (before after : Environment) :
    environmentLayer (before ++ after) = environmentLayer before ++ environmentLayer after :=
  List.filterMap_append

theorem environmentLayer_eq_nil {environment : Environment}
    (hnone : ∀ entry ∈ environment, variableKey? entry.1 = none) :
    environmentLayer environment = [] := by
  refine List.filterMap_eq_nil_iff.mpr fun entry hentry => ?_
  rw [hnone entry hentry]
  rfl

/-! ### One setting alone -/

/-- A tree that has a value for one setting and says nothing else. -/
def alone (k : Setting) (value : Tree) (origin : Option String) : Tree :=
  .table [(k.group.name, .table [(k.name, value)] origin)] none

section Alone

variable {k : Setting} {value : Tree} {origin : Option String}

theorem said?_alone (k' : Setting) (path : List String) :
    (alone k value origin).said? (k'.keys ++ path) =
      if k' = k then value.said? path else none := by
  rw [alone, Setting.keys, List.cons_append, Tree.said?_table_single, lowercase_name,
    List.cons_append, Tree.said?_table_single, k.lowercase_name, List.nil_append]
  by_cases hk : k' = k
  · rw [hk, if_pos rfl, if_pos rfl, if_pos rfl]
  · rw [if_neg hk]
    by_cases hgroup : k.group = k'.group
    · rw [if_neg fun hname => hk (Setting.eq_of_name hgroup hname).symm, ite_self]
    · rw [if_neg fun hname => hgroup (Group.eq_of_name hname)]

theorem fits_alone (hvalue : k.shape.fits value = true) :
    settingsShape.fits (alone k value origin) = true := by
  have hgroup : (groupShape k.group).fits (.table [(k.name, value)] origin) = true := by
    refine List.all_eq_true.mpr ?_
    rw [List.forall_mem_singleton, k.lowercase_name]
    dsimp only
    rw [Setting.named?_name]
    exact hvalue
  refine List.all_eq_true.mpr ?_
  rw [List.forall_mem_singleton, lowercase_name]
  dsimp only
  rw [Group.named?_name]
  exact hgroup

end Alone

theorem topmost?_eq_none {layers : List (List (String × Tree))} (hempty : ∀ layer ∈ layers, layer = [])
    (key : String) (path : List String) : topmost? layers (key :: path) = none := by
  induction layers with
  | nil => rfl
  | cons layer layers ih =>
      rw [List.forall_mem_cons] at hempty
      rw [topmost?_cons, ih hempty.2, hempty.1]
      rfl

/-- Where one layer has a value for one setting and nothing else is said, the setting comes to that value
and all others keep their own. -/
theorem ofLayers_alone (lower higher : List (List (String × Tree))) {layer : List (String × Tree)}
    {k : Setting} {scalar : Scalar} {origin leafOrigin : Option String} {a : k.kind.Value}
    (hk : k.kind ≠ .levels) (htake : treeForm.take k.kind (.leaf scalar leafOrigin) = .ok a)
    (hempty : ∀ other ∈ lower ++ higher, other = [])
    (hlayer : written layer = alone k (.leaf scalar leafOrigin) origin) :
    ∃ s, ofLayers (lower ++ layer :: higher) = .ok s ∧ k.get s = a ∧
      ∀ k' : Setting, k' ≠ k → k'.get s = k'.get {} := by
  rw [List.forall_mem_append] at hempty
  have hfits : ∀ other ∈ lower ++ layer :: higher, settingsShape.fits (written other) = true := by
    have hvalue : k.shape.fits (.leaf scalar leafOrigin) = true := by
      rw [Setting.shape_of_ne hk, Shape.fits, htake]
      rfl
    rw [List.forall_mem_append, List.forall_mem_cons, hlayer]
    refine ⟨fun other hmem => ?_, fits_alone hvalue, fun other hmem => ?_⟩
    · rw [hempty.1 other hmem]
      rfl
    · rw [hempty.2 other hmem]
      rfl
  have hsaid : ∀ (k' : Setting) (path : List String),
      topmost? (lower ++ layer :: higher) (k'.keys ++ path) =
        if k' = k then (Tree.leaf scalar leafOrigin).said? path else none := by
    intro k' path
    have halone : (alone k (.leaf scalar leafOrigin) origin).said? (k'.keys ++ path) = _ :=
      said?_alone k' path
    rw [← halone, ← hlayer, Setting.keys, List.cons_append, topmost?_append,
      topmost?_cons, topmost?_eq_none hempty.1, topmost?_eq_none hempty.2, Option.none_or,
      Option.or_none]
  obtain ⟨s, hs, hfrom⟩ := ofLayers_eq_ok hfits
  refine ⟨s, hs, ?_, fun k' hne => ?_⟩
  · have hown := hfrom.setting k hk
    rw [← List.append_nil k.keys, hsaid, if_pos rfl] at hown
    exact Except.ok.inj (hown.symm.trans htake)
  · by_cases hk' : k'.kind = .levels
    · obtain rfl := Setting.eq_modules hk'
      refine SortedMap.ext_find? fun name => ?_
      have hlevel := hfrom.level name
      have hnone : topmost? (lower ++ layer :: higher) (levelKeys name) = none :=
        (hsaid .modules [name]).trans (if_neg hne)
      rw [hnone] at hlevel
      exact hlevel
    · have hother := hfrom.setting k' hk'
      rw [← List.append_nil k'.keys, hsaid, if_neg hne] at hother
      exact hother

/-! ### Texts and what they come to -/

/-- The text of a value that is one. -/
def Kind.text? : (kind : Kind) → kind.Value → Option String
  | .text, s => some s
  | .path, s => s
  | .truth, _ | .amount, _ | .levels, _ => none

/-- The text that a setting has. -/
def Setting.text? (k : Setting) (s : Settings) : Option String :=
  k.kind.text? (k.get s)

/-- The spelling of what a text reads as: a truth word in small letters, a whole number in its own digits,
or a real number with all its digits in place.  Other texts have no spelling but themselves. -/
def spelling? (s : String) : Option String :=
  if Text.lowercase s = "true" then some "true"
  else if Text.lowercase s = "false" then some "false"
  else
    match Decimal.integer? s with
    | some n => some (toString n)
    | none => (Decimal.real? s).map Decimal.plainLayout.render

/-- The text that the value of a variable comes to. -/
def respelled (s : String) : String :=
  (spelling? s).getD s

theorem respelled_eq_self_iff {s : String} :
    respelled s = s ↔ ∀ spelled, spelling? s = some spelled → spelled = s := by
  rw [respelled]
  cases spelling? s with
  | none => simp
  | some spelled => simp

theorem textOfScalar_scalarOfVariable (s : String) :
    textOfScalar (scalarOfVariable s) = some (respelled s) := by
  rw [respelled, spelling?, scalarOfVariable]
  by_cases htrue : Text.lowercase s = "true"
  · rw [if_pos htrue, if_pos htrue]
    rfl
  by_cases hfalse : Text.lowercase s = "false"
  · rw [if_neg htrue, if_neg htrue, if_pos hfalse, if_pos hfalse]
    rfl
  rw [if_neg htrue, if_neg htrue, if_neg hfalse, if_neg hfalse]
  cases Decimal.integer? s with
  | some n => rfl
  | none => cases Decimal.real? s <;> rfl

/-- What can be made into a text is taken for a text or a path. -/
theorem exists_take_of_textOfScalar {kind : Kind} (hkind : kind = .text ∨ kind = .path)
    {scalar : Scalar} {text : String} (htext : textOfScalar scalar = some text)
    (origin : Option String) :
    ∃ a, treeForm.take kind (.leaf scalar origin) = .ok a ∧ kind.text? a = some text := by
  have htree : textOfTree (.leaf scalar origin) = .ok text := by
    rw [textOfTree, htext]
  rcases hkind with rfl | rfl
  · exact ⟨text, htree, rfl⟩
  · refine ⟨some text, ?_, rfl⟩
    have hpath : treeForm.take .path (.leaf scalar origin) =
        (textOfTree (.leaf scalar origin)).map some := by
      cases scalar with
      | nothing => cases htext
      | _ => rfl
    rw [hpath, htree]
    rfl

/-! ### Loading one text -/

/-- Where one layer has a text for one setting and nothing else is said, the setting comes to that text. -/
theorem ofLayers_text (lower higher : List (List (String × Tree))) {layer : List (String × Tree)}
    {k : Setting} {scalar : Scalar} {origin leafOrigin : Option String} {text : String}
    (hkind : k.kind = .text ∨ k.kind = .path) (htext : textOfScalar scalar = some text)
    (hempty : ∀ other ∈ lower ++ higher, other = [])
    (hlayer : written layer = alone k (.leaf scalar leafOrigin) origin) :
    ∃ s, ofLayers (lower ++ layer :: higher) = .ok s ∧ k.text? s = some text ∧
      ∀ k' : Setting, k' ≠ k → k'.get s = k'.get {} := by
  have hlevels : k.kind ≠ .levels := by
    rcases hkind with hkind | hkind <;> rw [hkind] <;> decide
  obtain ⟨a, htake, ha⟩ := exists_take_of_textOfScalar hkind htext leafOrigin
  obtain ⟨s, hs, hget, hothers⟩ := ofLayers_alone lower higher hlevels htake hempty hlayer
  exact ⟨s, hs, by rw [Setting.text?, hget, ha], hothers⟩

theorem written_environmentLayer {before after : Environment} {k : Setting}
    (hothers : ∀ entry ∈ before ++ after, variableKey? entry.1 = none) (s : String) :
    written (environmentLayer (before ++ (k.variableName, s) :: after)) =
      alone k (.leaf (scalarOfVariable s) (some environmentName)) none := by
  rw [List.forall_mem_append] at hothers
  have hlayer : environmentLayer (before ++ (k.variableName, s) :: after) =
      [(k.address, .leaf (scalarOfVariable s) (some environmentName))] := by
    rw [environmentLayer_append, environmentLayer_eq_nil hothers.1, List.nil_append,
      environmentLayer, List.filterMap_cons]
    dsimp only
    rw [k.variableKey?_variableName]
    exact congrArg _ (environmentLayer_eq_nil hothers.2)
  rw [hlayer, written, List.map_singleton, writtenEntry, k.ofText_address]
  rfl

/-- The line that sets a setting to a text in quotes is a layer with that text alone. -/
theorem exists_layer_quotedLine (k : Setting) (s fileName : String) :
    ∃ layer, (SourceFile.mk fileName (Toml.quotedLine k.group.name k.name s)).layer = .ok layer ∧
      written layer = alone k (.leaf (.text s) (some fileName)) (some fileName) := by
  have hread := Toml.read_quotedLine k.isBare_name.1 k.isBare_name.2 s
  refine ⟨[(k.group.name, .table [(k.name, .leaf (.text s) (some fileName))] (some fileName))],
    ?_, ?_⟩
  · rw [SourceFile.layer]
    dsimp only
    rw [hread]
    rfl
  · rw [written, List.map_singleton, writtenEntry_group]
    rfl

section Machine

variable {μ : Type} {answer : μ → (c : HostCall) → c.Answer × μ} {m : μ}

/-- Where there are no files nothing is said by one. -/
theorem run_commonLayer_of_isFile (place : Surroundings)
    (hfiles : ∀ path, answer m (.isFile path) = (false, m)) :
    (commonLayer place).run answer m = (.ok [], m) := by
  have hisFile : ∀ path, (HostTask.isFile path).run answer m = (false, m) := hfiles
  have hfind : ∀ name, (findSource place name).run answer m = (.error (.missing name), m) := by
    intro name
    change ((HostTask.isFile _).bind _).run answer m = _
    rw [HostTask.run_bind, hisFile]
    change ((HostTask.isFile _).bind _).run answer m = _
    rw [HostTask.run_bind, hisFile]
    rfl
  rw [commonLayer]
  cases Directories.configuration? place with
  | none => rfl
  | some path =>
      change ((findSource place path).bind _).run answer m = _
      rw [HostTask.run_bind, hfind]
      rfl

/-- Where there are no files and a variable sets a setting to a text, the setting comes to the spelling of
what the text reads as, and all others keep their own values.  So it is the text itself exactly if the
text has no other spelling.  The same text in quotes in a file is always taken as it is. -/
theorem load_variable (systemHome : Option String) (workingDirectory : String)
    {before after : Environment} {k : Setting}
    (hfiles : ∀ path, answer m (.isFile path) = (false, m))
    (hkind : k.kind = .text ∨ k.kind = .path)
    (hothers : ∀ entry ∈ before ++ after, variableKey? entry.1 = none) (s : String) :
    (∃ settings,
      (load ⟨before ++ (k.variableName, s) :: after, systemHome, workingDirectory⟩ none).run
        answer m = (.ok settings, m) ∧
      k.text? settings = some (respelled s) ∧
      (k.text? settings = some s ↔ ∀ spelled, spelling? s = some spelled → spelled = s) ∧
      ∀ k' : Setting, k' ≠ k → k'.get settings = k'.get {}) ∧
    ∀ fileName, ∃ layer settings,
      (SourceFile.mk fileName (Toml.quotedLine k.group.name k.name s)).layer = .ok layer ∧
      ofLayers (layersOf ⟨before ++ after, systemHome, workingDirectory⟩ [] layer) = .ok settings ∧
      k.text? settings = some s ∧ ∀ k' : Setting, k' ≠ k → k'.get settings = k'.get {} := by
  refine ⟨?_, fun fileName => ?_⟩
  · obtain ⟨settings, hsettings, htext, hrest⟩ := ofLayers_text [[], []] [] hkind
      (textOfScalar_scalarOfVariable s) (by simp) (written_environmentLayer hothers s)
    have hexplicit : (explicitLayer
        ⟨before ++ (k.variableName, s) :: after, systemHome, workingDirectory⟩ none).run answer m =
          (.ok [], m) := rfl
    have hload := run_load (run_commonLayer_of_isFile _ hfiles) hexplicit
    have hverbatim : k.text? settings = some s ↔
        ∀ spelled, spelling? s = some spelled → spelled = s := by
      rw [htext, Option.some_inj, respelled_eq_self_iff]
    exact ⟨settings, hload.trans (congrArg (·, m) hsettings), htext, hverbatim, hrest⟩
  · obtain ⟨layer, hlayer, hwritten⟩ := exists_layer_quotedLine k s fileName
    obtain ⟨settings, hsettings, htext, hrest⟩ := ofLayers_text [[]]
      [environmentLayer (before ++ after)] hkind rfl (by simp [environmentLayer_eq_nil hothers])
      hwritten
    exact ⟨layer, settings, hlayer, hsettings, htext, hrest⟩

end Machine

/-- On an empty disk there is nothing at the end of a way but the root. -/
theorem follow_empty (workingDirectory : List String) {names : List String} {t t' : Trail}
    (ht : ∀ place ∈ t, place.2 = none)
    (hfollow : (Disk.empty workingDirectory).follow t names = .ok t') :
    ∀ place ∈ t', place.2 = none := by
  induction names generalizing t with
  | nil =>
      cases hfollow
      exact ht
  | cons name names ih =>
      rw [Disk.follow] at hfollow
      cases t with
      | nil =>
          dsimp only [Disk.entry?, Disk.empty, List.lookup_nil, List.tail_nil] at hfollow
          split at hfollow
          · exact ih ht hfollow
          · split at hfollow
            · exact ih ht hfollow
            · split at hfollow
              · cases hfollow
              · exact ih (List.forall_mem_singleton.mpr rfl) hfollow
      | cons place t =>
          have hnothing : Disk.entry? (Disk.empty workingDirectory) (place :: t) = none :=
            ht place List.mem_cons_self
          rw [hnothing] at hfollow
          cases hfollow

theorem isFile_empty (workingDirectory : List String) (path : String) :
    (Disk.empty workingDirectory).isFile path = false := by
  rw [Disk.isFile, Disk.fileText]
  cases hlocate : (Disk.empty workingDirectory).locate path with
  | error e => rfl
  | ok t =>
      have hplaces : ∀ place ∈ t, place.2 = none := by
        rw [Disk.locate] at hlocate
        cases hcheck : Disk.checkPath path with
        | error e =>
            rw [hcheck] at hlocate
            cases hlocate
        | ok _ =>
            rw [hcheck] at hlocate
            exact follow_empty workingDirectory (by simp) hlocate
      cases t with
      | nil => rfl
      | cons place t =>
          have hnothing : Disk.entry? (Disk.empty workingDirectory) (place :: t) = none :=
            hplaces place List.mem_cons_self
          simp only [bind, Except.bind, hnothing]

/-- A user of the name 007. -/
theorem load_variable_user :
    ∃ settings,
      (load ⟨[("HOME", "/root"), (Setting.user.variableName, "007")], none, "/work"⟩ none).run
        Disk.answer (Disk.empty ["work"]) = (.ok settings, Disk.empty ["work"]) ∧
      Setting.user.text? settings = some "7" := by
  have hfiles : ∀ path, Disk.answer (Disk.empty ["work"]) (.isFile path) =
      (false, Disk.empty ["work"]) :=
    fun path => congrArg (·, Disk.empty ["work"]) (isFile_empty ["work"] path)
  have hothers : ∀ entry ∈ [("HOME", "/root")] ++ ([] : Environment),
      variableKey? entry.1 = none := by decide +kernel
  obtain ⟨⟨settings, hrun, htext, -, -⟩, -⟩ := load_variable none "/work" (k := .user) hfiles
    (.inl rfl) hothers "007"
  have hrespelled : respelled "007" = "7" := by decide +kernel
  exact ⟨settings, hrun, by rw [htext, hrespelled]⟩

/-- A name of digits is not taken as it is. -/
theorem load_variable_not_verbatim :
    ¬ ∀ s : String, ∃ settings,
      ((load ⟨[(Setting.user.variableName, s)], some "/root", "/work"⟩ none).run Disk.answer
        (Disk.empty ["work"])).1 = .ok settings ∧ settings.shell.user = s := by
  intro hverbatim
  obtain ⟨settings, hrun, huser⟩ := hverbatim "007"
  have hseven :
      ((load ⟨[(Setting.user.variableName, "007")], some "/root", "/work"⟩ none).run Disk.answer
        (Disk.empty ["work"])).1.toOption.map (fun settings => settings.shell.user) = some "7" := by
    decide +kernel
  rw [hrun] at hseven
  have hname : settings.shell.user = "7" := Option.some.inj hseven
  rw [huser] at hname
  exact absurd hname (by decide)

end Settings
end VirtualShell
