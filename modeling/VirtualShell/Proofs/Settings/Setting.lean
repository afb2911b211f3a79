import VirtualShell.Settings.Form

/-!
# Single settings

All settings together are a record of records.  Here each of them is a name of its own, with its
group, the name it goes by there and the kind of its values, so that one statement can be made for
all of them.  The steps by which settings are read are described in these terms: a step for the name
of a setting takes a value for it, and leaves every other setting alone.
-/

namespace VirtualShell
namespace Settings

/-! ### Kinds of values -/

/-- What the values of a setting are. -/
inductive Kind where
  | truth
  | amount
  | text
  | path
  /-- Levels by the names of parts of the program. -/
  | levels
  deriving DecidableEq, Repr

/-- The type of the values of a kind. -/
def Kind.Value : Kind → Type
  | .truth => Bool
  | .amount => UInt64
  | .text => String
  | .path => Option String
  | .levels => SortedMap String String

/-! ### Groups -/

/-- The groups of settings. -/
inductive Group where
  | storage
  | shell
  | logging
  deriving DecidableEq, Repr

namespace Group

/-- All groups. -/
def all : List Group :=
  [storage, shell, logging]

/-- The name that a group goes by. -/
def name : Group → String
  | storage => "storage"
  | shell => "shell"
  | logging => "logging"

/-- The name of a group in complaints. -/
def title : Group → String
  | storage => "StorageConfig"
  | shell => "ShellConfig"
  | logging => "LoggingConfig"

/-- The names of the settings of a group. -/
def names : Group → List String
  | storage => storageNames
  | shell => shellNames
  | logging => loggingNames

/-- What the settings of a group are kept in. -/
def Fields : Group → Type
  | storage => StorageSettings
  | shell => ShellSettings
  | logging => LogSettings

/-- The settings of a group. -/
def get : (group : Group) → Settings → group.Fields
  | storage => Settings.storage
  | shell => Settings.shell
  | logging => Settings.logging

/-- All settings, with others for one group. -/
def put : (group : Group) → group.Fields → Settings → Settings
  | storage, fields, s => { s with storage := fields }
  | shell, fields, s => { s with shell := fields }
  | logging, fields, s => { s with logging := fields }

/-- What is set by a group that names no setting. -/
def blank : (group : Group) → group.Fields
  | storage => StorageSettings.blank
  | shell => ShellSettings.blank
  | logging => LogSettings.blank

/-- A group that names no setting sets what counts if it is left out. -/
theorem blank_eq_get (group : Group) : group.blank = group.get {} := by
  cases group <;> rfl

/-- The group of a name. -/
def named? (name : String) : Option Group :=
  all.find? fun group => group.name = name

theorem named?_name (group : Group) : named? group.name = some group := by
  cases group <;> rfl

theorem eq_of_name {group group' : Group} (hname : group.name = group'.name) : group = group' :=
  Option.some.inj (by rw [← named?_name group, ← named?_name group', hname])

theorem get_put (group : Group) (fields : group.Fields) (s : Settings) :
    group.get (group.put fields s) = fields := by
  cases group <;> rfl

end Group

/-! ### Settings -/

/-- Each setting by itself. -/
inductive Setting where
  | storePath
  | quotaBytes
  | flushOnWrite
  | user
  | host
  | shellColor
  | bootstrap
  | enabled
  | level
  | format
  | output
  | file
  | logColor
  | modules
  deriving DecidableEq, Repr

namespace Setting

/-- All settings. -/
def all : List Setting :=
  [storePath, quotaBytes, flushOnWrite, user, host, shellColor, bootstrap, enabled, level, format,
    output, file, logColor, modules]

/-- The group of a setting. -/
def group : Setting → Group
  | storePath | quotaBytes | flushOnWrite => .storage
  | user | host | shellColor | bootstrap => .shell
  | enabled | level | format | output | file | logColor | modules => .logging

/-- The name that a setting goes by in its group. -/
def name : Setting → String
  | storePath => "store_path"
  | quotaBytes => "quota_bytes"
  | flushOnWrite => "flush_on_write"
  | user => "user"
  | host => "host"
  | shellColor => "color"
  | bootstrap => "bootstrap"
  | enabled => "enabled"
  | level => "level"
  | format => "format"
  | output => "output"
  | file => "file"
  | logColor => "color"
  | modules => "modules"

/-- The setting of a name in a group. -/
def named? (group : Group) (name : String) : Option Setting :=
  all.find? fun k => k.group = group ∧ k.name = name

theorem named?_name (k : Setting) : named? k.group k.name = some k := by
  cases k <;> rfl

theorem eq_of_name {k k' : Setting} (hgroup : k.group = k'.group) (hname : k.name = k'.name) :
    k = k' :=
  Option.some.inj (by rw [← named?_name k, ← named?_name k', hgroup, hname])

/-- The kind of a setting. -/
def kind : Setting → Kind
  | storePath | file => .path
  | quotaBytes => .amount
  | user | host | level | format | output => .text
  | flushOnWrite | shellColor | bootstrap | enabled | logColor => .truth
  | modules => .levels

/-- The value of a setting in its group. -/
def getIn : (k : Setting) → k.group.Fields → k.kind.Value
  | storePath => StorageSettings.storePath
  | quotaBytes => StorageSettings.quotaBytes
  | flushOnWrite => StorageSettings.flushOnWrite
  | user => ShellSettings.user
  | host => ShellSettings.host
  | shellColor => ShellSettings.color
  | bootstrap => ShellSettings.bootstrap
  | enabled => LogSettings.enabled
  | level => LogSettings.level
  | format => LogSettings.format
  | output => LogSettings.output
  | file => LogSettings.file
  | logColor => LogSettings.color
  | modules => LogSettings.modules

/-- A group with another value for a setting. -/
def putIn : (k : Setting) → k.kind.Value → k.group.Fields → k.group.Fields
  | storePath, a, (s : StorageSettings) => { s with storePath := a }
  | quotaBytes, a, (s : StorageSettings) => { s with quotaBytes := a }
  | flushOnWrite, a, (s : StorageSettings) => { s with flushOnWrite := a }
  | user, a, (s : ShellSettings) => { s with user := a }
  | host, a, (s : ShellSettings) => { s with host := a }
  | shellColor, a, (s : ShellSettings) => { s with color := a }
  | bootstrap, a, (s : ShellSettings) => { s with bootstrap := a }
  | enabled, a, (s : LogSettings) => { s with enabled := a }
  | level, a, (s : LogSettings) => { s with level := a }
  | format, a, (s : LogSettings) => { s with format := a }
  | output, a, (s : LogSettings) => { s with output := a }
  | file, a, (s : LogSettings) => { s with file := a }
  | logColor, a, (s : LogSettings) => { s with color := a }
  | modules, a, (s : LogSettings) => { s with modules := a }

/-- The value of a setting. -/
def get (k : Setting) (s : Settings) : k.kind.Value :=
  k.getIn (k.group.get s)

theorem getIn_putIn (k : Setting) (a : k.kind.Value) (fields : k.group.Fields) :
    k.getIn (k.putIn a fields) = a := by
  cases k <;> rfl

/-- Settings are the same if each of them has the same value. -/
theorem ext_get {s t : Settings} (hget : ∀ k : Setting, k.get s = k.get t) : s = t := by
  obtain ⟨⟨storePath, quotaBytes, flushOnWrite⟩, ⟨user, host, shellColor, bootstrap⟩,
    ⟨enabled, level, format, output, file, logColor, modules⟩⟩ := s
  obtain rfl : storePath = _ := hget .storePath
  obtain rfl : quotaBytes = _ := hget .quotaBytes
  obtain rfl : flushOnWrite = _ := hget .flushOnWrite
  obtain rfl : user = _ := hget .user
  obtain rfl : host = _ := hget .host
  obtain rfl : shellColor = _ := hget .shellColor
  obtain rfl : bootstrap = _ := hget .bootstrap
  obtain rfl : enabled = _ := hget .enabled
  obtain rfl : level = _ := hget .level
  obtain rfl : format = _ := hget .format
  obtain rfl : output = _ := hget .output
  obtain rfl : file = _ := hget .file
  obtain rfl : logColor = _ := hget .logColor
  obtain rfl : modules = _ := hget .modules
  rfl

end Setting

/-! ### Steps -/

section Steps

variable {ν ε σ α : Type}

/-- A step that takes a value for `get` under one name, and keeps `get` under every other name. -/
structure Governs (set : σ → String → ν → Except ε σ) (name : String) (get : σ → α)
    (take : ν → Except ε α) : Prop where
  own {s s' : σ} {value : ν} : set s name value = .ok s' → take value = .ok (get s')
  other {s s' : σ} {otherName : String} {value : ν} :
    otherName ≠ name → set s otherName value = .ok s' → get s' = get s

/-- Takes a value of a kind. -/
def Form.take (form : Form ν ε) : (kind : Kind) → ν → Except ε kind.Value
  | .truth => form.boolean
  | .amount => form.natural
  | .text => form.text
  | .path => form.path
  | .levels => form.readTexts

/-- Sets one setting of a group. -/
def Form.set (form : Form ν ε) :
    (group : Group) → group.Fields → String → ν → Except ε group.Fields
  | .storage => form.setStorage
  | .shell => form.setShell
  | .logging => form.setLogging

/-- Reads the settings of a group. -/
def Form.readFields (form : Form ν ε) (group : Group) (value : ν) : Except ε group.Fields :=
  form.readGroup group.title group.names (form.set group) group.blank value

/-- What is done to a result that there is. -/
theorem exists_of_bind_eq_ok {x : Except ε α} {f : α → σ} {s : σ}
    (hbind : (do return f (← x)) = Except.ok s) : ∃ a, x = .ok a ∧ s = f a := by
  cases x with
  | error e => cases hbind
  | ok a => exact ⟨a, rfl, (Except.ok.inj hbind).symm⟩

/-- Whatever comes about has the same value for `get` as what it came from. -/
def Keeps (get : σ → α) (s : σ) (x : Except ε σ) : Prop :=
  ∀ s', x = .ok s' → get s' = get s

namespace Keeps

variable {β : Type} {get : σ → α} {s : σ}

theorem stay : Keeps get s (.ok s : Except ε σ) := by
  rintro _ ⟨⟩
  rfl

theorem put {x : Except ε β} {f : β → σ} (hf : ∀ b, get (f b) = get s) :
    Keeps get s (do return f (← x)) := by
  intro s' hx
  obtain ⟨b, -, rfl⟩ := exists_of_bind_eq_ok hx
  exact hf b

theorem choose {p : Prop} [Decidable p] {x y : Except ε σ} (hx : p → Keeps get s x)
    (hy : Keeps get s y) : Keeps get s (if p then x else y) := by
  split
  · exact hx ‹p›
  · exact hy

end Keeps

variable (form : Form ν ε)

theorem Form.set_name (k : Setting) (fields : k.group.Fields) (value : ν) :
    form.set k.group fields k.name value =
      do return k.putIn (← form.take k.kind value) fields := by
  cases k <;> rfl

theorem Form.set_of_ne {group : Group} {name : String}
    (hname : ∀ k : Setting, k.group = group → name ≠ k.name) (fields : group.Fields) (value : ν) :
    form.set group fields name value = .ok fields := by
  cases group with
  | storage =>
      exact (if_neg (hname .storePath rfl)).trans <| (if_neg (hname .quotaBytes rfl)).trans <|
        if_neg (hname .flushOnWrite rfl)
  | shell =>
      exact (if_neg (hname .user rfl)).trans <| (if_neg (hname .host rfl)).trans <|
        (if_neg (hname .shellColor rfl)).trans <| if_neg (hname .bootstrap rfl)
  | logging =>
      exact (if_neg (hname .enabled rfl)).trans <| (if_neg (hname .level rfl)).trans <|
        (if_neg (hname .format rfl)).trans <| (if_neg (hname .output rfl)).trans <|
        (if_neg (hname .file rfl)).trans <| (if_neg (hname .logColor rfl)).trans <|
        if_neg (hname .modules rfl)

/-- A step of a group takes a value for the setting of its name alone. -/
theorem Form.governs_set (k : Setting) :
    Governs (form.set k.group) k.name k.getIn (form.take k.kind) where
  own {s s' value} hset := by
    rw [form.set_name] at hset
    obtain ⟨a, ha, rfl⟩ := exists_of_bind_eq_ok hset
    rw [ha, k.getIn_putIn]
  other {s s' otherName value} hne := by
    suffices hkeeps : Keeps k.getIn s (form.set k.group s otherName value) from hkeeps s'
    cases k <;>
    · simp only [Form.set, Setting.group, Form.setStorage, Form.setShell, Form.setLogging]
      repeat' first
        | refine .choose (fun hname => ?_) ?_
        | exact .stay
        | exact absurd hname hne
        | exact .put fun _ => rfl

/-- A step of a group comes about if the value can be taken, should the name be that of a setting. -/
theorem Form.exists_set {group : Group} {name : String} {value : ν}
    (htake : ∀ k : Setting, k.group = group → k.name = name → ∃ a, form.take k.kind value = .ok a)
    (fields : group.Fields) : ∃ fields', form.set group fields name value = .ok fields' := by
  by_cases hname : ∃ k : Setting, k.group = group ∧ k.name = name
  · obtain ⟨k, rfl, rfl⟩ := hname
    obtain ⟨a, ha⟩ := htake k rfl rfl
    exact ⟨k.putIn a fields, by rw [form.set_name, ha]; rfl⟩
  · refine ⟨fields, form.set_of_ne (fun k hk hne => hname ⟨k, hk, hne.symm⟩) fields value⟩

theorem Form.setGroup_name (group : Group) (s : Settings) (value : ν) :
    form.setGroup s group.name value = do return group.put (← form.readFields group value) s := by
  cases group <;> rfl

theorem Form.setGroup_of_ne {name : String} (hname : ∀ group : Group, name ≠ group.name)
    (s : Settings) (value : ν) : form.setGroup s name value = .ok s :=
  (if_neg (hname .storage)).trans <| (if_neg (hname .shell)).trans <| if_neg (hname .logging)

/-- A step among the groups reads the group of its name alone. -/
theorem Form.governs_setGroup (group : Group) :
    Governs form.setGroup group.name group.get (form.readFields group) where
  own {s s' value} hset := by
    rw [form.setGroup_name] at hset
    obtain ⟨fields, hfields, rfl⟩ := exists_of_bind_eq_ok hset
    rw [hfields, group.get_put]
  other {s s' otherName value} hne := by
    suffices hkeeps : Keeps group.get s (form.setGroup s otherName value) from hkeeps s'
    cases group <;>
    · rw [Form.setGroup]
      repeat' first
        | refine .choose (fun hname => ?_) ?_
        | exact .stay
        | exact absurd hname hne
        | exact .put fun _ => rfl

/-- A step among the groups comes about if the group can be read, should there be one of the name. -/
theorem Form.exists_setGroup {name : String} {value : ν}
    (hread : ∀ group : Group, group.name = name → ∃ fields, form.readFields group value = .ok fields)
    (s : Settings) : ∃ s', form.setGroup s name value = .ok s' := by
  by_cases hname : ∃ group : Group, group.name = name
  · obtain ⟨group, rfl⟩ := hname
    obtain ⟨fields, hfields⟩ := hread group rfl
    exact ⟨group.put fields s, by rw [form.setGroup_name, hfields]; rfl⟩
  · refine ⟨s, form.setGroup_of_ne (fun group hne => hname ⟨group, hne.symm⟩) s value⟩

end Steps

end Settings
end VirtualShell
