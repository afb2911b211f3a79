import VirtualShell.Settings

/-!
# Settings out of values

The settings are read from values of any form that says how it takes texts, numbers and groups.
What is not there keeps its own value, and names that are not known are passed over. A group may
also be a list of its settings in order.
-/

namespace VirtualShell
namespace Settings

/-- The parts of a group: by name, or in order. -/
inductive Members (ν : Type) where
  | named (entries : List (String × ν))
  | ordered (items : List ν)

/-- How values of type `ν` are taken for settings, with complaints of type `ε`. -/
structure Form (ν ε : Type) where
  /-- The parts of a group, whose name is given for the complaint. -/
  members : String → ν → Except ε (Members ν)
  /-- The entries of a map from texts. -/
  entries : ν → Except ε (List (String × ν))
  boolean : ν → Except ε Bool
  natural : ν → Except ε UInt64
  text : ν → Except ε String
  /-- A path, if the value is not missing. -/
  path : ν → Except ε (Option String)
  /-- A complaint about a part, as one about the whole. -/
  inEntry : String → ε → ε
  /-- A complaint about an item, as one about the list. -/
  inItem : Nat → ε → ε
  /-- The complaint about a list that is longer than its group. -/
  surplus : Nat → Option ε

variable {ν ε σ : Type}

/-- Sets what the entries of a group say, one after the other. -/
def Form.setEntries (form : Form ν ε) (set : σ → String → ν → Except ε σ) (start : σ) :
    List (String × ν) → Except ε σ
  | [] => .ok start
  | entry :: rest => do
    let s ← (set start entry.1 entry.2).mapError (form.inEntry entry.1)
    form.setEntries set s rest

/-- Sets what the items of a list say for the names of a group. `index` is the place of the first
item. -/
def Form.setItems (form : Form ν ε) (set : σ → String → ν → Except ε σ) (start : σ)
    (index : Nat) : List String → List ν → Except ε σ
  | name :: names, item :: items => do
    let s ← (set start name item).mapError (form.inItem index)
    form.setItems set s (index + 1) names items
  | _, _ => .ok start

/-- Sets what a value says about a group with some names. -/
def Form.readGroup (form : Form ν ε) (group : String) (names : List String)
    (set : σ → String → ν → Except ε σ) (start : σ) (value : ν) : Except ε σ := do
  match ← form.members group value with
  | .named entries => form.setEntries set start entries
  | .ordered items =>
    let s ← form.setItems set start 0 names items
    if names.length < items.length then
      match form.surplus items.length with
      | some complaint => throw complaint
      | none => return s
    else return s

/-- The texts of a map. -/
def Form.readTexts (form : Form ν ε) (value : ν) : Except ε (SortedMap String String) := do
  let entries ← form.entries value
  form.setEntries (fun m key value => do return m.insert key (← form.text value)) .empty entries

/-- Sets one setting of the store. -/
def Form.setStorage (form : Form ν ε) (s : StorageSettings) (name : String) (value : ν) :
    Except ε StorageSettings :=
  if name = "store_path" then do return { s with storePath := ← form.path value }
  else if name = "quota_bytes" then do return { s with quotaBytes := ← form.natural value }
  else if name = "flush_on_write" then do return { s with flushOnWrite := ← form.boolean value }
  else .ok s

/-- The names of the settings of the store, in order. -/
def storageNames : List String :=
  ["store_path", "quota_bytes", "flush_on_write"]

/-- Sets one setting of the shell. -/
def Form.setShell (form : Form ν ε) (s : ShellSettings) (name : String) (value : ν) :
    Except ε ShellSettings :=
  if name = "user" then do return { s with user := ← form.text value }
  else if name = "host" then do return { s with host := ← form.text value }
  else if name = "color" then do return { s with color := ← form.boolean value }
  else if name = "bootstrap" then do return { s with bootstrap := ← form.boolean value }
  else .ok s

/-- The names of the settings of the shell, in order. -/
def shellNames : List String :=
  ["user", "host", "color", "bootstrap"]

/-- Sets one setting of the log. -/
def Form.setLogging (form : Form ν ε) (s : LogSettings) (name : String) (value : ν) :
    Except ε LogSettings :=
  if name = "enabled" then do return { s with enabled := ← form.boolean value }
  else if name = "level" then do return { s with level := ← form.text value }
  else if name = "format" then do return { s with format := ← form.text value }
  else if name = "output" then do return { s with output := ← form.text value }
  else if name = "file" then do return { s with file := ← form.path value }
  else if name = "color" then do return { s with color := ← form.boolean value }
  else if name = "modules" then do return { s with modules := ← form.readTexts value }
  else .ok s

/-- The names of the settings of the log, in order. -/
def loggingNames : List String :=
  ["enabled", "level", "format", "output", "file", "color", "modules"]

/-- Sets one group of settings. -/
def Form.setGroup (form : Form ν ε) (s : Settings) (name : String) (value : ν) :
    Except ε Settings :=
  if name = "storage" then do
    return { s with
      storage := ← form.readGroup "StorageConfig" storageNames form.setStorage .blank value }
  else if name = "shell" then do
    return { s with
      shell := ← form.readGroup "ShellConfig" shellNames form.setShell .blank value }
  else if name = "logging" then do
    return { s with
      logging := ← form.readGroup "LoggingConfig" loggingNames form.setLogging .blank value }
  else .ok s

/-- The names of the groups, in order. -/
def groupNames : List String :=
  ["storage", "shell", "logging"]

/-- All settings that a value says. -/
def Form.read (form : Form ν ε) (value : ν) : Except ε Settings :=
  form.readGroup "TermiConfig" groupNames form.setGroup {} value

end Settings
end VirtualShell
