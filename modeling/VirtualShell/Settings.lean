import VirtualShell.Json.Value
import VirtualShell.Session
import VirtualShell.SortedMap

/-!
# Settings

What can be set for the store, the shell and the log. A setting that its group does not name has a
value of its own, and so has a group that is left out.
-/

namespace VirtualShell

/-- What is set for the store: its directory, the bytes it may come to use, and whether it waits
after each change until the change is kept for good. -/
structure StorageSettings where
  storePath : Option String := none
  quotaBytes : UInt64 := UInt64.ofNat defaultQuotaBytes
  flushOnWrite : Bool := true
  deriving DecidableEq, Repr

/-- What is set for the shell: the names in its prompt, whether it paints texts, and whether an
empty store gets the first tree. -/
structure ShellSettings where
  user : String := "user"
  host : String := "termi-web"
  color : Bool := true
  bootstrap : Bool := true
  deriving DecidableEq, Repr

/-- What is set for the log. Level, format and output are texts that are looked at when the log is
set up. -/
structure LogSettings where
  enabled : Bool := true
  level : String := "info"
  format : String := "text"
  output : String := "file"
  file : Option String := none
  color : Bool := true
  /-- Levels for single parts of the program. -/
  modules : SortedMap String String := .empty

namespace StorageSettings

/-- What is set for the store by a group that names no setting. -/
def blank : StorageSettings := {}

/-- What is set for the store if its group is left out. -/
def omitted : StorageSettings where
  storePath := none
  quotaBytes := UInt64.ofNat defaultQuotaBytes
  flushOnWrite := true

/-- The settings of a session. -/
def sessionOptions (s : StorageSettings) : SessionOptions :=
  ⟨s.quotaBytes.toNat, s.flushOnWrite⟩

end StorageSettings

/-- What is set for the shell by a group that names no setting. -/
def ShellSettings.blank : ShellSettings := {}

/-- What is set for the shell if its group is left out. -/
def ShellSettings.omitted : ShellSettings where
  user := "user"
  host := "termi-web"
  color := true
  bootstrap := true

/-- What is set for the log by a group that names no setting. -/
def LogSettings.blank : LogSettings := {}

/-- What is set for the log if its group is left out. -/
def LogSettings.omitted : LogSettings where
  enabled := true
  level := "info"
  format := "text"
  output := "file"
  file := none
  color := true
  modules := .empty

/-- All settings. -/
structure Settings where
  storage : StorageSettings := .omitted
  shell : ShellSettings := .omitted
  logging : LogSettings := .omitted

/-- A text that may be missing, as a JSON value. -/
def optionalText : Option String → Json
  | some s => .text s
  | none => .null

/-- The settings of the store as a JSON value. -/
def StorageSettings.toJson (s : StorageSettings) : Json :=
  .object [("store_path", optionalText s.storePath), ("quota_bytes", .integer s.quotaBytes.toNat),
    ("flush_on_write", .boolean s.flushOnWrite)]

/-- The settings of the shell as a JSON value. -/
def ShellSettings.toJson (s : ShellSettings) : Json :=
  .object [("user", .text s.user), ("host", .text s.host), ("color", .boolean s.color),
    ("bootstrap", .boolean s.bootstrap)]

/-- The settings of the log as a JSON value. -/
def LogSettings.toJson (s : LogSettings) : Json :=
  .object [("enabled", .boolean s.enabled), ("level", .text s.level), ("format", .text s.format),
    ("output", .text s.output), ("file", optionalText s.file), ("color", .boolean s.color),
    ("modules", .object (s.modules.entries.map fun entry => (entry.1, .text entry.2)))]

/-- All settings as a JSON value. -/
def Settings.toJson (s : Settings) : Json :=
  .object [("storage", s.storage.toJson), ("shell", s.shell.toJson),
    ("logging", s.logging.toJson)]

end VirtualShell
