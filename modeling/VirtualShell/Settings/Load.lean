import VirtualShell.Host.Directories
import VirtualShell.Host
import VirtualShell.Settings.Layers

/-!
# Loading settings

The common file may be missing; a file that was asked for must be there. A file is found under its
name or, failing that, under its name with `.toml` after it, and is shown by its way from the
working directory.
-/

namespace VirtualShell
namespace Settings

/-- Reads a file that is there. -/
def readSource (place : Surroundings) (path : String) : HostTask (Except Fault SourceFile) := do
  match ← HostTask.content path with
  | .error cause => return .error (.missing cause.message)
  | .ok bytes =>
    match Text.Utf8.decode bytes with
    | .error _ => return .error .notText
    | .ok text => return .ok ⟨NativePath.relativeTo place.workingDirectory path, text⟩

/-- Finds a file and reads it. -/
def findSource (place : Surroundings) (name : String) : HostTask (Except Fault SourceFile) := do
  let path := NativePath.join place.workingDirectory name
  if ← HostTask.isFile path then readSource place path
  else
    let path := NativePath.extend path ".toml"
    if ← HostTask.isFile path then readSource place path
    else return .error (.missing name)

/-- The layer of the common file, empty if there is none. -/
def commonLayer (place : Surroundings) : HostTask (Except Fault (List (String × Tree))) := do
  match Directories.configuration? place with
  | none => return .ok []
  | some path =>
    match ← findSource place path with
    | .ok file => return file.layer
    | .error _ => return .ok []

/-- The layer of a file that was asked for, empty if none was. -/
def explicitLayer (place : Surroundings) (name : Option String) :
    HostTask (Except Fault (List (String × Tree))) := do
  match name with
  | none => return .ok []
  | some name =>
    match ← findSource place name with
    | .ok file => return file.layer
    | .error fault => return .error fault

/-- Loads all layers. -/
def load (place : Surroundings) (explicit : Option String) :
    HostTask (Except Fault Settings) := do
  match ← commonLayer place with
  | .error fault => return .error fault
  | .ok common =>
    match ← explicitLayer place explicit with
    | .error fault => return .error fault
    | .ok explicit => return ofLayers [common, explicit, environmentLayer place.environment]

end Settings

/-- The directory of the store that is set, or of the one that is used when none is. -/
def StorageSettings.directory (s : StorageSettings) (place : Surroundings) :
    Except Directories.Fault String :=
  match firstGiven [s.storePath] with
  | some path => .ok path
  | none => Directories.store place

end VirtualShell
