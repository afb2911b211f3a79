import VirtualShell.Host.Directories
import VirtualShell.Host
import VirtualShell.Log.Filter
import VirtualShell.Log.Line
import VirtualShell.Settings
import VirtualShell.Text.Quoted

/-!
# Setting up the log

Settings and environment decide what is logged, how, and where to. All of that is looked at before
a file is touched, so settings that are refused leave no trace. Variables go over settings.
-/

namespace VirtualShell
namespace Log

/-- Why a log is not set up. -/
inductive SetupFault where
  | directive (fault : DirectiveFault)
  | format (text : String)
  | output (text : String)
  | directories (fault : Directories.Fault)
  | directory (cause : SystemError)
  | file (path : String) (cause : SystemError)
  /-- There is a log already. -/
  | installed
  deriving DecidableEq, Repr

/-- What is wrong, in words. -/
def SetupFault.reason : SetupFault → String
  | .directive fault => "Invalid log directive: " ++ fault.message
  | .format text => s!"Invalid log format: {text} (must be 'json' or 'text')"
  | .output text =>
    s!"Invalid log output: {text} " ++
      "(must be 'stdout', 'stderr', 'file', 'file+stderr', or 'both')"
  | .directories fault => fault.reason
  | .directory cause => "Failed to create log directory: " ++ cause.message
  | .file path cause => "Failed to open log file " ++ Text.quoted path ++ ": " ++ cause.message
  | .installed =>
    "Failed to install logger: a global default trace dispatcher has already been set"

/-- The words for a fault. -/
def SetupFault.message (fault : SetupFault) : String :=
  "configuration error: " ++ fault.reason

/-! ### What is logged -/

/-- The filter that the environment sets, if it sets a valid one. -/
def environmentFilter? (environment : Environment) : Option Filter :=
  match environment.value? "TERMIWEB_LOG" with
  | some text => (Filter.ofText text).toOption
  | none => none

/-- The filter with the level of one part of the program. -/
def addModule (f : Filter) (entry : String × String) : Except SetupFault Filter :=
  match Directive.ofText (entry.1 ++ "=" ++ entry.2) with
  | .ok d => .ok (f.add d)
  | .error fault => .error (.directive fault)

/-- The filter that the settings make up. Parts of the level that are no directives are passed
over. -/
def settingsFilter (settings : LogSettings) : Except SetupFault Filter :=
  if settings.level = "off" then .ok .silent
  else
    settings.modules.entries.foldlM addModule
      (.errorsOrDirectives (sortDirectives (directiveTexts settings.level)).1)

/-- The lines about what was passed over. -/
def passedOver (settings : LogSettings) : List String :=
  if settings.level = "off" then []
  else (sortDirectives (directiveTexts settings.level)).2

/-- The filter, from the environment if it sets one. -/
def filter (settings : LogSettings) (environment : Environment) : Except SetupFault Filter :=
  match environmentFilter? environment with
  | some f => .ok f
  | none => settingsFilter settings

/-- The lines that are shown when the filter is made. -/
def complaints (settings : LogSettings) (environment : Environment) : List String :=
  if (environmentFilter? environment).isSome then [] else passedOver settings

/-! ### How and where to -/

/-- The names of the formats. -/
inductive FormatName where
  | json
  | text
  deriving DecidableEq, Repr

/-- The format that a text names. -/
def formatName? (s : String) : Option FormatName :=
  if s = "json" then some .json else if s = "text" then some .text else none

/-- The format. A variable that names none does not count. -/
def format (settings : LogSettings) (environment : Environment) : Except SetupFault FormatName :=
  match (environment.value? "TERMIWEB_LOG_FORMAT").bind formatName? with
  | some name => .ok name
  | none =>
    match formatName? settings.format with
    | some name => .ok name
    | none => .error (.format settings.format)

/-- Where lines go to. -/
structure Destinations where
  stdout : Bool
  stderr : Bool
  file : Bool
  deriving DecidableEq, Repr

/-- The destinations that a text names. -/
def destinations? (s : String) : Option Destinations :=
  match s with
  | "stdout" => some ⟨true, false, false⟩
  | "stderr" => some ⟨false, true, false⟩
  | "file" => some ⟨false, false, true⟩
  | "file+stderr" => some ⟨false, true, true⟩
  | "both" => some ⟨true, true, false⟩
  | _ => none

/-- The destinations, from the environment if it says anything about them. -/
def destinations (settings : LogSettings) (environment : Environment) :
    Except SetupFault Destinations :=
  let text := (environment.value? "TERMIWEB_LOG_OUTPUT").getD settings.output
  match destinations? text with
  | some d => .ok d
  | none => .error (.output text)

/-- The file of the log: the one given with the command, in the environment or in the settings, or
else one in the state directory. -/
def filePath (place : Surroundings) (given setting : Option String) :
    Except Directories.Fault String :=
  match firstGiven [given, place.environment.value? "TERMIWEB_LOG_FILE", setting] with
  | some path => .ok path
  | none => do return NativePath.join (← Directories.state place) "termiweb.log"

/-- What is decided before anything is touched. -/
structure Plan where
  filter : Filter
  format : FormatName
  destinations : Destinations
  deriving DecidableEq, Repr

/-- The decisions, or the first that cannot be made. -/
def plan (settings : LogSettings) (environment : Environment) : Except SetupFault Plan := do
  let filter ← filter settings environment
  let format ← format settings environment
  let destinations ← destinations settings environment
  return { filter, format, destinations }

/-! ### The log -/

/-- A log that is set up. -/
structure Logger where
  filter : Filter
  format : Format
  stdout : Bool
  stderr : Bool
  file : Option String
  deriving DecidableEq, Repr

/-- The log that nothing is written to. -/
def Logger.silent : Logger :=
  ⟨.silent, .text false, false, false, none⟩

/-- The log of a plan. Lines are coloured if that is set and no file gets them. -/
def Plan.logger (p : Plan) (color : Bool) (file : Option String) : Logger where
  filter := p.filter
  format :=
    match p.format with
    | .json => .json
    | .text => .text (color && !p.destinations.file)
  stdout := p.destinations.stdout
  stderr := p.destinations.stderr
  file := file

/-- Makes the directories above a path, if any are. -/
def createAbove (path : String) : HostTask (Except SystemError Unit) :=
  match NativePath.parent? path with
  | some directory => HostTask.createDirectories directory
  | none => return .ok ()

/-- Makes a file if there is none, to append to it. -/
def openAt (path : String) : HostTask (Except SetupFault Unit) := do
  match ← HostTask.openLog path with
  | .error cause => return .error (.file path cause)
  | .ok () => return .ok ()

/-- Makes the file of the log ready, with the directories above it. -/
def openFile (path : String) : HostTask (Except SetupFault Unit) := do
  match ← createAbove path with
  | .error cause => return .error (.directory cause)
  | .ok () => openAt path

/-- Sets up what a plan says. -/
def Plan.carryOut (p : Plan) (settings : LogSettings) (place : Surroundings) :
    HostTask (Except SetupFault Logger) := do
  if p.destinations.file then
    match filePath place none settings.file with
    | .error fault => return .error (.directories fault)
    | .ok path =>
      match ← openFile path with
      | .error fault => return .error fault
      | .ok () => return .ok (p.logger settings.color (some path))
  else return .ok (p.logger settings.color none)

/-- Makes the log ready. -/
def prepare (settings : LogSettings) (place : Surroundings) :
    HostTask (Except SetupFault Logger) := do
  if settings.enabled then
    HostTask.warn (complaints settings place.environment)
    match plan settings place.environment with
    | .error fault => return .error fault
    | .ok p => p.carryOut settings place
  else return .ok .silent

/-- Sets up the log, which can be done once only. -/
def setup (settings : LogSettings) (place : Surroundings) (already : Bool) :
    HostTask (Except SetupFault Logger) := do
  match ← prepare settings place with
  | .error fault => return .error fault
  | .ok logger => return if already then .error .installed else .ok logger

end Log
end VirtualShell
