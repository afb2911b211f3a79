import VirtualShell.Settings

/-!
# Options of the program

The program takes long options with their values after an equals sign or as the next argument, the
short options `-c` and `-h`, and no other arguments. The value of an option is looked at when the
next option comes, or at the end, so an argument that is not known is complained of first.
-/

namespace VirtualShell
namespace CommandLine

/-- What the arguments ask for. -/
structure Options where
  config : Option String := none
  store : Option String := none
  ephemeral : Bool := false
  logLevel : Option String := none
  logOutput : Option String := none
  command : Option String := none
  deriving DecidableEq, Repr

/-- Why the arguments are not carried out. -/
inductive Refusal where
  /-- Help was asked for. -/
  | help
  | unknownArgument (argument : String)
  | invalidValue (option : String)
  | repeated (option : String)
  | unwantedValue (option : String)
  deriving DecidableEq, Repr

/-- The exit code for arguments that are not carried out. -/
def Refusal.exitCode : Refusal → Nat
  | .help => 0
  | _ => 2

/-- How the program is called. -/
def usageLine : String := "Usage: termiweb [OPTIONS]"

/-- The lines of help. -/
def helpLines : List String :=
  ["Browser-style shell over a persistent virtual filesystem",
    "",
    usageLine,
    "",
    "Options:",
    "      --config <CONFIG>          Configuration file path",
    "      --store <STORE>            Node store directory",
    "      --ephemeral                Keep the filesystem in memory only",
    "      --log-level <LOG_LEVEL>    Log level (trace, debug, info, warn, error, off)",
    "      --log-output <LOG_OUTPUT>  Log output (stdout, stderr, file, file+stderr, both)",
    "  -c, --command <COMMAND>        Run a single command line and exit",
    "  -h, --help                     Print help"]

/-- What is said about arguments that are not carried out. -/
def Refusal.message : Refusal → String
  | .help => String.intercalate "\n" helpLines
  | .unknownArgument argument => s!"error: unexpected argument '{argument}' found\n\n{usageLine}"
  | .invalidValue option => s!"error: a value is required for '{option}' but none was supplied"
  | .repeated option =>
    s!"error: the argument '{option}' cannot be used multiple times\n\n{usageLine}"
  | .unwantedValue option =>
    s!"error: unexpected value for '{option}' found; no more were expected\n\n{usageLine}"

/-- The options that take a value. -/
inductive ValueOption where
  | config
  | store
  | logLevel
  | logOutput
  | command
  deriving DecidableEq, Repr

/-- The long name of an option. -/
def ValueOption.name : ValueOption → String
  | .config => "--config"
  | .store => "--store"
  | .logLevel => "--log-level"
  | .logOutput => "--log-output"
  | .command => "--command"

/-- Whether an option's value must not be empty: it is a path. -/
def ValueOption.isPath : ValueOption → Bool
  | .config | .store => true
  | _ => false

/-- The value of an option, if it was given. -/
def Options.value? (o : Options) : ValueOption → Option String
  | .config => o.config
  | .store => o.store
  | .logLevel => o.logLevel
  | .logOutput => o.logOutput
  | .command => o.command

/-- The options with a value for one of them. -/
def Options.set (o : Options) (value : String) : ValueOption → Options
  | .config => { o with config := some value }
  | .store => { o with store := some value }
  | .logLevel => { o with logLevel := some value }
  | .logOutput => { o with logOutput := some value }
  | .command => { o with command := some value }

/-- The options with a value, which there must be, given for the first time, and not empty for a
path. -/
def Options.give (o : Options) (option : ValueOption) (value : Option String) :
    Except Refusal Options :=
  match value with
  | none => .error (.invalidValue option.name)
  | some value =>
    if (o.value? option).isSome then .error (.repeated option.name)
    else if option.isPath && value.isEmpty then .error (.invalidValue option.name)
    else .ok (o.set value option)

/-! ### Arguments -/

/-- What an argument is by itself. -/
inductive Argument where
  /-- An option with the value after its equals sign, if there is one. -/
  | valued (option : ValueOption) (value : Option String)
  | ephemeral
  | help
  | unwantedValue (option : String)
  /-- Something that starts like an option and is none. -/
  | unknown
  /-- Two hyphens, after which no option follows. -/
  | separator
  | plain
  deriving DecidableEq, Repr

/-- The option that takes a value and has a long name. -/
def valueOption? (name : String) : Option ValueOption :=
  match name with
  | "config" => some .config
  | "store" => some .store
  | "log-level" => some .logLevel
  | "log-output" => some .logOutput
  | "command" => some .command
  | _ => none

/-- What a long option is, given the characters after the hyphens. -/
def classifyLong (cs : List Char) : Argument :=
  let name := String.ofList (cs.takeWhile (· != '='))
  let value :=
    match cs.dropWhile (· != '=') with
    | _ :: value => some (String.ofList value)
    | [] => none
  match valueOption? name with
  | some option => .valued option value
  | none =>
    if name = "ephemeral" ∨ name = "help" then
      match value with
      | some _ => .unwantedValue ("--" ++ name)
      | none => if name = "help" then .help else .ephemeral
    else .unknown

/-- What a short option is, given the characters after the hyphen. -/
def classifyShort : List Char → Argument
  | 'h' :: _ => .help
  | ['c'] => .valued .command none
  | 'c' :: '=' :: value => .valued .command (some (String.ofList value))
  | 'c' :: value => .valued .command (some (String.ofList value))
  | _ => .unknown

/-- What an argument is. -/
def classify (argument : String) : Argument :=
  match argument.toList with
  | ['-', '-'] => .separator
  | '-' :: '-' :: cs => classifyLong cs
  | ['-'] => .plain
  | '-' :: cs => classifyShort cs
  | _ => .plain

/-- An option whose value may still come, or has come as an argument of its own and was not looked
at yet. -/
structure Pending where
  option : ValueOption
  value : Option String
  deriving DecidableEq, Repr

/-- The options with the value that was not looked at yet. -/
def Options.settle (o : Options) : Option Pending → Except Refusal Options
  | none => .ok o
  | some pending => o.give pending.option pending.value

/-- Reads the arguments after some options. -/
def readAll (o : Options) (pending : Option Pending) : List String → Except Refusal Options
  | [] => o.settle pending
  | argument :: rest =>
    match classify argument with
    | .separator =>
      match rest with
      | [] => o.settle pending
      | argument :: _ => .error (.unknownArgument argument)
    | .unknown => .error (.unknownArgument argument)
    | .unwantedValue option => .error (.unwantedValue option)
    | .help => do
      let _ ← o.settle pending
      throw .help
    | .ephemeral => do
      let o ← o.settle pending
      if o.ephemeral then throw (.repeated "--ephemeral")
      else readAll { o with ephemeral := true } none rest
    | .valued option (some value) => do
      let o ← o.settle pending
      readAll (← o.give option (some value)) none rest
    | .valued option none => do
      let o ← o.settle pending
      readAll o (some ⟨option, none⟩) rest
    | .plain =>
      match pending with
      | some ⟨option, none⟩ => readAll o (some ⟨option, some argument⟩) rest
      | _ => .error (.unknownArgument argument)

/-- The options that the arguments are. -/
def read (arguments : List String) : Except Refusal Options :=
  readAll {} none arguments

/-- The settings with what the options set. -/
def Options.override (o : Options) (s : Settings) : Settings where
  storage := { s.storage with storePath := o.store.or s.storage.storePath }
  shell := s.shell
  logging :=
    { s.logging with
      level := o.logLevel.getD s.logging.level
      output := o.logOutput.getD s.logging.output }

end CommandLine
end VirtualShell
