import VirtualShell.Json.Writer
import VirtualShell.Log.Event

/-!
# Lines of the log

An event is written as a line of text, in colours if they are wanted, or as a JSON object.
-/

namespace VirtualShell
namespace Log

/-- How events are written. -/
inductive Format where
  | text (colored : Bool)
  | json
  deriving DecidableEq, Repr

/-- The text of a value. -/
def Value.shown : Value → String
  | .count n => toString n
  | .text s => s

/-- The name of a level, filled up to five characters at its left. -/
def Level.padded (level : Level) : String :=
  String.ofList (List.replicate (5 - level.name.length) ' ') ++ level.name

/-- The terminal's number for the colour of a level: red, yellow, green, blue and purple. -/
def Level.colour : Level → String
  | .error => "31"
  | .warn => "33"
  | .info => "32"
  | .debug => "34"
  | .trace => "35"

/-- A text in a style of the terminal, and no style after it. -/
def styled (colored : Bool) (style s : String) : String :=
  if colored then "\x1b[" ++ style ++ "m" ++ s ++ "\x1b[0m" else s

/-- The style of what is less important. -/
def dimmed : String := "2"

/-- The style of names. -/
def italic : String := "3"

/-- A field in a line of text, with a blank before it. -/
def fieldText (colored : Bool) (field : String × Value) : String :=
  " " ++ styled colored italic field.1 ++ styled colored dimmed "=" ++ field.2.shown

/-- An event as a line of text. -/
def textLine (colored : Bool) (time : String) (e : Event) : String :=
  styled colored dimmed time ++ " " ++ styled colored e.level.colour e.level.padded ++ " " ++
    styled colored dimmed e.target ++ styled colored dimmed ":" ++ " " ++ e.message ++
    String.join (e.fields.map (fieldText colored)) ++ "\n"

/-- A value in a JSON object. -/
def Value.toJson : Value → Json
  | .count n => .integer n
  | .text s => .text s

/-- The message of an event and its fields, in that order. -/
def fieldEntries (e : Event) : List (String × Json) :=
  ("message", .text e.message) :: e.fields.map fun field => (field.1, field.2.toJson)

/-- An event as a line that holds a JSON object. -/
def jsonLine (time : String) (e : Event) : String :=
  Json.write (.object [("timestamp", .text time), ("level", .text e.level.name),
    ("fields", .object (fieldEntries e)), ("target", .text e.target)]) ++ "\n"

/-- An event as a line. -/
def Format.line (format : Format) (time : String) (e : Event) : String :=
  match format with
  | .text colored => textLine colored time e
  | .json => jsonLine time e

end Log
end VirtualShell
