import VirtualShell.Decimal.Notation
import VirtualShell.Text.Quoted

/-!
# JSON values

Whole numbers are kept apart from numbers written with a point or an exponent, and the entries of
an object keep their order and their repetitions.
-/

namespace VirtualShell

/-- A JSON value. -/
inductive Json where
  | null
  | boolean (b : Bool)
  | integer (n : Int)
  | real (x : Decimal.Binary64)
  | text (s : String)
  | list (items : List Json)
  | object (entries : List (String × Json))

namespace Json

/-- How a message names a value that was not expected. -/
def describe : Json → String
  | .null => "null"
  | .boolean b => s!"boolean `{b}`"
  | .integer n => s!"integer `{n}`"
  | .real x => "floating point `" ++ Decimal.exactLayout.render x ++ "`"
  | .text s => "string " ++ Text.quoted s
  | .list _ => "sequence"
  | .object _ => "map"

/-- The first entry with a key. -/
def field? (key : String) : Json → Option Json
  | .object entries => entries.lookup key
  | _ => none

end Json
end VirtualShell
