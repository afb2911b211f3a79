import VirtualShell.Settings.Form

/-!
# Settings as JSON

Settings out of a JSON value are taken strictly: every value must be of the type of its setting.
The entries of an object are looked at in the order of their names, and of several with one name
the last one counts.
-/

namespace VirtualShell
namespace Settings

/-- A JSON value that is not what was expected. -/
def unexpectedValue (value : Json) (expected : String) : String :=
  s!"invalid type: {value.describe}, expected {expected}"

/-- The entries of an object in the order of their names. -/
def sortedEntries (entries : List (String × Json)) : List (String × Json) :=
  (entries.foldl (fun (m : SortedMap String Json) entry => m.insert entry.1 entry.2)
    .empty).entries

/-- How JSON values are taken. -/
def jsonForm : Form Json String where
  members group
    | .object entries => .ok (.named (sortedEntries entries))
    | .list items => .ok (.ordered items)
    | value => .error (unexpectedValue value ("struct " ++ group))
  entries
    | .object entries => .ok (sortedEntries entries)
    | value => .error (unexpectedValue value "a map")
  boolean
    | .boolean b => .ok b
    | value => .error (unexpectedValue value "a boolean")
  natural
    | .integer n =>
      if 0 ≤ n ∧ n < (Decimal.twoTo 64 : Int) then .ok (UInt64.ofNat n.toNat)
      else .error s!"invalid value: integer `{n}`, expected u64"
    | value => .error (unexpectedValue value "u64")
  text
    | .text s => .ok s
    | value => .error (unexpectedValue value "a string")
  path
    | .null => .ok none
    | .text s => .ok (some s)
    | value => .error (unexpectedValue value "path string")
  inEntry _ complaint := complaint
  inItem _ complaint := complaint
  surplus count := some s!"invalid length {count}, expected fewer elements in array"

/-- The settings that a JSON value is. -/
def ofJson (value : Json) : Except String Settings :=
  jsonForm.read value

end Settings
end VirtualShell
