import VirtualShell.Environment
import VirtualShell.Settings.Fault
import VirtualShell.Settings.Form
import VirtualShell.Toml.Document

/-!
# Layers of settings

Settings come from files and from the environment. Later layers go over earlier ones, key by key:
the common file, a file that was asked for, and the variables whose names start with `TERMIWEB__`.
A value is made into the type of its setting where that can be done.
-/

namespace VirtualShell
namespace Settings

/-! ### Files -/

mutual

/-- What a file says as a tree. -/
def treeOfToml (origin : String) : Toml.Value → Tree
  | .text s => .leaf (.text s) origin
  | .integer n => .leaf (.integer n) origin
  | .real x => .leaf (.real x) origin
  | .boolean b => .leaf (.boolean b) origin
  | .moment s => .leaf (.text s) origin
  | .list items => .list (treesOfToml origin items) origin
  | .table _ entries => .table (entriesOfToml origin entries) origin
  | .tables rows => .list (rowsOfToml origin rows) origin

/-- What the values of a list say. -/
def treesOfToml (origin : String) : List Toml.Value → List Tree
  | [] => []
  | value :: rest => treeOfToml origin value :: treesOfToml origin rest

/-- What the entries of a table say. -/
def entriesOfToml (origin : String) : List (String × Toml.Value) → List (String × Tree)
  | [] => []
  | entry :: rest => (entry.1, treeOfToml origin entry.2) :: entriesOfToml origin rest

/-- What the tables of a table array say. -/
def rowsOfToml (origin : String) : List (List (String × Toml.Value)) → List Tree
  | [] => []
  | row :: rest => .table (entriesOfToml origin row) origin :: rowsOfToml origin rest

end

/-- A file that was found: its name as it is shown, and its text. -/
structure SourceFile where
  name : String
  text : String

/-- The layer that a file is. -/
def SourceFile.layer (file : SourceFile) : Except Fault (List (String × Tree)) :=
  match Toml.read file.text with
  | some entries => .ok (entriesOfToml file.name entries)
  | none => .error (.malformed file.name)

/-! ### The environment -/

/-- The start of the names of variables that set something, in small letters. -/
def variableStem : List Char := "termiweb__".toList

/-- The text with a point for each pair of underscores. -/
def pointed : List Char → List Char
  | '_' :: '_' :: rest => '.' :: pointed rest
  | c :: rest => c :: pointed rest
  | [] => []

/-- The address that a variable sets, if it sets anything. -/
def variableKey? (name : String) : Option String :=
  let cs := (Text.lowercase name).toList
  if variableStem.isPrefixOf cs then some (String.ofList (pointed (cs.drop variableStem.length)))
  else none

/-- What the value of a variable says: a truth value, a whole number or a real number if it reads
as one, and otherwise a text. -/
def scalarOfVariable (value : String) : Scalar :=
  if Text.lowercase value = "true" then .boolean true
  else if Text.lowercase value = "false" then .boolean false
  else
    match Decimal.integer? value with
    | some n => .integer n
    | none =>
      match Decimal.real? value with
      | some x => .real x
      | none => .text value

/-- Where the environment's values are said to be. -/
def environmentName : String := "the environment"

/-- The layer that the environment is. -/
def environmentLayer (environment : Environment) : List (String × Tree) :=
  environment.filterMap fun entry =>
    (variableKey? entry.1).map fun key =>
      (key, .leaf (scalarOfVariable entry.2) (some environmentName))

/-! ### Values -/

/-- A mismatch that belongs to no key yet. -/
def mismatched (found wanted : String) (origin : Option String) : Fault :=
  .mismatch ⟨found, wanted, none, origin⟩

/-- The text that a scalar is made into. -/
def textOfScalar : Scalar → Option String
  | .nothing => none
  | .boolean b => some (if b then "true" else "false")
  | .integer n => some (toString n)
  | .real x => some (Decimal.plainLayout.render x)
  | .text s => some s

/-- The text that a tree is made into. -/
def textOfTree (t : Tree) : Except Fault String :=
  match t with
  | .leaf value _ =>
    match textOfScalar value with
    | some s => .ok s
    | none => .error (mismatched t.describe "a string" t.origin)
  | t => .error (mismatched t.describe "a string" t.origin)

/-- The words for true and for false, in small letters. -/
def truthOfWord? (s : String) : Option Bool :=
  if s = "true" ∨ s = "on" ∨ s = "yes" then some true
  else if s = "false" ∨ s = "off" ∨ s = "no" then some false
  else none

/-- The truth value that a tree is made into. All numbers but zero are true. -/
def booleanOfTree (t : Tree) : Except Fault Bool :=
  match t with
  | .leaf (.boolean b) _ => .ok b
  | .leaf (.integer n) _ => .ok (n ≠ 0)
  | .leaf (.real x) _ => .ok !x.isZero
  | .leaf (.text s) origin =>
    let word := Text.lowercase s
    if word = "1" then .ok true
    else if word = "0" then .ok false
    else
      match truthOfWord? word with
      | some b => .ok b
      | none => .error (mismatched (describeScalar (.text word)) "a boolean" origin)
  | t => .error (mismatched t.describe "a boolean" t.origin)

/-- The whole number that a tree is made into. Real numbers are rounded. -/
def naturalOfTree (t : Tree) : Except Fault UInt64 :=
  match t with
  | .leaf (.boolean b) _ => .ok (if b then 1 else 0)
  | .leaf (.integer n) origin =>
    if 0 ≤ n then .ok (UInt64.ofNat n.toNat)
    else .error (mismatched t.describe "an unsigned 64 bit or less integer" origin)
  | .leaf (.real x) _ => .ok (UInt64.ofNat (x.toNatClamped (Decimal.twoTo 64 - 1)))
  | .leaf (.text s) origin =>
    match truthOfWord? (Text.lowercase s) with
    | some b => .ok (if b then 1 else 0)
    | none =>
      match Decimal.natural? s with
      | some n => .ok (UInt64.ofNat n)
      | none => .error (mismatched t.describe "an integer" origin)
  | t => .error (mismatched t.describe "an integer" t.origin)

/-- How trees are taken. -/
def treeForm : Form Tree Fault where
  members group
    | .table entries _ => .ok (.named entries)
    | .list items _ => .ok (.ordered items)
    | t => .error (.misplaced t.describeBesideGroup ("struct " ++ group))
  entries
    | .table entries _ => .ok entries
    | t => .error (.misplaced t.describeBesideGroup "a map")
  boolean := booleanOfTree
  natural := naturalOfTree
  text := textOfTree
  path
    | .leaf .nothing _ => .ok none
    | t => (textOfTree t).map some
  inEntry := Fault.inEntry
  inItem := Fault.inItem
  surplus _ := none

/-! ### All layers -/

/-- The settings that some layers make up, the last of which goes over all others. -/
def ofLayers (layers : List (List (String × Tree))) : Except Fault Settings :=
  treeForm.read (layers.foldl Tree.addLayer Tree.emptyTable)

end Settings
end VirtualShell
