import VirtualShell.Decimal.Notation
import VirtualShell.Settings.Tree
import VirtualShell.Text.Quoted

/-!
# How settings fail to load

A file may be missing or be no table; a value may be one that its setting cannot be made of.
-/

namespace VirtualShell
namespace Settings

/-- How a scalar is named when another type was wanted. -/
def describeScalar : Scalar → String
  | .nothing => "unit value"
  | .boolean b => s!"boolean `{b}`"
  | .integer n => s!"64-bit integer `{n}`"
  | .real x => "floating point `" ++ Decimal.plainLayout.render x ++ "`"
  | .text s => "string " ++ Text.quoted s

/-- How a tree is named when another type was wanted. -/
def Tree.describe : Tree → String
  | .leaf value _ => describeScalar value
  | .list _ _ => "sequence"
  | .table _ _ => "map"

/-- Always with the point in place, and one zero after it for whole numbers. -/
def pointedLayout : Decimal.Layout :=
  { Decimal.plainLayout with wholeFraction := ".0" }

/-- How a tree is named when a group was wanted: whole numbers are plain, and real numbers can be
told from them. -/
def Tree.describeBesideGroup : Tree → String
  | .leaf (.integer n) _ => s!"integer `{n}`"
  | .leaf (.real x) _ => "floating point `" ++ pointedLayout.render x ++ "`"
  | t => t.describe

/-- A value of the wrong type: how it is named, what was wanted, for which setting, and where it
was said. -/
structure Mismatch where
  found : String
  wanted : String
  key : Option String
  origin : Option String
  deriving DecidableEq, Repr

/-- Why settings do not load. -/
inductive Fault where
  /-- A file that is no table. -/
  | malformed (file : String)
  /-- A file that is not there. -/
  | missing (file : String)
  /-- A file that is no text. -/
  | notText
  | mismatch (m : Mismatch)
  /-- A value where a group was wanted. -/
  | misplaced (found wanted : String)
  deriving DecidableEq, Repr

/-- The words for a mismatch. -/
def Mismatch.message (m : Mismatch) : String :=
  s!"invalid type: {m.found}, expected {m.wanted}" ++
    (match m.key with
    | some key => s!" for key `{key}`"
    | none => "") ++
    (match m.origin with
    | some origin => s!" in {origin}"
    | none => "")

/-- The words for a fault. -/
def Fault.message : Fault → String
  | .malformed file => "not a valid configuration file: " ++ file
  | .missing file => s!"configuration file \"{file}\" not found"
  | .notText => "stream did not contain valid UTF-8"
  | .mismatch m => m.message
  | .misplaced found wanted => s!"invalid type: {found}, expected {wanted}"

/-- The key of a part of something with a key of its own. A point stands before names only. -/
def joinKeys (outer : String) (pointed : Bool) (inner : String) : String :=
  match inner.toList with
  | [] | '[' :: _ => outer ++ inner
  | _ => if pointed then outer ++ "." ++ inner else outer ++ inner

/-- A fault of an entry, as one of the whole. -/
def Fault.inEntry (key : String) : Fault → Fault
  | .mismatch m => .mismatch { m with key := some (joinKeys key true (m.key.getD "")) }
  | fault => fault

/-- A fault of an item, as one of the list. -/
def Fault.inItem (index : Nat) : Fault → Fault
  | .mismatch m => .mismatch { m with key := some (joinKeys s!"[{index}]" false (m.key.getD "")) }
  | fault => fault

end Settings
end VirtualShell
