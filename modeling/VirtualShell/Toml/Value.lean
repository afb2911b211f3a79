import VirtualShell.Decimal.Binary64

/-!
# TOML values and tables

A table remembers how it came about, because that decides what may still be added to it: a table
that was only passed through on the way to another one can be opened later, one made by a dotted
key can be extended by dotted keys alone, one with a header takes entries below its header only,
and one written out in braces is closed.
-/

namespace VirtualShell
namespace Toml

/-- How a table came about. -/
inductive Making where
  /-- By its own header. -/
  | explicit
  /-- Written out in braces. -/
  | closed
  /-- On the way to a table with a header. -/
  | passedThrough
  /-- On the way along a dotted key. -/
  | dotted
  deriving DecidableEq, Repr

/-- A TOML value. A date or a time is its text. The tables of a table array are kept apart from a
list of values, since only headers add to them. -/
inductive Value where
  | text (s : String)
  | integer (n : Int)
  | real (x : Decimal.Binary64)
  | boolean (b : Bool)
  | moment (s : String)
  | list (items : List Value)
  | table (making : Making) (entries : List (String × Value))
  | tables (rows : List (List (String × Value)))

/-- A table: how it came about, and its entries in the order they were added. -/
structure Table where
  making : Making
  entries : List (String × Value)

namespace Table

/-- The table as a value. -/
def toValue (t : Table) : Value :=
  .table t.making t.entries

/-- Another value for a key, or one more entry. -/
def setEntry (key : String) (value : Value) : List (String × Value) → List (String × Value)
  | [] => [(key, value)]
  | entry :: rest =>
    if entry.1 = key then (key, value) :: rest else entry :: setEntry key value rest

/-- The table with another value for a key. -/
def set (t : Table) (key : String) (value : Value) : Table :=
  { t with entries := setEntry key value t.entries }

/-- The table without a key. -/
def erase (t : Table) (key : String) : Table :=
  { t with entries := t.entries.filter fun entry => entry.1 ≠ key }

/-- The value of a key. -/
def find? (t : Table) (key : String) : Option Value :=
  t.entries.lookup key

/-- Changes what lies at the end of a path of keys, and makes the tables on the way that are not
there yet. The last table of a table array stands for all of it. Nothing goes through a closed
table, and a dotted key does not go through one with a header. -/
def alter (making : Making) (change : Table → Option Table) : List String → Table → Option Table
  | [], t => change t
  | key :: rest, t => do
    match t.find? key with
    | none =>
      let child ← alter making change rest ⟨making, []⟩
      return t.set key child.toValue
    | some (.table childMaking entries) =>
      if childMaking = .closed ∨ (making = .dotted ∧ childMaking = .explicit) then none
      else
        let child ← alter making change rest ⟨childMaking, entries⟩
        return t.set key child.toValue
    | some (.tables rows) =>
      match rows.reverse with
      | [] => none
      | last :: earlier =>
        let child ← alter making change rest ⟨.explicit, last⟩
        return t.set key (.tables (earlier.reverse ++ [child.entries]))
    | some _ => none

/-- Adds an entry with a new key. A table made by a dotted key takes entries by dotted keys only,
and no other table does at the end of one. -/
def addEntry (direct : Bool) (key : String) (value : Value) (t : Table) : Option Table :=
  if (t.making == .dotted) == direct then none
  else
    match t.find? key with
    | none => some (t.set key value)
    | some _ => none

/-- Adds the entry of a dotted key. -/
def addDotted (path : List String) (key : String) (value : Value) (t : Table) : Option Table :=
  alter .dotted (addEntry path.isEmpty key value) path t

end Table
end Toml
end VirtualShell
