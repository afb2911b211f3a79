import VirtualShell.Toml.Scalar

/-!
# Tables that stand for dates and times

A table whose first key is the one for moments is no table but the date or time that its value
tells. The text of such a value is a little freer than a date in a document: the day may end at
hour 24, and a distance from universal time may be any number of minutes up to a day.
-/

namespace VirtualShell
namespace Toml

/-- The key by which a table stands for a date or a time. -/
def momentKey : String := "$__toml_private_datetime"

/-! ### Texts of moments -/

/-- The minutes of a day. -/
def minutesOfDay : Nat := 24 * 60

/-- Two digits at least. -/
def twoDigits (n : Nat) : List Char :=
  let digits := Nat.toDigits 10 n
  List.replicate (2 - digits.length) '0' ++ digits

/-- A distance from universal time in hours and minutes. None at all is written with a plus. -/
def distanceText (behind : Bool) (minutes : Nat) : String :=
  String.ofList ((if behind && minutes != 0 then '-' else '+') ::
    (twoDigits (minutes / 60) ++ ':' :: twoDigits (minutes % 60)))

/-- The distance from universal time that a text tells, in whatever way hours and minutes make it
up. -/
def distance? : List Char → Option String
  | [] => some ""
  | ['Z'] | ['z'] => some "Z"
  | [sign, a, b, ':', c, d] => do
    let minutes := 60 * (← Decimal.digits? [a, b]) + (← Decimal.digits? [c, d])
    if (sign ≠ '+' ∧ sign ≠ '-') ∨ minutesOfDay < minutes then none
    else some (distanceText (sign == '-') minutes)
  | _ => none

/-- A time up to hour 24, and what follows. -/
def lateTime? (cs : List Char) : Option (String × List Char) :=
  timeUpTo? 24 cs

/-- The date, the time or both that a text tells, as they are written in a document. -/
def momentOfText? (cs : List Char) : Option String :=
  match date? cs with
  | some (date, []) => some date
  | some (date, mark :: rest) => do
    if mark = 'T' ∨ mark = 't' ∨ mark = ' ' then
      let (time, rest) ← lateTime? rest
      return date ++ "T" ++ time ++ (← distance? rest)
    else none
  | none =>
    match lateTime? cs with
    | some (time, []) => some time
    | _ => none

/-- The date or time that a value tells. -/
def momentOfValue? : Value → Option Value
  | .text s => (momentOfText? s.toList).map .moment
  | _ => none

/-! ### Settled values -/

mutual

/-- The value with moments for the tables that stand for them. -/
def Value.settle : Value → Option Value
  | .list items => (settleItems items).map .list
  | .table making entries => settleTable making entries
  | .tables rows => (settleRows rows).map .list
  | value => some value

/-- The items of a list, settled. -/
def settleItems : List Value → Option (List Value)
  | [] => some []
  | item :: rest => do return (← item.settle) :: (← settleItems rest)

/-- A table, settled, or the moment that it stands for. -/
def settleTable (making : Making) : List (String × Value) → Option Value
  | [] => some (.table making [])
  | (key, value) :: rest =>
    if key = momentKey then momentOfValue? value
    else do return .table making ((key, ← value.settle) :: (← settleEntries rest))

/-- The entries of a table, settled. -/
def settleEntries : List (String × Value) → Option (List (String × Value))
  | [] => some []
  | (key, value) :: rest => do return (key, ← value.settle) :: (← settleEntries rest)

/-- The tables of a table array, settled. -/
def settleRows : List (List (String × Value)) → Option (List Value)
  | [] => some []
  | row :: rest => do return (← settleTable .explicit row) :: (← settleRows rest)

end

/-- The entries of a whole document, settled. It must not stand for a moment itself. -/
def settleDocument (entries : List (String × Value)) : Option (List (String × Value)) :=
  match settleTable .explicit entries with
  | some (.table _ entries) => some entries
  | _ => none

end Toml
end VirtualShell
