/-!
# Times in the log

A time is a number of nanoseconds since the start of 1970, and is shown as a date and a time of day
of universal time.
-/

namespace VirtualShell
namespace Log

/-- A day of the calendar. -/
structure Day where
  year : Nat
  month : Nat
  day : Nat
  deriving DecidableEq, Repr

/-- The day that comes some days after the first one of 1970. Years are counted from March, and in
periods of four hundred years, after which the calendar repeats. -/
def Day.ofNumber (number : Nat) : Day :=
  let sinceMarch := number + 719468
  let period := sinceMarch / 146097
  let dayOfPeriod := sinceMarch % 146097
  let yearOfPeriod :=
    (dayOfPeriod - dayOfPeriod / 1460 + dayOfPeriod / 36524 - dayOfPeriod / 146096) / 365
  let dayOfYear := dayOfPeriod - (365 * yearOfPeriod + yearOfPeriod / 4 - yearOfPeriod / 100)
  let monthFromMarch := (5 * dayOfYear + 2) / 153
  let month := if monthFromMarch < 10 then monthFromMarch + 3 else monthFromMarch - 9
  { year := period * 400 + yearOfPeriod + (if month ≤ 2 then 1 else 0)
    month
    day := dayOfYear - (153 * monthFromMarch + 2) / 5 + 1 }

/-- A number filled up with zeros at its left. -/
def zeroPadded (width n : Nat) : String :=
  let digits := Nat.toDigits 10 n
  String.ofList (List.replicate (width - digits.length) '0' ++ digits)

/-- The fraction of a second, with three, six or nine digits, or none if it is zero. -/
def fractionText (nanoseconds : Nat) : String :=
  if nanoseconds = 0 then ""
  else if nanoseconds % 1000000 = 0 then "." ++ zeroPadded 3 (nanoseconds / 1000000)
  else if nanoseconds % 1000 = 0 then "." ++ zeroPadded 6 (nanoseconds / 1000)
  else "." ++ zeroPadded 9 nanoseconds

/-- The text of a time. -/
def timeText (nanoseconds : Nat) : String :=
  let seconds := nanoseconds / 1000000000
  let day := Day.ofNumber (seconds / 86400)
  let second := seconds % 86400
  zeroPadded 4 day.year ++ "-" ++ zeroPadded 2 day.month ++ "-" ++ zeroPadded 2 day.day ++ "T" ++
    zeroPadded 2 (second / 3600) ++ ":" ++ zeroPadded 2 (second / 60 % 60) ++ ":" ++
    zeroPadded 2 (second % 60) ++ fractionText (nanoseconds % 1000000000) ++ "+00:00"

end Log
end VirtualShell
