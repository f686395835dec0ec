/-!
# Points in time

Times counted from the start of the year 1601, as dates of the Gregorian
calendar.  Four hundred years have 146097 days, and 1601 is the first of them.
-/

namespace Milling.Archive

/-- A point in time, in milliseconds since the start of 1601. -/
structure Instant where
  milliseconds : Nat
deriving Repr, DecidableEq

structure CivilDate where
  year : Nat
  month : Nat
  day : Nat
deriving Repr, DecidableEq

namespace CivilDate

/-- The year of a day within four hundred years and the day within the year,
both from zero. -/
def yearOfDay (day : Nat) : Nat × Nat :=
  let century := min 3 (day / 36524)
  let inCentury := day - century * 36524
  let four := inCentury / 1461
  let inFour := inCentury - four * 1461
  let single := min 3 (inFour / 365)
  (century * 100 + four * 4 + single, inFour - single * 365)

def isLeap (year : Nat) : Bool :=
  year % 4 == 0 && (year % 100 != 0 || year % 400 == 0)

def monthLengths (year : Nat) : List Nat :=
  [31, if isLeap year then 29 else 28, 31, 30, 31, 30, 31, 31, 30, 31, 30, 31]

def monthOfDay (month : Nat) : List Nat → Nat → Nat × Nat
  | [], day => (month, day + 1)
  | length :: rest, day =>
      if day < length then (month, day + 1) else monthOfDay (month + 1) rest (day - length)

def ofDay (day : Nat) : CivilDate :=
  let (yearInCycle, dayInYear) := yearOfDay (day % 146097)
  let year := 1601 + 400 * (day / 146097) + yearInCycle
  let (month, dayInMonth) := monthOfDay 1 (monthLengths year) dayInYear
  { year, month, day := dayInMonth }

end CivilDate

namespace Instant

def ticksPerMillisecond : Nat := 10000

/-- The time after a number of ticks of 100 nanoseconds, full milliseconds
only. -/
def ofTicks (ticks : Nat) : Instant := { milliseconds := ticks / ticksPerMillisecond }

def padded (width number : Nat) : String :=
  let digits := Nat.toDigits 10 number
  String.ofList (List.replicate (width - digits.length) '0' ++ digits)

/-- The text of a year; years of more than four digits have a sign. -/
def yearText (year : Nat) : String :=
  if year ≤ 9999 then padded 4 year else "+" ++ toString year

/-- The time in the format of RFC 3339, with milliseconds where there are some. -/
def text (instant : Instant) : String :=
  let millisecond := instant.milliseconds % 1000
  let second := instant.milliseconds / 1000
  let date := CivilDate.ofDay (second / 86400)
  let clock := second % 86400
  let fraction := if millisecond = 0 then "" else "." ++ padded 3 millisecond
  yearText date.year ++ "-" ++ padded 2 date.month ++ "-" ++ padded 2 date.day ++ "T" ++
    padded 2 (clock / 3600) ++ ":" ++ padded 2 (clock / 60 % 60) ++ ":" ++
    padded 2 (clock % 60) ++ fraction ++ "Z"

end Instant

end Milling.Archive
