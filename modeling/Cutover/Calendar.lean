/-
# Cutover.Calendar -- minutes of the civil calendar

Seconds since the start of 1970 as a date and time of day in the proleptic
Gregorian calendar, for the time stamps in release names.  Days are counted in
eras of 400 years from the first of March of year zero, so that a leap day is the
last day of its year.

Dates are representable from the first day of year -262143 to the last of year
262142; `Minute.ofSeconds?` answers nothing outside them.
-/

namespace Cutover.Calendar

set_option autoImplicit false

/-- A minute of the civil calendar. -/
structure Minute where
  year : Int
  month : Nat
  day : Nat
  hour : Nat
  minute : Nat
  deriving DecidableEq, Repr

/-- The year, month and day that many days after the first of January 1970. -/
def civil (days : Int) : Int × Nat × Nat :=
  let shifted := days + 719468
  let era := shifted / 146097
  let dayOfEra := (shifted % 146097).toNat
  let yearOfEra := (dayOfEra - dayOfEra / 1460 + dayOfEra / 36524 - dayOfEra / 146096) / 365
  let dayOfYear := dayOfEra - (365 * yearOfEra + yearOfEra / 4 - yearOfEra / 100)
  let fromMarch := (5 * dayOfYear + 2) / 153
  let day := dayOfYear - (153 * fromMarch + 2) / 5 + 1
  let month := if fromMarch < 10 then fromMarch + 3 else fromMarch - 9
  let year := yearOfEra + era * 400
  (if month ≤ 2 then year + 1 else year, month, day)

/-- The minute that a count of seconds since 1970 falls into. -/
def Minute.ofSeconds (seconds : Int) : Minute :=
  let (year, month, day) := civil (seconds / 86400)
  let ofDay := (seconds % 86400).toNat
  ⟨year, month, day, ofDay / 3600, ofDay % 3600 / 60⟩

/-- The minute, if its year can be represented. -/
def Minute.ofSeconds? (seconds : Int) : Option Minute :=
  let m := Minute.ofSeconds seconds
  if -262143 ≤ m.year ∧ m.year ≤ 262142 then some m else none

/-- A number in at least the given count of digits. -/
def zeroPadded (width n : Nat) : String :=
  let digits := toString n
  String.ofList (List.replicate (width - digits.length) '0') ++ digits

/-- A year in four digits, with a sign when it needs more or is negative. -/
def yearText (year : Int) : String :=
  if 0 ≤ year ∧ year ≤ 9999 then zeroPadded 4 year.toNat
  else (if year < 0 then "-" else "+") ++ zeroPadded 4 year.natAbs

/-- Year, month and day without marks, a hyphen, hour and minute. -/
def Minute.stamp (m : Minute) : String :=
  yearText m.year ++ zeroPadded 2 m.month ++ zeroPadded 2 m.day ++ "-" ++
    zeroPadded 2 m.hour ++ zeroPadded 2 m.minute

/-- The start of 1970, which stands in for a time that has no date. -/
def epoch : Minute := ⟨1970, 1, 1, 0, 0⟩

end Cutover.Calendar
