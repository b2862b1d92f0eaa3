/-!
# Points in time

A `Timestamp` is a date and a time of day with microseconds, and the distance from universal time if
one was given. `Timestamp.ofUnix` counts seconds from the start of 1970. Dates follow the Gregorian
rule for all years from 1 to 9999.
-/

set_option autoImplicit false

namespace Runbook

/-- A date and a time of day; `offset` is the distance from universal time in seconds. -/
structure Timestamp where
  year : Nat
  month : Nat
  day : Nat
  hour : Nat
  minute : Nat
  second : Nat
  micro : Nat
  offset : Option Int
  deriving DecidableEq, Repr, Inhabited

namespace Timestamp

/-- Whether a year has a 29th of February. -/
def isLeap (year : Nat) : Bool := year % 4 == 0 && (year % 100 != 0 || year % 400 == 0)

/-- The number of days of a month. -/
def daysInMonth (year month : Nat) : Nat :=
  if month == 2 then (if isLeap year then 29 else 28)
  else if month == 4 || month == 6 || month == 9 || month == 11 then 30
  else 31

/-- Whether year, month and day name a date. -/
def isDate (year month day : Nat) : Bool :=
  1 ≤ year && year ≤ 9999 && 1 ≤ month && month ≤ 12 && 1 ≤ day && day ≤ daysInMonth year month

/-- The date that is `days` days after the first of January 1970. -/
def dateOfDays (days : Int) : Nat × Nat × Nat :=
  -- Years here start on the first of March, so that a leap day is the last of its year.
  let shifted := days + 719468
  let era := Int.fdiv shifted 146097
  let dayOfEra := (shifted - era * 146097).toNat
  let yearOfEra := (dayOfEra - dayOfEra / 1460 + dayOfEra / 36524 - dayOfEra / 146096) / 365
  let dayOfYear := dayOfEra - (365 * yearOfEra + yearOfEra / 4 - yearOfEra / 100)
  let shiftedMonth := (5 * dayOfYear + 2) / 153
  let day := dayOfYear - (153 * shiftedMonth + 2) / 5 + 1
  let month := if shiftedMonth < 10 then shiftedMonth + 3 else shiftedMonth - 9
  let year := (Int.ofNat yearOfEra + era * 400).toNat + (if month ≤ 2 then 1 else 0)
  (year, month, day)

/-- The number of days from the first of January 1970 to a date. -/
def daysOfDate (year month day : Nat) : Int :=
  let y : Int := if month ≤ 2 then (year : Int) - 1 else year
  let era := Int.fdiv y 400
  let yearOfEra := y - era * 400
  let shiftedMonth : Int := if month > 2 then (month : Int) - 3 else month + 9
  let dayOfYear := Int.fdiv (153 * shiftedMonth + 2) 5 + day - 1
  let dayOfEra := yearOfEra * 365 + Int.fdiv yearOfEra 4 - Int.fdiv yearOfEra 100 + dayOfYear
  era * 146097 + dayOfEra - 719468

/-- The point `seconds` and `micro` after the start of 1970, in universal time. -/
def ofUnix (seconds : Int) (micro : Nat) : Timestamp :=
  let days := Int.fdiv seconds 86400
  let rest := (seconds - days * 86400).toNat
  let (year, month, day) := dateOfDays days
  ⟨year, month, day, rest / 3600, rest / 60 % 60, rest % 60, micro, some 0⟩

/-- Microseconds since the start of 1970; a time without offset counts as universal time. -/
def toMicros (t : Timestamp) : Int :=
  let days := daysOfDate t.year t.month t.day
  let seconds := days * 86400 + t.hour * 3600 + t.minute * 60 + t.second - t.offset.getD 0
  seconds * 1000000 + t.micro

end Timestamp

end Runbook
