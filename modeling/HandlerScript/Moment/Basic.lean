/-! Moments: points in time with the clock time of a place.

    Dates follow the Gregorian calendar. A year counts from March, so that the leap day is its last
    day, and years repeat every four hundred. -/

namespace HandlerScript

/-- Nanoseconds since the start of 1970 in universal time, and the seconds by which the local clock
    is ahead. -/
structure Moment where
  nanos : Int
  offset : Int := 0
  deriving DecidableEq, Repr

/-- A day of the calendar. -/
structure Date where
  year : Int
  month : Nat
  day : Nat
  deriving DecidableEq, Repr

namespace Date

/-- The date a number of days after the first of January 1970. -/
def ofDays (days : Int) : Date :=
  let shifted := days + 719468
  let era := shifted.fdiv 146097
  let dayOfEra := (shifted - era * 146097).toNat
  let yearOfEra := (dayOfEra - dayOfEra / 1460 + dayOfEra / 36524 - dayOfEra / 146096) / 365
  let dayOfYear := dayOfEra - (365 * yearOfEra + yearOfEra / 4 - yearOfEra / 100)
  let march := (5 * dayOfYear + 2) / 153
  let month := if march < 10 then march + 3 else march - 9
  ⟨yearOfEra + era * 400 + (if month ≤ 2 then 1 else 0), month,
    dayOfYear - (153 * march + 2) / 5 + 1⟩

def isLeapYear (year : Int) : Bool :=
  year % 4 == 0 && (year % 100 != 0 || year % 400 == 0)

/-- The days of a year before each month. -/
def daysBefore (leap : Bool) (month : Nat) : Nat :=
  let days := [0, 31, 59, 90, 120, 151, 181, 212, 243, 273, 304, 334].getD (month - 1) 0
  if leap && 2 < month then days + 1 else days

/-- The number of the day in its year, from one. -/
def ordinal (d : Date) : Nat :=
  daysBefore (isLeapYear d.year) d.month + d.day

/-- The number of weeks that a year has when weeks belong to the year of their Thursday, given the
    weekday of its last day, Monday being zero. -/
def weeksInYear (year : Int) (lastWeekday : Nat) : Nat :=
  if lastWeekday = 3 ∨ (lastWeekday = 4 ∧ isLeapYear year) then 53 else 52

/-- The year and number of a week when weeks belong to the year of their Thursday. -/
def isoWeek (d : Date) (weekday : Nat) : Int × Nat :=
  let day := d.ordinal
  let week := (day + 9 - weekday) / 7
  if week = 0 then
    (d.year - 1, weeksInYear (d.year - 1) ((weekday + 7 * 53 - day) % 7))
  else
    let length := if isLeapYear d.year then 366 else 365
    let weeks := weeksInYear d.year ((weekday + (length - day)) % 7)
    if weeks < week then (d.year + 1, 1) else (d.year, week)

end Date

/-- The fields of a moment on the local clock. -/
structure ClockTime where
  date : Date
  /-- The day of the week, Monday being zero. -/
  weekday : Nat
  hour : Nat
  minute : Nat
  second : Nat
  nanosecond : Nat
  /-- Seconds since the start of 1970 in universal time. -/
  timestamp : Int
  offset : Int
  deriving DecidableEq, Repr

namespace Moment

/-- The moment some milliseconds later. -/
def later (m : Moment) (millis : Nat) : Moment := { m with nanos := m.nanos + millis * 1000000 }

def clockTime (m : Moment) : ClockTime :=
  let seconds := m.nanos.fdiv 1000000000
  let localTime := seconds + m.offset
  let days := localTime.fdiv 86400
  let ofDay := (localTime - days * 86400).toNat
  { date := Date.ofDays days
    weekday := ((days + 3) - 7 * (days + 3).fdiv 7).toNat
    hour := ofDay / 3600
    minute := ofDay / 60 % 60
    second := ofDay % 60
    nanosecond := (m.nanos - seconds * 1000000000).toNat
    timestamp := seconds
    offset := m.offset }

end Moment

end HandlerScript
