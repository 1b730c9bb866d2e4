/-
**The calendar.** An instant falls on a day, and a day has a year, a month and a number in its
month. Days are counted from the start of March of a leap cycle, so that the day a leap year adds is
the last of its year.
-/
import WalletLedger.Instant

set_option autoImplicit false

namespace WalletLedger

/-- A point in universal time, as a calendar and a clock show it. -/
structure CalendarTime where
  year : Int
  month : Nat
  day : Nat
  hour : Nat
  minute : Nat
  second : Nat
  milli : Nat
deriving DecidableEq

namespace CalendarTime

/-- The days of a cycle of four hundred years. -/
def cycleDays : Int := 146097

/-- The days from the first of March of the year 0 to the first day of 1970. -/
def daysToEpoch : Int := 719468

/-- The year, from March to February, of a day of a cycle. -/
def yearOfCycle (day : Nat) : Nat := (day - day / 1460 + day / 36524 - day / 146096) / 365

/-- The first day of a year of a cycle. -/
def firstDayOf (year : Nat) : Nat := 365 * year + year / 4 - year / 100

/-- The month of a day of a year, March being the first one and counted from zero. -/
def monthOfYear (day : Nat) : Nat := (5 * day + 2) / 153

/-- The first day of a month of a year. -/
def firstDayOfMonth (month : Nat) : Nat := (153 * month + 2) / 5

/-- The milliseconds of a day. -/
def dayMillis : Int := 86400000

/-- **What the calendar shows at an instant.** -/
def ofInstant (t : Instant) : CalendarTime :=
  let days := t.fdiv dayMillis + daysToEpoch
  let ofDay := (t.fmod dayMillis).toNat
  let ofCycle := (days.fmod cycleDays).toNat
  let year := yearOfCycle ofCycle
  let ofYear := ofCycle - firstDayOf year
  let month := monthOfYear ofYear
  { year := days.fdiv cycleDays * 400 + year + if month < 10 then 0 else 1
    month := if month < 10 then month + 3 else month - 9
    day := ofYear - firstDayOfMonth month + 1
    hour := ofDay / 3600000
    minute := ofDay / 60000 % 60
    second := ofDay / 1000 % 60
    milli := ofDay % 1000 }

example : ofInstant 0 = ⟨1970, 1, 1, 0, 0, 0, 0⟩ := by decide

example : ofInstant 951827696789 = ⟨2000, 2, 29, 12, 34, 56, 789⟩ := by decide

/-- A number with at least so many digits. -/
def padded (width n : Nat) : String :=
  String.ofList (List.replicate (width - (toString n).length) '0') ++ toString n

def twoDigits (n : Nat) : String := padded 2 n

def yearText (year : Int) : String :=
  if year < 0 then "-" ++ padded 4 year.natAbs else padded 4 year.natAbs

/-- The date, its parts joined by hyphens. -/
def dateText (t : CalendarTime) : String :=
  yearText t.year ++ "-" ++ twoDigits t.month ++ "-" ++ twoDigits t.day

/-- The date and the time of the day, to the microsecond. -/
def fullText (t : CalendarTime) : String :=
  t.dateText ++ "T" ++ twoDigits t.hour ++ ":" ++ twoDigits t.minute ++ ":" ++ twoDigits t.second ++
    "." ++ padded 3 t.milli ++ "000Z"

end CalendarTime

end WalletLedger
