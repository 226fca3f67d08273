import ExposureControl.Time.Instant

/-!
# The UTC calendar

Days are numbered from 1970-01-01; dates are those of the Gregorian calendar extended in both
directions.  Years are counted from 1 March so that a leap day ends its year, and 400 of them
make an era of 146097 days.
-/

namespace ExposureControl

/-- A UTC day, by its number of days since 1970-01-01. -/
structure Day where
  number : Int
deriving DecidableEq, Repr

/-- A date of the Gregorian calendar. -/
structure Date where
  year : Int
  month : Nat
  day : Nat
deriving DecidableEq, Repr

def Instant.microsPerDay : Int := 86400000000

def Instant.day (t : Instant) : Day := ⟨t.micros / microsPerDay⟩

theorem Instant.day_mono {s t : Instant} (h : s ≤ t) : s.day.number ≤ t.day.number := by
  rw [Instant.le_iff] at h
  simp only [Instant.day, Instant.microsPerDay]
  omega

/-- Microseconds since the start of the instant's UTC day. -/
def Instant.microsOfDay (t : Instant) : Nat := (t.micros % microsPerDay).toNat

/-- The UTC hour of day, from 0 to 23, also for times before 1970. -/
def Instant.hour (t : Instant) : Nat := t.microsOfDay / 3600000000

namespace Date

def leapYear (year : Int) : Bool :=
  year % 4 == 0 && (year % 100 != 0 || year % 400 == 0)

def daysInMonth (year : Int) (month : Nat) : Nat :=
  if month == 2 then (if leapYear year then 29 else 28)
  else if month == 4 || month == 6 || month == 9 || month == 11 then 30
  else 31

def exists? (date : Date) : Bool :=
  1 ≤ date.month && date.month ≤ 12 && 1 ≤ date.day &&
    date.day ≤ daysInMonth date.year date.month

def toDay (date : Date) : Day :=
  let year := if date.month ≤ 2 then date.year - 1 else date.year
  let monthFromMarch : Int := if date.month > 2 then date.month - 3 else date.month + 9
  let dayOfYear := (153 * monthFromMarch + 2) / 5 + date.day - 1
  let yearOfEra := year % 400
  let dayOfEra := yearOfEra * 365 + yearOfEra / 4 - yearOfEra / 100 + dayOfYear
  ⟨year / 400 * 146097 + dayOfEra - 719468⟩

def ofDay (day : Day) : Date :=
  let shifted := day.number + 719468
  let dayOfEra := shifted % 146097
  let yearOfEra :=
    (dayOfEra - dayOfEra / 1460 + dayOfEra / 36524 - dayOfEra / 146096) / 365
  let dayOfYear := dayOfEra - (365 * yearOfEra + yearOfEra / 4 - yearOfEra / 100)
  let monthFromMarch := (5 * dayOfYear + 2) / 153
  let dayOfMonth := dayOfYear - (153 * monthFromMarch + 2) / 5 + 1
  let month := if monthFromMarch < 10 then monthFromMarch + 3 else monthFromMarch - 9
  let year := yearOfEra + shifted / 146097 * 400
  ⟨if month ≤ 2 then year + 1 else year, month.toNat, dayOfMonth.toNat⟩

end Date

end ExposureControl
