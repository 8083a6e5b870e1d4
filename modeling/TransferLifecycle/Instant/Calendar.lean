set_option autoImplicit false

/- Days of the Gregorian calendar, extended to all years, counted from the first day of 1970. A year
is taken to begin in March, so that the leap day is its last. -/
namespace TransferLifecycle

structure Date where
  year : Int
  month : Nat
  day : Nat
  deriving DecidableEq, Repr

namespace Date

def isLeapYear (year : Int) : Bool := year % 4 == 0 && (year % 100 != 0 || year % 400 == 0)

def daysInMonth (year : Int) (month : Nat) : Nat :=
  if month = 2 then (if isLeapYear year then 29 else 28)
  else if month = 4 ∨ month = 6 ∨ month = 9 ∨ month = 11 then 30
  else 31

/-- The day exists, and its year is within the range of years that is counted. -/
def isValid (d : Date) : Bool :=
  -262143 ≤ d.year && d.year ≤ 262142 && 1 ≤ d.month && d.month ≤ 12 && 1 ≤ d.day &&
    d.day ≤ daysInMonth d.year d.month

/-- The number of days in 400 years, and the number of days from March of year 0 to 1970. -/
def daysPerEra : Int := 146097
def daysToEpoch : Int := 719468

/-- The day of a year that begins in March, for the months counted from March. -/
def dayOfYear (monthFromMarch day : Nat) : Nat := (153 * monthFromMarch + 2) / 5 + day - 1

def toDays (d : Date) : Int :=
  let year := if d.month ≤ 2 then d.year - 1 else d.year
  let era := year / 400
  let yearOfEra := year % 400
  era * daysPerEra + yearOfEra * 365 + yearOfEra / 4 - yearOfEra / 100 +
    dayOfYear ((d.month + 9) % 12) d.day - daysToEpoch

def ofDays (days : Int) : Date :=
  let shifted := days + daysToEpoch
  let era := shifted / daysPerEra
  let dayOfEra := (shifted % daysPerEra).toNat
  let yearOfEra := (dayOfEra - dayOfEra / 1460 + dayOfEra / 36524 - dayOfEra / 146096) / 365
  let dayOfYear := dayOfEra + yearOfEra / 100 - yearOfEra / 4 - 365 * yearOfEra
  let monthFromMarch := (5 * dayOfYear + 2) / 153
  let month := if monthFromMarch < 10 then monthFromMarch + 3 else monthFromMarch - 9
  let year := era * 400 + yearOfEra
  ⟨if month ≤ 2 then year + 1 else year, month, dayOfYear + 1 - (153 * monthFromMarch + 2) / 5⟩

end Date

end TransferLifecycle
