/-!
# Dates

Days of the Gregorian calendar, extended to all years.  A date has two other addresses:
its number, counted from the first of January 1970, and its place in a year of weeks.
Weekdays are numbered from Monday, which is `0`, to Sunday, which is `6`.
-/

namespace Dialogue
namespace Calendar

/-- A day of a month of a year. -/
structure Date where
  year : Int
  month : Nat
  day : Nat
deriving DecidableEq, Repr

/-- Every fourth year is long, except the full centuries that 400 does not divide. -/
def isLeap (year : Int) : Bool :=
  year % 4 == 0 && (year % 100 != 0 || year % 400 == 0)

/-- The number of days of a year. -/
def daysInYear (year : Int) : Nat := if isLeap year then 366 else 365

/-- The number of days of a month. -/
def daysInMonth (year : Int) (month : Nat) : Nat :=
  match month with
  | 2 => if isLeap year then 29 else 28
  | 4 | 6 | 9 | 11 => 30
  | _ => 31

/-- The days of a year before its given month. -/
def daysBeforeMonth (year : Int) (month : Nat) : Nat :=
  (List.range (month - 1)).foldl (fun days earlier => days + daysInMonth year (earlier + 1)) 0

/-- The days from the first of January of year 1 to that of another year. -/
def daysBeforeYear (year : Int) : Int :=
  365 * (year - 1) + (year - 1) / 4 - (year - 1) / 100 + (year - 1) / 400

/-- The days from the first of January of year 1 to that of 1970. -/
def epochDay : Int := 719162

/-- The years that a date can lie in. -/
def leastYear : Int := -262143

/-- The years that a date can lie in. -/
def greatestYear : Int := 262142

/-- The year that holds a day, given by the days since the start of year 1, and the days
of that year before it. -/
def yearAndRest (days : Int) : Int × Nat :=
  let rest := (days % 146097).toNat
  let century := min (rest / 36524) 3
  let rest := rest - century * 36524
  let four := rest / 1461
  let rest := rest % 1461
  let one := min (rest / 365) 3
  (400 * (days / 146097) + 100 * (century : Int) + 4 * (four : Int) + (one : Int) + 1,
    rest - one * 365)

/-- The month and the day, given the days of the year before it; `count` months are left
from `month` on. -/
def monthAndDay (year : Int) (month rest : Nat) : Nat → Nat × Nat
  | 0 => (month, rest + 1)
  | count + 1 =>
    if rest < daysInMonth year month then (month, rest + 1)
    else monthAndDay year (month + 1) (rest - daysInMonth year month) count

namespace Date

/-- Whether a date exists and lies in the range of years. -/
def isValid (d : Date) : Bool :=
  leastYear ≤ d.year && d.year ≤ greatestYear && 1 ≤ d.month && d.month ≤ 12 &&
    1 ≤ d.day && d.day ≤ daysInMonth d.year d.month

/-- The date of a year, a month and a day. -/
def ofCivil? (year : Int) (month day : Nat) : Option Date :=
  let d : Date := { year, month, day }
  if d.isValid then some d else none

/-- The place of a date in its year, from 1. -/
def dayOfYear (d : Date) : Nat := daysBeforeMonth d.year d.month + d.day

/-- The number of days since the first of January 1970. -/
def number (d : Date) : Int :=
  daysBeforeYear d.year + d.dayOfYear - 1 - epochDay

/-- The date of a place in a year. -/
def ofPlace (year : Int) (rest : Nat) : Date :=
  let (month, day) := monthAndDay year 1 rest 11
  { year, month, day }

/-- The date of a number. -/
def ofNumber (n : Int) : Date :=
  let (year, rest) := yearAndRest (n + epochDay)
  ofPlace year rest

/-- The date of a number, if it lies in the range of years. -/
def ofNumber? (n : Int) : Option Date :=
  let d := ofNumber n
  if d.isValid then some d else none

/-- The date of a year and a place in it. -/
def ofDayOfYear? (year : Int) (dayOfYear : Nat) : Option Date :=
  if 1 ≤ dayOfYear ∧ dayOfYear ≤ daysInYear year then
    let d := ofPlace year (dayOfYear - 1)
    if d.isValid then some d else none
  else none

/-- The day of the week, counted from Monday; the first day of 1970 was a Thursday. -/
def weekday (d : Date) : Nat := ((d.number + 3) % 7).toNat

/-- The days since the last `start`, that day itself included as zero. -/
def daysSince (d : Date) (start : Nat) : Nat := (d.weekday + 7 - start) % 7

/-- The quarter of the year, from 1. -/
def quarter (d : Date) : Nat := (d.month - 1) / 3 + 1

/-- The week of the year where weeks begin on `start`; the days before the first
complete week form week 0. -/
def week (d : Date) (start : Nat) : Nat := (d.dayOfYear + 6 - d.daysSince start) / 7

/-- The Thursday of the week of a date, where weeks begin on Monday. -/
def thursday (d : Date) : Date := ofNumber (d.number - d.weekday + 3)

/-- The year of weeks that a date belongs to: the year of its Thursday. -/
def isoYear (d : Date) : Int := d.thursday.year

/-- The week of the year of weeks. -/
def isoWeek (d : Date) : Nat := (d.thursday.dayOfYear - 1) / 7 + 1

/-- The number of weeks of a year of weeks: the fourth of January lies in its first week,
and so the twenty-eighth of December in its last. -/
def weeksIn (year : Int) : Nat := isoWeek { year, month := 12, day := 28 }

/-- The date of a weekday in a week of a year of weeks. -/
def ofIsoWeek? (year : Int) (week weekday : Nat) : Option Date :=
  if 1 ≤ week ∧ week ≤ weeksIn year then
    let fourth : Date := { year, month := 1, day := 4 }
    ofNumber? (fourth.number - fourth.weekday + 7 * ((week : Int) - 1) + weekday)
  else none

/-- Months since the start of year 0. -/
def monthIndex (d : Date) : Int := d.year * 12 + d.month - 1

/-- The same day of another month, or the last day of a month that is too short. -/
def shiftMonths? (d : Date) (months : Int) : Option Date :=
  let index := d.monthIndex + months
  let year := index / 12
  let month := (index % 12).toNat + 1
  ofCivil? year month (min d.day (daysInMonth year month))

end Date
end Calendar
end Dialogue
