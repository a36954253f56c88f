import Dialogue.Calendar.Date
import Dialogue.Decimal.Layout

/-!
# Moments

A date and a time of day, in universal time.  A leap second is written as second 59 of
its minute with a nanosecond part of a full second or more, so it follows every other
moment of its minute.
-/

namespace Dialogue
namespace Calendar

/-- Nanoseconds of a second. -/
def secondNanos : Nat := 1000000000

/-- Seconds of a day. -/
def daySeconds : Nat := 86400

/-- A date, the seconds of the day before the moment, and nanoseconds. -/
structure Moment where
  date : Date
  second : Nat := 0
  nano : Nat := 0
deriving DecidableEq, Repr

/-- How a number is filled up to its least width. -/
inductive Padding where
  | zero
  | space
  | bare
deriving DecidableEq, Repr

/-- A number of at least a given width.  Zeros stand behind the sign, spaces before it. -/
def padded (padding : Padding) (width : Nat) (showPlus : Bool) (n : Int) : List Char :=
  let digits := Decimal.digitsOf n.natAbs
  let sign := if n < 0 then ['-'] else if showPlus then ['+'] else []
  let gap := width - (sign.length + digits.length)
  match padding with
  | .zero => sign ++ List.replicate gap '0' ++ digits
  | .space => List.replicate gap ' ' ++ sign ++ digits
  | .bare => sign ++ digits

/-- A year: four digits, and always a sign where four digits do not suffice. -/
def yearText (padding : Padding) (year : Int) : List Char :=
  let wide : Bool := year < 0 || year > 9999
  padded padding (if wide then 5 else 4) wide year

/-- Two digits. -/
def twoDigits (n : Nat) : List Char := padded .zero 2 false n

/-- A date as year, month and day. -/
def Date.text (d : Date) : List Char :=
  yearText .zero d.year ++ '-' :: twoDigits d.month ++ '-' :: twoDigits d.day

namespace Moment

/-- Midnight of a date. -/
def ofDate (date : Date) : Moment := { date }

/-- Whether a moment lies in a leap second. -/
def isLeapSecond (m : Moment) : Bool := secondNanos ≤ m.nano

/-- The hour of the day. -/
def hour (m : Moment) : Nat := m.second / 3600

/-- The minute of the hour. -/
def minute (m : Moment) : Nat := m.second / 60 % 60

/-- The second of the minute; a leap second is number 60. -/
def secondOfMinute (m : Moment) : Nat := m.second % 60 + m.nano / secondNanos

/-- The nanosecond of the second. -/
def fraction (m : Moment) : Nat := m.nano % secondNanos

/-- Seconds since the start of 1970. -/
def timestamp (m : Moment) : Int := m.date.number * daySeconds + m.second

/-- The moment a number of nanoseconds after the start of 1970. -/
def ofNanos (n : Int) : Moment :=
  let dayNanos : Int := daySeconds * secondNanos
  let rest := (n % dayNanos).toNat
  { date := .ofNumber (n / dayNanos), second := rest / secondNanos, nano := rest % secondNanos }

/-- The moment a number of nanoseconds after the start of 1970, if its year is in range. -/
def ofNanos? (n : Int) : Option Moment :=
  if (ofNanos n).date.isValid then some (ofNanos n) else none

/-- The moment a number of seconds after the start of 1970. -/
def ofTimestamp? (n : Int) : Option Moment := ofNanos? (n * secondNanos)

/-- The moment a number of milliseconds after the start of 1970. -/
def ofMillis? (n : Int) : Option Moment := ofNanos? (n * 1000000)

/-- Nanoseconds since the start of 1970, where a leap second runs into the next one. -/
def nanos (m : Moment) : Int := m.timestamp * secondNanos + m.nano

/-- Adds a span of nanoseconds.  A sum that stays in a leap second runs on in it; one
that leaves it forwards gives its second back, since only the moments in it count it. -/
def plus? (m : Moment) (span : Int) : Option Moment :=
  if m.isLeapSecond then
    let nano := m.nano + span
    if nano ≥ 2 * secondNanos then ofNanos? (m.nanos + span - secondNanos)
    else if nano ≥ secondNanos then some { m with nano := nano.toNat }
    else ofNanos? (m.nanos + span)
  else ofNanos? (m.nanos + span)

/-- The leap second that lies between the times of day of two moments and is counted by
neither. -/
def leapBetween (later earlier : Moment) : Int :=
  if later.second > earlier.second ∧ earlier.isLeapSecond then 1
  else if later.second < earlier.second ∧ later.isLeapSecond then -1
  else 0

/-- The span from one moment to another, in nanoseconds. -/
def since (later earlier : Moment) : Int :=
  later.nanos - earlier.nanos + leapBetween later earlier * secondNanos

/-- Where a moment stands within its month. -/
def placeInMonth (m : Moment) : Nat :=
  (m.date.day * daySeconds + m.second) * (2 * secondNanos) + m.nano

/-- Whether one moment comes before another. -/
def isBefore (a b : Moment) : Bool :=
  a.date.monthIndex < b.date.monthIndex ||
    (a.date.monthIndex == b.date.monthIndex && a.placeInMonth < b.placeInMonth)

/-- The same time in another month. -/
def shiftMonths? (m : Moment) (months : Int) : Option Moment :=
  (m.date.shiftMonths? months).map fun date => { m with date }

/-- Moves a moment back by an offset in seconds; a leap second stays one. -/
def minusOffset? (m : Moment) (offset : Int) : Option Moment :=
  let total := m.timestamp - offset
  (Date.ofNumber? (total / daySeconds)).map fun date =>
    { date, second := (total % daySeconds).toNat, nano := m.nano }

/-- The time of day in hours, minutes and seconds. -/
def timeText (m : Moment) : List Char :=
  twoDigits m.hour ++ ':' :: twoDigits m.minute ++ ':' :: twoDigits m.secondOfMinute

/-- The standard text of a moment, to the second. -/
def text (m : Moment) : String :=
  String.ofList (m.date.text ++ 'T' :: m.timeText ++ ['Z'])

end Moment
end Calendar
end Dialogue
