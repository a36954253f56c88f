import Dialogue.Calendar.Spelling

/-!
# Units of time

Spans between moments are counted in units.  The short units have a fixed length, and a
count of them may have a fraction; months and years follow the calendar, and a count of
them is whole.
-/

namespace Dialogue
namespace Calendar

/-- The units in which spans are counted. -/
inductive TimeUnit where
  | seconds
  | minutes
  | hours
  | days
  | weeks
  | months
  | years
deriving DecidableEq, Repr

/-- Why a moment cannot be moved. -/
inductive ShiftError where
  | fractionOfMonth
  | outOfRange
deriving DecidableEq, Repr

namespace TimeUnit

/-- The unit that a text names: singular or plural, in any case. -/
def ofName? (raw : String) : Option TimeUnit :=
  let lower := (Text.trimmed raw.toList).map Char.toLower
  match String.ofList (lower.reverse.dropWhile (· = 's')).reverse with
  | "second" | "sec" => some .seconds
  | "minute" | "min" => some .minutes
  | "hour" => some .hours
  | "day" => some .days
  | "week" => some .weeks
  | "month" => some .months
  | "year" => some .years
  | _ => none

/-- The number of seconds of a unit of fixed length. -/
def seconds? : TimeUnit → Option Nat
  | seconds => some 1
  | minutes => some 60
  | hours => some 3600
  | days => some 86400
  | weeks => some 604800
  | months => none
  | years => none

/-- The number of months of a unit of the calendar. -/
def monthCount : TimeUnit → Nat
  | years => 12
  | _ => 1

end TimeUnit

namespace Moment

/-- The greatest span that is added, in milliseconds. -/
def spanLimit : Float := 1e15

/-- The largest number of months that a moment is moved by. -/
def monthLimit : Nat := Nat.pow 2 32 - 1

/-- Adds a span in milliseconds; parts of a millisecond are dropped. -/
def plusMillis? (m : Moment) (span : Float) : Option Moment :=
  if span.abs < spanLimit then
    (Decimal.truncate? span).bind fun span => m.plus? (span * 1000000)
  else none

/-- Adds a number of months, within the limit. -/
def plusMonths? (m : Moment) (months : Int) : Option Moment :=
  if months.natAbs ≤ monthLimit then m.shiftMonths? months else none

/-- Adds an amount of a unit. -/
def plusUnits (m : Moment) (amount : Float) (unit : TimeUnit) : Except ShiftError Moment :=
  match unit.seconds? with
  | some seconds =>
    ((m.plusMillis? (amount * Float.ofNat (seconds * 1000))).map Except.ok).getD
      (.error .outOfRange)
  | none =>
    let months := amount * Float.ofNat unit.monthCount
    if Decimal.isWhole months then
      (((Decimal.truncate? months).bind m.plusMonths?).map Except.ok).getD (.error .outOfRange)
    else .error .fractionOfMonth

/-- Whole months from one moment to another, rounded toward zero.  The months between
their names are one too many if that many months lead beyond the goal. -/
def monthsUntil (start goal : Moment) : Int :=
  let months := goal.date.monthIndex - start.date.monthIndex
  if months > 0 then
    match start.shiftMonths? months with
    | some shifted => if goal.isBefore shifted then months - 1 else months
    | none => months
  else if months < 0 then
    match start.shiftMonths? months with
    | some shifted => if shifted.isBefore goal then months + 1 else months
    | none => months
  else 0

/-- Whole units from one moment to another, rounded toward zero. -/
def unitsUntil (start goal : Moment) (unit : TimeUnit) : Int :=
  match unit.seconds? with
  | some seconds => (goal.since start).tdiv (secondNanos * seconds)
  | none => (start.monthsUntil goal).tdiv unit.monthCount

end Moment
end Calendar
end Dialogue
