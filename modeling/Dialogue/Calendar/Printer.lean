import Dialogue.Calendar.Pattern

/-!
# Writing moments

A moment is written under a pattern item by item.  All moments are in universal time, so
every form of the offset is zero.
-/

namespace Dialogue
namespace Calendar

/-- The names of the months. -/
def monthNames : List String :=
  ["January", "February", "March", "April", "May", "June", "July", "August", "September",
    "October", "November", "December"]

/-- The names of the days of the week, from Monday. -/
def weekdayNames : List String :=
  ["Monday", "Tuesday", "Wednesday", "Thursday", "Friday", "Saturday", "Sunday"]

/-- The letters of a name. -/
def nameLetters (names : List String) (index : Nat) : List Char :=
  (names[index]?.getD "").toList

/-- The number that an item shows. -/
def Moment.number (m : Moment) : NumberItem → Int
  | .year => m.date.year
  | .century => m.date.year / 100
  | .yearOfCentury => m.date.year % 100
  | .isoYear => m.date.isoYear
  | .isoYearOfCentury => m.date.isoYear % 100
  | .quarter => m.date.quarter
  | .month => m.date.month
  | .day => m.date.day
  | .dayOfYear => m.date.dayOfYear
  | .weekFromSunday => m.date.week 6
  | .weekFromMonday => m.date.week 0
  | .isoWeek => m.date.isoWeek
  | .daysFromSunday => m.date.daysSince 6
  | .dayFromMonday => m.date.weekday + 1
  | .hour => m.hour
  | .hourOfHalf => (m.hour + 11) % 12 + 1
  | .minute => m.minute
  | .second => m.secondOfMinute
  | .nanosecond => m.fraction
  | .timestamp => m.timestamp

/-- How the number of an item is set out. -/
inductive NumberForm where
  | year
  | one
  | two
  | atLeast (width : Nat)
deriving DecidableEq, Repr

/-- The form of each number. -/
def NumberItem.form : NumberItem → NumberForm
  | .year | .isoYear => .year
  | .quarter | .daysFromSunday | .dayFromMonday => .one
  | .dayOfYear => .atLeast 3
  | .nanosecond | .timestamp => .atLeast 9
  | _ => .two

/-- Two places for a byte.  The place of the tens counts on through the characters that
follow the digits, so a century beyond 99 still takes two places. -/
def twoPlaces (padding : Padding) (n : Nat) : List Char :=
  let ones := Nat.digitChar (n % 10)
  match n / 10, padding with
  | 0, .bare => [ones]
  | 0, .space => [' ', ones]
  | tens, _ => [Char.ofNat ('0'.toNat + tens), ones]

/-- A number in its form. -/
def NumberForm.write (form : NumberForm) (padding : Padding) (n : Int) : List Char :=
  match form with
  | .year => yearText padding n
  | .one => Decimal.digitsOf n.toNat
  | .two => twoPlaces padding (n % 256).toNat
  | .atLeast width => padded padding width false n

/-- The first `places` of the nine digits of a fraction of a second. -/
def fractionDigits (places nano : Nat) : List Char :=
  (padded .zero 9 false nano).take places

/-- A point and as many groups of three digits as a fraction needs; nothing for zero. -/
def shortFraction (nano : Nat) : List Char :=
  if nano = 0 then []
  else if nano % 1000000 = 0 then '.' :: fractionDigits 3 nano
  else if nano % 1000 = 0 then '.' :: fractionDigits 6 nano
  else '.' :: fractionDigits 9 nano

/-- Before noon or after it. -/
def Moment.isAfternoon (m : Moment) : Bool := 12 ≤ m.hour

/-- The zero offset in each form; the lenient form is for reading only. -/
def OffsetForm.zero? : OffsetForm → Option String
  | .plain => some "+0000"
  | .minutes => some "+00:00"
  | .seconds => some "+00:00:00"
  | .hours => some "+00"
  | .lenient => none

namespace PatternItem

/-- The text of one item; an item that is for reading only has none. -/
def write? (m : Moment) : PatternItem → Option (List Char)
  | literal c => some [c]
  | blank c => some [c]
  | number item padding => some (item.form.write padding (m.number item))
  | shortMonth => some ((nameLetters monthNames (m.date.month - 1)).take 3)
  | longMonth => some (nameLetters monthNames (m.date.month - 1))
  | shortWeekday => some ((nameLetters weekdayNames m.date.weekday).take 3)
  | longWeekday => some (nameLetters weekdayNames m.date.weekday)
  | lowerHalf => some (if m.isAfternoon then ['p', 'm'] else ['a', 'm'])
  | upperHalf => some (if m.isAfternoon then ['P', 'M'] else ['A', 'M'])
  | fraction => some (shortFraction m.fraction)
  | fractionTo places => some ('.' :: Calendar.fractionDigits places m.fraction)
  | fractionDigits places => some (Calendar.fractionDigits places m.fraction)
  | zoneName => some ['U', 'T', 'C']
  | offset form => form.zero?.map String.toList
  | full =>
    some (m.date.text ++ 'T' :: m.timeText ++ shortFraction m.fraction ++ "+00:00".toList)

end PatternItem

/-- The text of a moment under a pattern. -/
def Pattern.write? (pattern : Pattern) (m : Moment) : Option String :=
  (pattern.mapM (PatternItem.write? m)).map fun pieces => String.ofList pieces.flatten

/-- The text of a moment under a pattern that is given as text. -/
def Moment.format? (m : Moment) (pattern : String) : Option String :=
  (Pattern.read? pattern).bind fun pattern => pattern.write? m

end Calendar
end Dialogue
