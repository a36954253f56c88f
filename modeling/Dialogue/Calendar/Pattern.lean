import Dialogue.Calendar.Moment
import Dialogue.Text.Blank

/-!
# Patterns

A pattern says how a moment is written: text that stands for itself, and directives, each
a percent sign and a letter.  A directive stands for one item or for a fixed sequence of
them.  Between the percent sign and the letter of a single number may stand a mark that
changes how the number is filled up: `-` not at all, `0` with zeros, `_` with spaces.
-/

namespace Dialogue
namespace Calendar

/-- The numbers that describe a moment. -/
inductive NumberItem where
  | year
  | century
  | yearOfCentury
  | isoYear
  | isoYearOfCentury
  | quarter
  | month
  | day
  | dayOfYear
  | weekFromSunday
  | weekFromMonday
  | isoWeek
  | daysFromSunday
  | dayFromMonday
  | hour
  | hourOfHalf
  | minute
  | second
  | nanosecond
  | timestamp
deriving DecidableEq, Repr

/-- How an offset from universal time is written. -/
inductive OffsetForm where
  | plain
  | minutes
  | seconds
  | hours
  | lenient
deriving DecidableEq, Repr

/-- One part of a pattern. -/
inductive PatternItem where
  | literal (c : Char)
  | blank (c : Char)
  | number (item : NumberItem) (padding : Padding)
  | shortMonth
  | longMonth
  | shortWeekday
  | longWeekday
  | lowerHalf
  | upperHalf
  | fraction
  | fractionTo (places : Nat)
  | fractionDigits (places : Nat)
  | zoneName
  | offset (form : OffsetForm)
  | full
deriving DecidableEq, Repr

/-- The parts of a pattern in order. -/
abbrev Pattern := List PatternItem

namespace Pattern

/-- A number filled up with zeros. -/
def zeroed (item : NumberItem) : PatternItem := .number item .zero

/-- A number filled up with spaces. -/
def spaced (item : NumberItem) : PatternItem := .number item .space

/-- Items with a separator between them. -/
def separated (separator : PatternItem) (items : Pattern) : Pattern :=
  items.intersperse separator

/-- Month, day and year of the century. -/
def slashedDate : Pattern :=
  separated (.literal '/') [zeroed .month, zeroed .day, zeroed .yearOfCentury]

/-- Year, month and day. -/
def dashedDate : Pattern :=
  separated (.literal '-') [zeroed .year, zeroed .month, zeroed .day]

/-- Hour and minute. -/
def shortTime : Pattern := separated (.literal ':') [zeroed .hour, zeroed .minute]

/-- Hour, minute and second. -/
def time : Pattern := separated (.literal ':') [zeroed .hour, zeroed .minute, zeroed .second]

/-- A time of twelve hours. -/
def halfDayTime : Pattern :=
  separated (.literal ':') [zeroed .hourOfHalf, zeroed .minute, zeroed .second] ++
    [.blank ' ', .upperHalf]

/-- Date and time in the usual words. -/
def worded : Pattern :=
  [.shortWeekday, .blank ' ', .shortMonth, .blank ' ', spaced .day, .blank ' '] ++ time ++
    [.blank ' ', zeroed .year]

/-- Day, short month and year. -/
def dayMonthYear : Pattern :=
  separated (.literal '-') [spaced .day, .shortMonth, zeroed .year]

/-- The items that a directive of one letter stands for. -/
def ofLetter? : Char → Option Pattern
  | 'A' => some [.longWeekday]
  | 'B' => some [.longMonth]
  | 'C' => some [zeroed .century]
  | 'D' => some slashedDate
  | 'F' => some dashedDate
  | 'G' => some [zeroed .isoYear]
  | 'H' => some [zeroed .hour]
  | 'I' => some [zeroed .hourOfHalf]
  | 'M' => some [zeroed .minute]
  | 'P' => some [.lowerHalf]
  | 'R' => some shortTime
  | 'S' => some [zeroed .second]
  | 'T' => some time
  | 'U' => some [zeroed .weekFromSunday]
  | 'V' => some [zeroed .isoWeek]
  | 'W' => some [zeroed .weekFromMonday]
  | 'X' => some time
  | 'Y' => some [zeroed .year]
  | 'Z' => some [.zoneName]
  | 'a' => some [.shortWeekday]
  | 'b' => some [.shortMonth]
  | 'c' => some worded
  | 'd' => some [zeroed .day]
  | 'e' => some [spaced .day]
  | 'f' => some [zeroed .nanosecond]
  | 'g' => some [zeroed .isoYearOfCentury]
  | 'h' => some [.shortMonth]
  | 'j' => some [zeroed .dayOfYear]
  | 'k' => some [spaced .hour]
  | 'l' => some [spaced .hourOfHalf]
  | 'm' => some [zeroed .month]
  | 'n' => some [.blank '\n']
  | 'p' => some [.upperHalf]
  | 'q' => some [.number .quarter .bare]
  | 'r' => some halfDayTime
  | 's' => some [.number .timestamp .bare]
  | 't' => some [.blank '\t']
  | 'u' => some [.number .dayFromMonday .bare]
  | 'v' => some dayMonthYear
  | 'w' => some [.number .daysFromSunday .bare]
  | 'x' => some slashedDate
  | 'y' => some [zeroed .yearOfCentury]
  | 'z' => some [.offset .plain]
  | '+' => some [.full]
  | '%' => some [.literal '%']
  | _ => none

/-- The number of digits that a fraction directive names. -/
def places? : Char → Option Nat
  | '3' => some 3
  | '6' => some 6
  | '9' => some 9
  | _ => none

/-- The mark that changes how a number is filled up. -/
def padding? : Char → Option Padding
  | '-' => some .bare
  | '0' => some .zero
  | '_' => some .space
  | _ => none

/-- The items of an unmarked directive at the front of a text, and the number of its
characters; the percent sign has been taken off. -/
def directive? : List Char → Option (Pattern × Nat)
  | ':' :: ':' :: ':' :: 'z' :: _ => some ([.offset .hours], 4)
  | ':' :: ':' :: 'z' :: _ => some ([.offset .seconds], 3)
  | ':' :: 'z' :: _ => some ([.offset .minutes], 2)
  | '.' :: 'f' :: _ => some ([.fraction], 2)
  | '.' :: c :: 'f' :: _ => (places? c).map fun places => ([.fractionTo places], 3)
  | c :: rest =>
    match places? c with
    | some places => if rest.head? = some 'f' then some ([.fractionDigits places], 2) else none
    | none => (ofLetter? c).map fun items => (items, 1)
  | [] => none

/-- The item of a directive with a padding mark, which has to be a single number. -/
def repadded? (padding : Padding) : Pattern × Nat → Option (Pattern × Nat)
  | ([.number item _], count) => some ([.number item padding], count + 1)
  | _ => none

/-- The items of a directive at the front of a text, and the number of its characters. -/
def markedDirective? (cs : List Char) : Option (Pattern × Nat) :=
  match cs with
  | '#' :: 'z' :: _ => some ([.offset .lenient], 2)
  | c :: rest =>
    match padding? c with
    | some padding => (directive? rest).bind (repadded? padding)
    | none => directive? cs
  | [] => none

/-- The items of a pattern; `none` if it holds a directive that does not exist. -/
def items? (cs : List Char) : Option Pattern :=
  match cs with
  | [] => some []
  | '%' :: rest =>
    match markedDirective? rest with
    | some (items, count) => (items? (rest.drop count)).map fun others => items ++ others
    | none => none
  | c :: rest =>
    (items? rest).map fun others => (if Text.isBlank c then .blank c else .literal c) :: others
termination_by cs.length
decreasing_by
  · simp only [List.length_cons, List.length_drop]
    omega
  · simp

/-- The pattern that a text describes. -/
def read? (text : String) : Option Pattern := items? text.toList

end Pattern
end Calendar
end Dialogue
