import Dialogue.Calendar.Parser
import Dialogue.Decimal.Whole
import Dialogue.Value.Coercion

/-!
# Spellings of a moment

A scenario may give a moment in several ways: as a number of milliseconds since 1970, in
the standard form with an offset, as a date with or without a time, or as the text of a
number.  The ways are tried in that order.
-/

namespace Dialogue
namespace Calendar

namespace Reading

/-- The largest offset of the standard form, in seconds. -/
def offsetLimit : Int := (23 * 60 + 59) * 60

/-- Notes a number of exactly so many digits. -/
def fixedWidth? (item : NumberItem) (width : Nat) (r : Reading) : Option Reading :=
  (exactDigits? width r.rest).bind (noting item r.parts)

/-- Reads the standard form: every number has its full width, the seconds are there, and
the offset is `Z` or hours and minutes with a colon. -/
def standard? (r : Reading) : Option Reading := do
  let r ← fixedWidth? .year 4 r
  let r ← literal? '-' r
  let r ← fixedWidth? .month 2 r
  let r ← literal? '-' r
  let r ← fixedWidth? .day 2 r
  let rest ← dateTimeMark? r.rest
  let r ← fixedWidth? .hour 2 { r with rest }
  let r ← literal? ':' r
  let r ← fixedWidth? .minute 2 r
  let r ← literal? ':' r
  let r ← fixedWidth? .second 2 r
  let r ← r.pointFraction? fraction?
  let (offset, rest) ← offset? { zulu := true, hoursAlone := false, separator := colon } r.rest
  if offset.natAbs ≤ offsetLimit then
    (r.parts.noteOffset? offset).map fun parts => { rest, parts }
  else none

end Reading

namespace Moment

/-- The moment that a text in the standard form names, moved to universal time. -/
def ofStandard? (text : String) : Option Moment := do
  let r ← Reading.standard? { rest := text.toList }
  if r.rest.isEmpty then
    let m ← r.parts.moment?
    m.minusOffset? (r.parts.offset.getD 0)
  else none

/-- A date and a time in universal time. -/
def dateTimePatterns : List Pattern :=
  [Pattern.dashedDate ++ .blank ' ' :: Pattern.time,
    Pattern.dashedDate ++ .literal 'T' :: Pattern.time,
    Pattern.dashedDate ++ .blank ' ' :: Pattern.shortTime]

/-- The midnight of a date that a text names. -/
def ofDateText? (text : String) : Option Moment :=
  (Pattern.dashedDate.parts? text).bind fun parts => parts.date.toOption.map ofDate

/-- The moment a number of milliseconds after the start of 1970; parts of a millisecond
are dropped. -/
def ofMillisFloat? (x : Float) : Option Moment :=
  (Decimal.truncate? x).bind ofMillis?

/-- The moment that a text names. -/
def ofText? (text : String) : Option Moment :=
  let text := Text.trim text
  (ofStandard? text).or <|
    (dateTimePatterns.findSome? fun pattern => pattern.fullMoment? text).or <|
      (ofDateText? text).or ((Decimal.number? text).bind ofMillisFloat?)

/-- The moment that a value names. -/
def ofValue? : Value → Option Moment
  | .number n => ofMillisFloat? n.toFloat
  | .string s => ofText? s
  | _ => none

end Moment
end Calendar
end Dialogue
