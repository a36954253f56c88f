import Dialogue.Calendar.Parts
import Dialogue.Calendar.Printer
import Dialogue.Decimal.Reading

/-!
# Reading moments under a pattern

A text is read item by item from the left, and the numbers that it names are noted as
parts.  Blanks of a pattern, and the places before a number, take any run of blanks, also
none.  Names are read in any case.  The whole text has to be used up.
-/

namespace Dialogue
namespace Calendar

/-- A text that has been read in part. -/
structure Reading where
  rest : List Char
  parts : Parts := {}

namespace Reading

/-- Skips blanks. -/
def skipBlanks (r : Reading) : Reading :=
  { r with rest := r.rest.dropWhile Text.isBlank }

/-- The largest number that is read. -/
def numberLimit : Nat := Nat.pow 2 63 - 1

/-- Up to `width` digits at the front, at least one, as a number. -/
def digits? (width : Nat) (cs : List Char) : Option (Nat × List Char) := do
  let run := (cs.take width).takeWhile Char.isDigit
  let n ← Decimal.digits? run
  if n ≤ numberLimit then some (n, cs.drop run.length) else none

/-- A run of digits of any length. -/
def allDigits? (cs : List Char) : Option (Nat × List Char) := digits? cs.length cs

/-- Exactly `width` digits. -/
def exactDigits? (width : Nat) (cs : List Char) : Option (Nat × List Char) :=
  (digits? width cs).filter fun found => found.2.length + width = cs.length

/-- The digits after the point of a fraction of a second, as nanoseconds; digits beyond
the ninth are passed over. -/
def fraction? (cs : List Char) : Option (Nat × List Char) :=
  (digits? 9 cs).map fun (n, rest) =>
    (n * Nat.pow 10 (9 - (cs.length - rest.length)), rest.dropWhile Char.isDigit)

/-- Exactly `places` digits of a fraction of a second, as nanoseconds. -/
def fractionDigits? (places : Nat) (cs : List Char) : Option (Nat × List Char) :=
  (exactDigits? places cs).map fun (n, rest) => (n * Nat.pow 10 (9 - places), rest)

/-- Whether a lower-case word stands at the front, in any case. -/
def opens (word : List Char) (cs : List Char) : Bool :=
  (cs.take word.length).map Char.toLower == word

/-- The index of the first of some names whose first three letters stand at the front,
and what follows them, or what follows the whole name where that is allowed and there. -/
def name? (names : List String) (whole : Bool) (cs : List Char) : Option (Nat × List Char) := do
  let lower := names.map fun name => name.toList.map Char.toLower
  let index ← lower.findIdx? fun name => opens (name.take 3) cs
  let name := lower[index]?.getD []
  if whole && opens name cs then some (index, cs.drop name.length)
  else some (index, cs.drop 3)

/-- How the parts of an offset may be set apart. -/
structure OffsetRule where
  zulu : Bool
  hoursAlone : Bool
  separator : List Char → Option (List Char)

/-- Any run of colons and blanks. -/
def looseSeparator (cs : List Char) : Option (List Char) :=
  some (cs.dropWhile fun c => c = ':' || Text.isBlank c)

/-- Exactly one colon. -/
def colon : List Char → Option (List Char)
  | ':' :: rest => some rest
  | _ => none

/-- The sign of an offset; `true` is minus. -/
def offsetSign? : List Char → Option (Bool × List Char)
  | '+' :: rest => some (false, rest)
  | '-' :: rest => some (true, rest)
  | '\u2212' :: rest => some (true, rest)
  | _ => none

/-- The minutes of an offset.  Where they may be missing, the text has to end. -/
def offsetMinutes? (rule : OffsetRule) (cs : List Char) : Option (Nat × List Char) :=
  if cs.isEmpty && rule.hoursAlone then some (0, [])
  else (exactDigits? 2 cs).filter fun found => found.1 < 60

/-- An offset in seconds. -/
def offset? (rule : OffsetRule) (cs : List Char) : Option (Int × List Char) :=
  if rule.zulu && opens ['z'] cs then some (0, cs.drop 1)
  else do
    let (negative, rest) ← offsetSign? cs
    let (hours, rest) ← exactDigits? 2 rest
    let rest ← rule.separator rest
    let (minutes, rest) ← offsetMinutes? rule rest
    let seconds : Int := hours * 3600 + minutes * 60
    some (if negative then -seconds else seconds, rest)

/-- Notes a number that has been read. -/
def noting (item : NumberItem) (parts : Parts) (found : Nat × List Char) : Option Reading :=
  (parts.note? item found.1).map fun parts => { rest := found.2, parts }

/-- Notes a fraction of a second after a point, if there is a point. -/
def pointFraction? (r : Reading) (read : List Char → Option (Nat × List Char)) :
    Option Reading :=
  match r.rest with
  | '.' :: rest => (read rest).bind (noting .nanosecond r.parts)
  | _ => some r

/-- The most digits that a number has where it carries no sign. -/
def width : NumberItem → Option Nat
  | .year | .isoYear => some 4
  | .dayOfYear => some 3
  | .quarter | .daysFromSunday | .dayFromMonday => some 1
  | .nanosecond => some 9
  | .timestamp => none
  | _ => some 2

/-- Whether a number may carry a sign; then it may also be of any length. -/
def mayBeSigned : NumberItem → Bool
  | .year | .isoYear => true
  | _ => false

/-- Reads a number. -/
def number? (item : NumberItem) (r : Reading) : Option Reading :=
  let r := r.skipBlanks
  match mayBeSigned item, r.rest with
  | true, '-' :: rest =>
    (allDigits? rest).bind fun (n, rest) =>
      (r.parts.note? item (-(n : Int))).map fun parts => { rest, parts }
  | true, '+' :: rest => (allDigits? rest).bind (noting item r.parts)
  | _, cs => (digits? ((width item).getD cs.length) cs).bind (noting item r.parts)

/-- Reads an offset after blanks. -/
def withOffset? (rule : OffsetRule) (r : Reading) : Option Reading :=
  (offset? rule r.skipBlanks.rest).bind fun (seconds, rest) =>
    (r.parts.noteOffset? seconds).map fun parts => { rest, parts }

/-- Reads the name of a month. -/
def month? (whole : Bool) (r : Reading) : Option Reading :=
  (name? monthNames whole r.rest).bind fun (index, rest) =>
    noting .month r.parts (index + 1, rest)

/-- Reads the name of a weekday. -/
def weekday? (whole : Bool) (r : Reading) : Option Reading :=
  (name? weekdayNames whole r.rest).bind fun (index, rest) =>
    noting .dayFromMonday r.parts (index + 1, rest)

/-- Reads a half of the day. -/
def half? (r : Reading) : Option Reading :=
  let half (afternoon : Bool) :=
    (r.parts.noteHalf? afternoon).map fun parts : Parts =>
      ({ rest := r.rest.drop 2, parts } : Reading)
  if opens ['a', 'm'] r.rest then half false
  else if opens ['p', 'm'] r.rest then half true
  else none

/-- Reads a separator between date and time. -/
def dateTimeMark? (cs : List Char) : Option (List Char) :=
  match cs with
  | 'T' :: rest | 't' :: rest | ' ' :: rest => some rest
  | _ => none

/-- Reads one character that stands for itself. -/
def literal? (c : Char) (r : Reading) : Option Reading :=
  match r.rest with
  | d :: rest => if c = d then some { r with rest } else none
  | [] => none

/-- Reads numbers with a character, which may follow blanks, between them. -/
def chain? (separator : Char) : List NumberItem → Reading → Option Reading
  | [], r => some r
  | [item], r => number? item r
  | item :: items, r => do
    let r ← number? item r
    let r ← literal? separator r.skipBlanks
    chain? separator items r

/-- Reads a full date, time and offset. -/
def full? (r : Reading) : Option Reading := do
  let r ← chain? '-' [.year, .month, .day] r
  let rest ← dateTimeMark? r.rest
  let r ← chain? ':' [.hour, .minute, .second] { r with rest }
  let r ← r.pointFraction? fraction?
  let r := r.skipBlanks
  if opens ['u', 't', 'c'] r.rest then
    (r.parts.noteOffset? 0).map fun parts => { rest := r.rest.drop 3, parts }
  else withOffset? { zulu := true, hoursAlone := false, separator := looseSeparator } r

end Reading

/-- Reads one item of a pattern. -/
def PatternItem.read? (r : Reading) : PatternItem → Option Reading
  | literal c => Reading.literal? c r
  | blank _ => some r.skipBlanks
  | number item _ => Reading.number? item r
  | shortMonth => Reading.month? false r
  | longMonth => Reading.month? true r
  | shortWeekday => Reading.weekday? false r
  | longWeekday => Reading.weekday? true r
  | lowerHalf => Reading.half? r
  | upperHalf => Reading.half? r
  | fraction => r.pointFraction? Reading.fraction?
  | fractionTo places => r.pointFraction? (Reading.fractionDigits? places)
  | fractionDigits places =>
    (Reading.fractionDigits? places r.rest).bind (Reading.noting .nanosecond r.parts)
  | zoneName => some { r with rest := r.rest.dropWhile fun c => !Text.isBlank c }
  | offset .lenient =>
    r.withOffset? { zulu := true, hoursAlone := true, separator := Reading.looseSeparator }
  | offset _ =>
    r.withOffset? { zulu := false, hoursAlone := false, separator := Reading.looseSeparator }
  | full => Reading.full? r

/-- The parts that a whole text names under a pattern. -/
def Pattern.parts? (pattern : Pattern) (text : String) : Option Parts := do
  let r ← pattern.foldlM PatternItem.read? { rest := text.toList }
  if r.rest.isEmpty then some r.parts else none

/-- The moment that a text names under a pattern.  A date without a time is its
midnight. -/
def Pattern.moment? (pattern : Pattern) (text : String) : Option Moment :=
  (pattern.parts? text).bind fun parts =>
    parts.moment?.or (parts.date.toOption.map Moment.ofDate)

/-- The moment that a text names under a pattern, date and time both. -/
def Pattern.fullMoment? (pattern : Pattern) (text : String) : Option Moment :=
  (pattern.parts? text).bind Parts.moment?

/-- The moment that a text names under a pattern that is given as text. -/
def Moment.ofFormat? (pattern : String) (text : String) : Option Moment :=
  (Pattern.read? pattern).bind fun pattern => pattern.moment? text

end Calendar
end Dialogue
