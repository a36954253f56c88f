import Dialogue.Calendar.Unit
import Dialogue.Functions.Parameters

/-!
# Dates

`ParseDate` and `FormatDate` read and write moments, `AddToDate` moves one, and
`DateDiff` counts whole units between two.  Wherever a date is asked for, every spelling
of a moment is accepted.
-/

namespace Dialogue
namespace Dates

open Calendar

/-- The moment of a parameter. -/
def moment (function : String) (params : Fields) (name : String) : Except Failure Moment := do
  let raw ← Parameters.required function params name
  match Moment.ofValue? raw with
  | some m => .ok m
  | none => .error (.unreadableDate function raw)

/-- The unit of a span; days where none is given. -/
def unit (params : Fields) : Except Failure TimeUnit :=
  let raw := (Parameters.text? params "unit").getD "days"
  match TimeUnit.ofName? raw with
  | some unit => .ok unit
  | none => .error (.unknownUnit raw)

/-- A moment as a value. -/
def written (m : Moment) : Value := .string m.text

/-- The pattern of a date where none is given. -/
def defaultPattern : String := "%Y-%m-%d %H:%M:%S"

/-- Writes a moment under a pattern. -/
def formatDate (params : Fields) : Except Failure Value := do
  let m ← moment "FormatDate" params "date"
  let pattern := (Parameters.text? params "format").getD defaultPattern
  match m.format? pattern with
  | some text => .ok (.string text)
  | none => .error (.unusableFormat pattern)

/-- Reads a moment, under a pattern if one is given. -/
def parseDate (params : Fields) : Except Failure Value := do
  let raw ← Parameters.required "ParseDate" params "text"
  let found := match Parameters.text? params "format" with
    | some pattern => Moment.ofFormat? pattern (Text.trim raw.toText)
    | none => Moment.ofValue? raw
  match found with
  | some m => .ok (written m)
  | none => .error (.unreadableDate "ParseDate" raw)

/-- The failure behind a move that did not succeed. -/
def shiftFailure : ShiftError → Failure
  | .fractionOfMonth => .fractionOfMonth
  | .outOfRange => .dateOutOfRange

/-- Moves a moment by an amount of a unit. -/
def addToDate (params : Fields) : Except Failure Value := do
  let m ← moment "AddToDate" params "date"
  let amount ← Parameters.requiredNumber "AddToDate" params "amount"
  let unit ← unit params
  match m.plusUnits amount unit with
  | .ok shifted => .ok (written shifted)
  | .error e => .error (shiftFailure e)

/-- Counts whole units from one moment to another. -/
def dateDiff (params : Fields) : Except Failure Value := do
  let start ← moment "DateDiff" params "from"
  let goal ← moment "DateDiff" params "to"
  let unit ← unit params
  .ok (.ofInt (start.unitsUntil goal unit))

/-- The functions of this module. -/
def functions {σ : Type} : List (String × Executor σ) :=
  [("FormatDate", .ofResult ["date", "format"] formatDate),
    ("ParseDate", .ofResult ["text", "format"] parseDate),
    ("AddToDate", .ofResult ["date", "amount", "unit"] addToDate),
    ("DateDiff", .ofResult ["from", "to", "unit"] dateDiff)]

end Dates
end Dialogue
