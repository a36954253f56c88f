import Dialogue.Json.Printer
import Dialogue.Text.Blank

/-!
# Coercions of values

Scenario fields are loosely typed: a field that asks for text, a number or a flag
takes any value and reads it by the rules of this module.
-/

namespace Dialogue

/-- A whole float of moderate size is written like the integer it stands for. -/
def Number.text : Number → String
  | .int n => Decimal.ofInt n
  | .float x =>
    match Number.smallWhole? x with
    | some n => Decimal.ofInt n
    | none => (Number.float x).compact

namespace Value

/-- The text of a value inside surrounding text. -/
def toText : Value → String
  | .null => ""
  | .string s => s
  | .bool true => "true"
  | .bool false => "false"
  | .number n => n.text
  | v => v.compact

/-- Numbers, and texts that are decimals once trimmed. -/
def toNumber? : Value → Option Float
  | .number n => some n.toFloat
  | .string s => Decimal.number? (Text.trim s)
  | _ => none

/-- The value of a computed float: whole results of moderate size are integers. -/
def ofFloat? (x : Float) : Option Value :=
  (Number.ofFloat? x).map .number

/-- What counts as true.  Of texts only the blank ones, `false` and `0` do not. -/
def toBool : Value → Bool
  | .null => false
  | .bool b => b
  | .number n => n.toFloat != 0.0
  | .string s => !(["", "false", "0"].contains (Text.trim s))
  | .array items => !items.isEmpty
  | .object _ => true

/-- Null and the empty text. -/
def isBlank : Value → Bool
  | .null => true
  | .string s => s.isEmpty
  | _ => false

@[simp] theorem toText_string (s : String) : toText (.string s) = s := rfl

@[simp] theorem toText_null : toText .null = "" := rfl

end Value
end Dialogue
