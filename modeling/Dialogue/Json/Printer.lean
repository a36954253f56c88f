import Dialogue.Decimal.Layout
import Dialogue.Json.Value

/-!
# Compact JSON text

The written form of a value: no blanks, fields in key order, and an escape only where
JSON demands one.
-/

namespace Dialogue

/-- The text of a number; a float always shows that it is one. -/
def Number.compact : Number → String
  | .int n => Decimal.ofInt n
  | .float x => Decimal.Layout.plain.write x

namespace Json

/-- One hexadecimal digit, lower case. -/
def hexDigit (n : Nat) : Char :=
  Nat.digitChar (n % 16)

/-- Quotes, backslashes and control characters are escaped; everything else stands
for itself. -/
def escape (c : Char) : List Char :=
  if c = '"' then ['\\', '"']
  else if c = '\\' then ['\\', '\\']
  else if c.toNat < 0x20 then
    match c.toNat with
    | 8 => ['\\', 'b']
    | 9 => ['\\', 't']
    | 10 => ['\\', 'n']
    | 12 => ['\\', 'f']
    | 13 => ['\\', 'r']
    | n => ['\\', 'u', '0', '0', hexDigit (n / 16), hexDigit n]
  else [c]

/-- A text between quotes. -/
def quoted (s : String) : String :=
  String.ofList ('"' :: (s.toList.flatMap escape ++ ['"']))

end Json

namespace Value

mutual

/-- The compact text of a value. -/
def compact : Value → String
  | .null => "null"
  | .bool true => "true"
  | .bool false => "false"
  | .number n => n.compact
  | .string s => Json.quoted s
  | .array items => "[" ++ String.intercalate "," (compactItems items) ++ "]"
  | .object fields => "\x7b" ++ String.intercalate "," (compactFields fields) ++ "\x7d"

/-- The texts of the items of an array. -/
def compactItems : List Value → List String
  | [] => []
  | v :: rest => compact v :: compactItems rest

/-- The texts of the fields of an object. -/
def compactFields : List (String × Value) → List String
  | [] => []
  | (k, v) :: rest => (Json.quoted k ++ ":" ++ compact v) :: compactFields rest

end

end Value
end Dialogue
