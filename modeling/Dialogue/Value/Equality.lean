import Dialogue.Json.Value

/-!
# Loose equality

Two values are alike when they agree up to the form of their numbers: `5`, `5.0` and
every other number that rounds to the same float count as one.  Objects are compared
as maps, so their written order does not matter.
-/

namespace Dialogue
namespace Value

mutual

/-- Structural equality with numbers compared as floats. -/
def alike : Value → Value → Bool
  | .null, .null => true
  | .bool a, .bool b => a == b
  | .number a, .number b => a.toFloat == b.toFloat
  | .string a, .string b => a == b
  | .array xs, .array ys => alikeItems xs ys
  | .object fs, .object gs => fs.length == gs.length && alikeFields fs gs
  | _, _ => false

/-- Lists of one length, alike place by place. -/
def alikeItems : List Value → List Value → Bool
  | [], [] => true
  | x :: xs, y :: ys => alike x y && alikeItems xs ys
  | _, _ => false

/-- Every field has an alike counterpart under its name. -/
def alikeFields : List (String × Value) → Fields → Bool
  | [], _ => true
  | (k, v) :: rest, other =>
    (match Keyed.get? other k with
      | some w => alike v w
      | none => false) && alikeFields rest other

end

end Value
end Dialogue
