import Dialogue.Functions.Parameters
import Dialogue.Value.Equality

/-!
# Comparing and choosing

`Compare` compares two numbers.  `Switch` takes the first case whose match is like the
value, and `Equals` tells whether all its values are alike.  Both evaluate only the
branch that they choose, and `Switch` no case after the one that matches.
-/

namespace Dialogue
namespace Logic

/-- The ways to compare two numbers. -/
inductive Comparison where
  | more
  | moreOrEqual
  | equal
  | less
  | lessOrEqual
deriving DecidableEq, Repr

namespace Comparison

/-- The comparison that an operator names, in words or as a sign. -/
def ofOperator? (raw : String) : Option Comparison :=
  match Text.trim raw with
  | "more" | ">" => some .more
  | "moreThanOrEquals" | ">=" => some .moreOrEqual
  | "equals" | "==" | "=" => some .equal
  | "less" | "<" => some .less
  | "lessThanOrEquals" | "<=" => some .lessOrEqual
  | _ => none

/-- Whether a comparison holds. -/
def holds (comparison : Comparison) (x y : Float) : Bool :=
  match comparison with
  | more => x > y
  | moreOrEqual => x ≥ y
  | equal => x == y
  | less => x < y
  | lessOrEqual => x ≤ y

end Comparison

/-- Compares two numbers. -/
def compare (params : Fields) : Except Failure Value := do
  let left ← Parameters.requiredNumber "Compare" params "left"
  let right ← Parameters.requiredNumber "Compare" params "right"
  let operator ← Parameters.required "Compare" params "operator"
  match Comparison.ofOperator? operator.toText with
  | some comparison => .ok (.bool (comparison.holds left right))
  | none => .error (.unknownOperator operator.toText)

section

variable {σ : Type}

/-- Evaluates a branch, if there is one. -/
def branch (interpolate : Interpolation σ) (otherwise : Value) : Option Value → Eval σ Value
  | some expression => interpolate expression
  | none => return otherwise

/-- Takes the first case that matches.  Cases that are no objects are passed over. -/
def choose (interpolate : Interpolation σ) (value : Value) (default? : Option Value) :
    List Value → Eval σ Value
  | [] => branch interpolate .null default?
  | .object fields :: rest => do
    let candidate ← interpolate ((Keyed.get? fields "match").getD .null)
    if candidate.alike value then interpolate ((Keyed.get? fields "result").getD .null)
    else choose interpolate value default? rest
  | _ :: rest => choose interpolate value default? rest

/-- Chooses by a value. -/
def switch : Executor σ where
  deferred := ["cases", "defaultResult"]
  execute interpolate params :=
    choose interpolate ((params.get? "value").getD .null) (params.get? "defaultResult")
      (Parameters.list params "cases")

/-- Whether all values are alike the first one. -/
def allAlike : List Value → Bool
  | [] => true
  | first :: rest => rest.all first.alike

/-- Tells whether values are alike, or chooses by it. -/
def equals : Executor σ where
  keywords := ["values"]
  deferred := ["trueResult", "falseResult"]
  execute interpolate params :=
    let outcome := allAlike (Parameters.list params "values")
    branch interpolate (.bool outcome)
      (params.get? (if outcome then "trueResult" else "falseResult"))

/-- The functions of this module. -/
def functions : List (String × Executor σ) :=
  [("Compare", .ofResult ["left", "right", "operator"] compare), ("Switch", switch),
    ("Equals", equals)]

end

end Logic
end Dialogue
