import Dialogue.Decimal.Whole
import Dialogue.Functions.Parameters

/-!
# Arithmetic

`Plus`, `Minus`, `Multiply` and `Divide` combine any number of operands from left to
right; a single operand is negated by `Minus` and inverted by `Divide`.  `Mod` is the
remainder, with the sign of the dividend.  All operands are read before any is combined.
-/

namespace Dialogue
namespace Arithmetic

/-- The operations on a list of operands. -/
inductive Operation where
  | plus
  | minus
  | multiply
  | divide
deriving DecidableEq, Repr

namespace Operation

/-- The name of the function. -/
def name : Operation → String
  | plus => "Plus"
  | minus => "Minus"
  | multiply => "Multiply"
  | divide => "Divide"

/-- Combines two numbers. -/
def step (operation : Operation) (x y : Float) : Except Failure Float :=
  match operation with
  | plus => .ok (x + y)
  | minus => .ok (x - y)
  | multiply => .ok (x * y)
  | divide => if y == 0.0 then .error .divisionByZero else .ok (x / y)

/-- The result for no operand. -/
def empty : Operation → Except Failure Float
  | plus => .ok 0.0
  | minus => .ok 0.0
  | multiply => .ok 1.0
  | divide => .error (.noOperands divide.name)

/-- The result for one operand. -/
def single (operation : Operation) (x : Float) : Except Failure Float :=
  match operation with
  | minus => .ok (-x)
  | divide => divide.step 1.0 x
  | _ => .ok x

/-- Combines the operands from left to right. -/
def apply (operation : Operation) : List Float → Except Failure Float
  | [] => operation.empty
  | [x] => operation.single x
  | x :: rest => rest.foldlM operation.step x

/-- The value of the operation for its parameters. -/
def result (operation : Operation) (params : Fields) : Except Failure Value := do
  let operands ← (Parameters.list params "values").mapM (Parameters.number operation.name)
  let x ← operation.apply operands
  Parameters.finish operation.name x

/-- The function of an operation. -/
def executor {σ : Type} (operation : Operation) : Executor σ :=
  .ofResult ["values"] operation.result

end Operation

/-- The remainder of a division. -/
def modulo (params : Fields) : Except Failure Value := do
  let dividend ← Parameters.requiredNumber "Mod" params "dividend"
  let divisor ← Parameters.requiredNumber "Mod" params "divisor"
  if divisor == 0.0 then .error .divisionByZero
  else Parameters.finish "Mod" (Decimal.remainder dividend divisor)

/-- The functions of this module. -/
def functions {σ : Type} : List (String × Executor σ) :=
  ([Operation.plus, .minus, .multiply, .divide].map fun operation =>
    (operation.name, operation.executor)) ++
    [("Mod", .ofResult ["dividend", "divisor"] modulo)]

end Arithmetic
end Dialogue
