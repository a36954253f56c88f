import Dialogue.Engine.Basic

/-!
# Parameters of functions

A function reads its parameters from the fields of its descriptor.  A parameter that is
null counts as missing.
-/

namespace Dialogue
namespace Parameters

/-- The value of a parameter that is given. -/
def given? (params : Fields) (name : String) : Option Value :=
  (params.get? name).filter fun value => !value.isNull

/-- The value of a parameter that has to be given. -/
def required (function : String) (params : Fields) (name : String) : Except Failure Value :=
  match given? params name with
  | some value => .ok value
  | none => .error (.missingParameter function name)

/-- The text of a parameter that is given. -/
def text? (params : Fields) (name : String) : Option String :=
  (given? params name).map Value.toText

/-- The items of a parameter; a value that is no list counts as a list of one. -/
def list (params : Fields) (name : String) : List Value :=
  match given? params name with
  | none => []
  | some (.array items) => items
  | some value => [value]

/-- The number that a value stands for. -/
def number (function : String) (value : Value) : Except Failure Float :=
  match value.toNumber? with
  | some x => .ok x
  | none => .error (.notANumber function value)

/-- The number of a parameter that has to be given. -/
def requiredNumber (function : String) (params : Fields) (name : String) :
    Except Failure Float := do
  let value ← required function params name
  number function value

/-- The value of a computed number. -/
def finish (function : String) (x : Float) : Except Failure Value :=
  match Value.ofFloat? x with
  | some value => .ok value
  | none => .error (.notFinite function)

end Parameters

/-- A function of its parameters alone. -/
def Executor.ofResult {σ : Type} (keywords : List String) (f : Fields → Except Failure Value) :
    Executor σ where
  keywords := keywords
  execute _ params := Eval.ofExcept (f params)

end Dialogue
