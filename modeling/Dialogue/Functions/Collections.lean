import Dialogue.Functions.Parameters

/-!
# Lists

`JoinToString` joins the texts of values, `CombineArrays` chains lists, `ArraySize`
counts, and `Map` evaluates a template once for each item.
-/

namespace Dialogue
namespace Collections

/-- The items of a parameter that has to be a list. -/
def requiredItems (function : String) (params : Fields) (name : String) :
    Except Failure (List Value) := do
  match ← Parameters.required function params name with
  | .array items => .ok items
  | value => .error (.notAnArray function value)

/-- Joins the texts of the values that are not blank. -/
def joinToString (params : Fields) : Value :=
  let separator := (Parameters.text? params "separator").getD ", "
  let front := (Parameters.text? params "prefix").getD ""
  let back := (Parameters.text? params "suffix").getD ""
  let texts := ((Parameters.list params "values").filter fun value => !value.isBlank).map
    Value.toText
  .string (front ++ String.intercalate separator texts ++ back)

/-- Chains the lists among some values; other values are passed over. -/
def combineArrays (params : Fields) : Value :=
  .array ((Parameters.list params "arrays").flatMap fun entry => entry.items?.getD [])

/-- Counts the items of a list. -/
def arraySize (params : Fields) : Except Failure Value :=
  (requiredItems "ArraySize" params "array").map fun items => .ofNat items.length

section

variable {σ : Type}

/-- The variables of one item. -/
def itemFrame (index : Nat) (item : Value) : Fields :=
  [("index", .ofNat index), ("it", item)]

/-- Evaluates a template for each item, in a frame of its own. -/
def mapItems (interpolate : Interpolation σ) (template : Value) :
    Nat → List Value → Eval σ (List Value)
  | _, [] => return []
  | index, item :: rest => do
    let value ← Eval.withLocals (itemFrame index item) (interpolate template)
    let values ← mapItems interpolate template (index + 1) rest
    return value :: values

/-- Evaluates a template for each item of a list. -/
def map : Executor σ where
  keywords := ["array"]
  deferred := ["template"]
  execute interpolate params := do
    let items ← Eval.ofExcept (requiredItems "Map" params "array")
    let values ← mapItems interpolate ((params.get? "template").getD .null) 0 items
    return .array values

/-- The functions of this module. -/
def functions : List (String × Executor σ) :=
  [("JoinToString", .ofResult ["values", "separator", "prefix", "suffix"] fun params =>
      .ok (joinToString params)),
    ("CombineArrays", .ofResult ["arrays"] fun params => .ok (combineArrays params)),
    ("ArraySize", .ofResult ["array"] arraySize), ("Map", map)]

end

end Collections
end Dialogue
