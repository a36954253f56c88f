import Dialogue.Json.Value

/-!
# Descriptors and graphs

A descriptor is an object that names an action or a function in a field of its own.
A graph is one descriptor or a list of them.
-/

namespace Dialogue
namespace Value

/-- The field that names an action. -/
def actionKey : String := "action"

/-- The field that names a function. -/
def functionKey : String := "function"

/-- The name in a field, if it is text. -/
def nameUnder (key : String) (fields : Fields) : Option String :=
  (fields.get? key).bind text?

/-- Whether a value is an object that names an action. -/
def isAction (v : Value) : Bool :=
  ((v.fields?).bind (nameUnder actionKey)).isSome

/-- Whether a value is an object that names a function. -/
def isFunction (v : Value) : Bool :=
  ((v.fields?).bind (nameUnder functionKey)).isSome

/-- The entries of a graph, in order; a value that is neither a list nor an object has
none. -/
def graphItems : Value → List Value
  | .array items => items
  | .object fields => [.object fields]
  | _ => []

end Value
end Dialogue
