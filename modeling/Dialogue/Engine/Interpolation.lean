import Dialogue.Engine.Shorthand

/-!
# Interpolation

Interpolation finds the value that a template stands for.  A text that is one token
becomes the token's value; in any other text each token is replaced by the text of its
value.  Tokens without a value stay as they are.  Function descriptors are evaluated in
place, action descriptors are left alone, and everything else is interpolated part by
part.

Evaluating a function may interpolate values that were found elsewhere, so the recursion
is not bounded by the size of the template.  The definitions are therefore given the
interpolation to use for parts, and `Engine.interpolate` ties the knot to a bound on
nesting.  An evaluation that reaches the bound is `exhausted`, which is not a failure.
-/

namespace Dialogue
namespace Engine

variable {σ : Type}

/-- Interpolates each field, in key order. -/
def fieldsWith (self : Interpolation σ) (fields : Fields) : Eval σ Fields :=
  fields.mapM fun (key, value) => do
    let value ← self value
    return (key, value)

/-- Interpolates the fields that are not deferred, in key order. -/
def eagerWith (self : Interpolation σ) (deferred : List String) (fields : Fields) :
    Eval σ Fields :=
  fields.mapM fun (key, value) =>
    if deferred.contains key then return (key, value)
    else do
      let value ← self value
      return (key, value)

/-- The result of a scenario function: the fields of an action descriptor are
interpolated here, where its arguments are in scope. -/
def resultWith (self : Interpolation σ) (result : Value) : Eval σ Value :=
  match result with
  | .object fields =>
    if result.isAction then do
      let fields ← fieldsWith self fields
      return .object fields
    else self result
  | _ => self result

/-- Calls a scenario function.  The arguments are its parameters, overlaid with those
given, and are visible both as parameters and as variables.  A result that describes an
action is queued as an effect. -/
def callWith (self : Interpolation σ) (function : ScenarioFunction) (given : Fields) :
    Eval σ Value := do
  let arguments ← fieldsWith self (function.params.overlay given)
  let result ← Eval.withParams arguments
    (Eval.withLocals arguments (resultWith self function.result))
  if result.isAction then Eval.queueEffect result
  return result

/-- Evaluates the fields of a function descriptor. -/
def evaluateFieldsWith (e : Engine σ) (self : Interpolation σ) (fields : Fields) :
    Eval σ Value :=
  match Value.nameUnder Value.functionKey fields with
  | none => Eval.fail .descriptorUnnamed
  | some name =>
    let params := fields.drop Value.functionKey
    match e.functions.get? name with
    | some executor => do
      let params ← eagerWith self executor.deferred params
      executor.execute self params
    | none =>
      match e.scenario.functions.get? name with
      | some function => callWith self function params
      | none => Eval.fail (.unknownFunction name)

/-- Evaluates a function descriptor.  Effects stay queued. -/
def evaluateWith (e : Engine σ) (self : Interpolation σ) (descriptor : Value) : Eval σ Value :=
  match descriptor with
  | .object fields => e.evaluateFieldsWith self fields
  | _ => Eval.fail .descriptorNotObject

/-- Whether a failure means that a name is unknown. -/
def isUnknown (failure : Failure) : Bool := failure.kind == .resolution

/-- The value of a token, if it has one. -/
def tokenWith (e : Engine σ) (self : Interpolation σ) (inner : List Char) :
    Eval σ (Option Value) :=
  let expression := Template.expression inner
  match Template.call? expression with
  | some (name, args) =>
    match e.keywords? name with
    | none => return none
    | some keywords => do
      let fields ← Eval.ask fun ctx => e.descriptor ctx name keywords args
      (do
        let value ← e.evaluateFieldsWith self fields
        return some value).recover isUnknown fun _ => return none
  | none => Eval.ask fun ctx => e.lookup ctx expression

/-- The text that replaces a segment. -/
def segmentWith (e : Engine σ) (self : Interpolation σ) (segment : Template.Segment) :
    Eval σ (List Char) :=
  match segment with
  | .char c => return [c]
  | .token inner => do
    match ← e.tokenWith self inner with
    | some value => return value.toText.toList
    | none => return segment.source

/-- Interpolates a text. -/
def textWith (e : Engine σ) (self : Interpolation σ) (text : String) : Eval σ Value :=
  match Template.segments text.toList with
  | [.token inner] => do
    let value ← e.tokenWith self inner
    return value.getD (.string text)
  | segments => do
    let pieces ← segments.mapM (e.segmentWith self)
    return .string (String.ofList pieces.flatten)

/-- Interpolates a value, given how to interpolate what is inside it. -/
def interpolateWith (e : Engine σ) (self : Interpolation σ) (value : Value) : Eval σ Value :=
  match value with
  | .string text => e.textWith self text
  | .array items => do
    let items ← items.mapM self
    return .array items
  | .object fields =>
    if value.isAction then return value
    else if value.isFunction then
      (e.evaluateFieldsWith self fields).recover isUnknown fun _ => return value
    else do
      let fields ← fieldsWith self fields
      return .object fields
  | _ => return value

/-- Interpolates a value; `bound` limits the nesting. -/
def interpolate (e : Engine σ) : Nat → Interpolation σ
  | 0, _ => Eval.exhausted
  | bound + 1, value => e.interpolateWith (e.interpolate bound) value

/-- Evaluates a function descriptor; `bound` limits the nesting. -/
def evaluate (e : Engine σ) (bound : Nat) (descriptor : Value) : Eval σ Value :=
  e.evaluateWith (e.interpolate bound) descriptor

end Engine
end Dialogue
