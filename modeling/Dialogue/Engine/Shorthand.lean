import Dialogue.Engine.Template
import Dialogue.Engine.Variables
import Dialogue.Json.Reader

/-!
# Short notation

A token may call a function: `Name:key:argument:values:a:b`.  After the name, keys and
arguments alternate; the key `values` takes every following argument up to the next
keyword.  An argument that looks like a variable and has a value stands for that value;
any other is read as JSON, and as plain text if it is not JSON.

The short notation is read into segments first, so that reading it is independent of
what the arguments mean.
-/

namespace Dialogue
namespace Shorthand

/-- A part of a call: one argument under a key, or a run of arguments.  A key at the end
has no argument. -/
inductive Part where
  | pair (key : String) (argument : Option String)
  | run (arguments : List String)
deriving DecidableEq, Repr

/-- The key that takes a run of arguments. -/
def valuesKey : String := "values"

/-- Whether a word ends a run. -/
def isKeyword (keywords : List String) (word : String) : Bool :=
  word == valuesKey || keywords.contains word

/-- The words of a call, between colons. -/
def words (args : String) : List String :=
  (Text.pieces ':' args).map Text.trim

/-- The parts of a call. -/
def parts (keywords : List String) (words : List String) : List Part :=
  match words with
  | [] => []
  | key :: rest =>
    if key = valuesKey then
      .run (rest.takeWhile fun word => !isKeyword keywords word) ::
        parts keywords (rest.dropWhile fun word => !isKeyword keywords word)
    else
      match rest with
      | [] => [.pair key none]
      | argument :: rest => .pair key (some argument) :: parts keywords rest
termination_by words.length
decreasing_by
  · have := (List.dropWhile_suffix (fun word => !isKeyword keywords word) (l := rest)).length_le
    simp only [List.length_cons]
    omega
  · simp only [List.length_cons]
    omega

/-- Writes a part into the parameters of a call. -/
def Part.assign (argument : String → Value) (params : Fields) : Part → Fields
  | .pair key none => params.put key .null
  | .pair key (some word) => params.put key (argument word)
  | .run arguments => params.put valuesKey (.array (arguments.map argument))

/-- The parameters that the parts of a call give. -/
def params (argument : String → Value) (parts : List Part) : Fields :=
  parts.foldl (Part.assign argument) []

/-- The words of a part, as they are written. -/
def Part.words : Part → List String
  | .pair key none => [key]
  | .pair key (some argument) => [key, argument]
  | .run arguments => valuesKey :: arguments

/-- The written form of the arguments of a call. -/
def write (parts : List Part) : String :=
  String.intercalate ":" (parts.flatMap Part.words)

end Shorthand

namespace Engine

variable {σ : Type}

/-- The value that an argument stands for. -/
def argument (e : Engine σ) (ctx : Context σ) (raw : String) : Value :=
  let bound? := if Template.isIdentifier raw.toList then e.lookup ctx raw else none
  match bound? with
  | some value => value
  | none => (Value.read? raw).getD (.string raw)

/-- The keywords of a function; nothing if there is no such function. -/
def keywords? (e : Engine σ) (name : String) : Option (List String) :=
  match e.functions.get? name with
  | some executor => some executor.keywords
  | none => (e.scenario.functions.get? name).map fun function => function.params.keys

/-- The descriptor that a call in short notation denotes. -/
def descriptor (e : Engine σ) (ctx : Context σ) (name : String) (keywords : List String)
    (args : String) : Fields :=
  (Shorthand.params (e.argument ctx) (Shorthand.parts keywords (Shorthand.words args))).put
    Value.functionKey (.string name)

end Engine
end Dialogue
