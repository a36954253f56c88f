import Dialogue.Json.Value

/-!
# Documents

A document is a JSON text whose shape has been recognised but whose meaning is still
open.  Its objects keep every member as written, and a number or a text that has no
value (a number beyond the floats, half of a surrogate pair) is kept as a flaw.  A
record reader that ignores a member therefore does not care what the member holds,
while `Document.value?` refuses a document with a flaw anywhere.
-/

namespace Dialogue

/-- A recognised JSON text.  `none` marks a number or a text without a value. -/
inductive Document where
  | null
  | bool (b : Bool)
  | number (n : Option Number)
  | string (s : Option String)
  | array (items : List Document)
  | object (members : List (Option String × Document))

instance : Inhabited Document := ⟨.null⟩

namespace Document

/-- Documents that are read from a text nest at most this deep. -/
def depthLimit : Nat := 127

mutual

/-- How deep a document nests: one level deeper than its parts. -/
def height : Document → Nat
  | .array items => itemsHeight items + 1
  | .object members => membersHeight members + 1
  | _ => 0

/-- How deep a list of documents nests. -/
def itemsHeight : List Document → Nat
  | [] => 0
  | d :: rest => max (height d) (itemsHeight rest)

/-- How deep the members of an object nest. -/
def membersHeight : List (Option String × Document) → Nat
  | [] => 0
  | (_, d) :: rest => max (height d) (membersHeight rest)

end

mutual

/-- The value of a document that nests at most `depth` deep.  Of members with one name
the last counts. -/
def value? (depth : Nat) : Document → Option Value
  | .null => some .null
  | .bool b => some (.bool b)
  | .number n => n.map .number
  | .string s => s.map .string
  | .array items =>
    if depth = 0 then none else (itemValues? (depth - 1) items).map .array
  | .object members =>
    if depth = 0 then none
    else (memberValues? (depth - 1) members).map fun fields => .object (Keyed.ofEntries fields)

/-- The values of a list of documents. -/
def itemValues? (depth : Nat) : List Document → Option (List Value)
  | [] => some []
  | d :: rest => do
    let v ← value? depth d
    let vs ← itemValues? depth rest
    some (v :: vs)

/-- The values of the members of an object. -/
def memberValues? (depth : Nat) : List (Option String × Document) → Option (List (String × Value))
  | [] => some []
  | (name, d) :: rest => do
    let name ← name
    let v ← value? depth d
    let vs ← memberValues? depth rest
    some ((name, v) :: vs)

end

mutual

/-- A value as a document without flaws. -/
def ofValue : Value → Document
  | .null => .null
  | .bool b => .bool b
  | .number n => .number (some n)
  | .string s => .string (some s)
  | .array items => .array (ofItems items)
  | .object fields => .object (ofFields fields)

/-- A list of values as documents. -/
def ofItems : List Value → List Document
  | [] => []
  | v :: rest => ofValue v :: ofItems rest

/-- Fields as members. -/
def ofFields : List (String × Value) → List (Option String × Document)
  | [] => []
  | (k, v) :: rest => (some k, ofValue v) :: ofFields rest

end

end Document
end Dialogue
