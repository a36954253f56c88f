import Dialogue.Json.Reader

/-!
# Reading records

A record with fixed fields is written as an object, or as an array of its fields in
order.  Members with other names are ignored, whatever they hold; a field that is
written twice makes the record unreadable.  A decoder is given the depth that is still
allowed below it.
-/

namespace Dialogue

/-- Reads a document that nests at most so deep. -/
abbrev Decoder (α : Type) := Nat → Document → Option α

/-- The fields of a record that are present.  `positional` records were written as an
array. -/
structure Record where
  fields : List (String × Document)
  positional : Bool
  depth : Nat

namespace Record

/-- The present fields among members, if every name is readable and no field is
written twice. -/
def ofMembers? (names : List String) (members : List (Option String × Document)) :
    Option (List (String × Document)) := do
  let named ← members.mapM fun member => member.1.map fun name => (name, member.2)
  let known := named.filter fun field => names.contains field.1
  if (known.map Prod.fst).Nodup then some known else none

/-- Opens a document as a record with the given field names. -/
def open? (names : List String) (depth : Nat) : Document → Option Record
  | .object members =>
    if depth = 0 then none
    else (ofMembers? names members).map fun fields =>
      { fields, positional := false, depth := depth - 1 }
  | .array items =>
    if depth = 0 ∨ items.length > names.length then none
    else some { fields := names.zip items, positional := true, depth := depth - 1 }
  | _ => none

/-- A field that has to be present. -/
def required (r : Record) (name : String) (decode : Decoder α) : Option α :=
  (r.fields.lookup name).bind (decode r.depth)

/-- A field with a default. -/
def getD (r : Record) (name : String) (default : α) (decode : Decoder α) : Option α :=
  match r.fields.lookup name with
  | some d => decode r.depth d
  | none => some default

end Record

namespace Decoder

/-- Any value. -/
def value : Decoder Value := Document.value?

/-- A text. -/
def text : Decoder String
  | _, .string s => s
  | _, _ => none

/-- Null for nothing. -/
def nullable (decode : Decoder α) : Decoder (Option α)
  | _, .null => some none
  | depth, d => (decode depth d).map some

/-- A natural number of at most 64 bits. -/
def count : Decoder Nat
  | _, .number (some (.int n)) => if 0 ≤ n then some n.toNat else none
  | _, _ => none

/-- A list. -/
def list (decode : Decoder α) : Decoder (List α)
  | depth, .array items => if depth = 0 then none else items.mapM (decode (depth - 1))
  | _, _ => none

/-- A map from names; of equal names the last counts, but all of them are read. -/
def keyed (decode : Decoder α) : Decoder (Keyed α)
  | depth, .object members =>
    if depth = 0 then none
    else (members.mapM fun (member : Option String × Document) => do
      let name ← member.1
      let a ← decode (depth - 1) member.2
      some (name, a)).map Keyed.ofEntries
  | _, _ => none

/-- Fields with any values. -/
def fields : Decoder Fields := keyed value

/-- Reads a value that is already at hand, however deep it nests. -/
def ofValue? (decode : Decoder α) (v : Value) : Option α :=
  let d := Document.ofValue v
  decode d.height d

/-- Reads a JSON text. -/
def ofText? (decode : Decoder α) (text : String) : Option α :=
  (Document.read? text).bind (decode Document.depthLimit)

end Decoder
end Dialogue
