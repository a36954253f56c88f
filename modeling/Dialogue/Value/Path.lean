import Dialogue.Decimal.Count
import Dialogue.Json.Value
import Dialogue.Text.Blank

/-!
# Paths

A path such as `profile.address.0` names a place below a map of values.  Reading
descends through objects by name and through arrays by position.  Writing and
removing go through objects only: writing creates the objects that are missing on the
way and refuses to replace anything else that stands there.
-/

namespace Dialogue

/-- The segments of a path, outermost first. -/
abbrev Path := List String

namespace Path

/-- Cuts a dotted text into trimmed segments; empty segments are ignored. -/
def parse (s : String) : Path :=
  ((Text.pieces '.' s).map Text.trim).filter fun segment => !segment.isEmpty

/-- The dotted text of a path. -/
def dotted (path : Path) : String :=
  String.intercalate "." path

/-- Why a value cannot be written. -/
inductive Obstacle where
  | emptyPath
  | notAnObject (segment : String)
deriving DecidableEq, Repr

/-- The wording of an obstacle. -/
def Obstacle.message : Obstacle → String
  | .emptyPath => "empty path"
  | .notAnObject segment => "\"" ++ segment ++ "\" is not an object"

end Path

namespace Value

/-- The child of a value under one segment. -/
def child? (v : Value) (segment : String) : Option Value :=
  match v with
  | .object fields => Keyed.get? fields segment
  | .array items => (Decimal.count? Decimal.wordLimit segment).bind fun i => items[i]?
  | _ => none

/-- The value at a path below `v`; the empty path is `v` itself. -/
def at? (v : Value) : Path → Option Value
  | [] => some v
  | segment :: rest => (v.child? segment).bind fun w => w.at? rest

end Value

namespace Fields

/-- The value at a path; there is none at the empty path. -/
def at? (fields : Fields) : Path → Option Value
  | [] => none
  | segment :: rest => (fields.get? segment).bind fun v => v.at? rest

/-- Writes a value at a path. -/
def write (fields : Fields) (path : Path) (value : Value) : Except Path.Obstacle Fields :=
  match path with
  | [] => .error .emptyPath
  | [segment] => .ok (fields.put segment value)
  | segment :: next :: rest =>
    let below (inner : Fields) : Except Path.Obstacle Fields :=
      (write inner (next :: rest) value).map fun inner => fields.put segment (.object inner)
    match fields.get? segment with
    | none => below []
    | some .null => below []
    | some (.object inner) => below inner
    | some _ => .error (.notAnObject segment)

/-- Removes the value at a path.  The answer is the removed value, if there was one,
and the remaining fields. -/
def remove (fields : Fields) : Path → Option Value × Fields
  | [] => (none, fields)
  | [segment] => (fields.get? segment, fields.drop segment)
  | segment :: next :: rest =>
    match fields.get? segment with
    | some (.object inner) =>
      let (removed, inner) := remove inner (next :: rest)
      (removed, fields.put segment (.object inner))
    | _ => (none, fields)

end Fields
end Dialogue
