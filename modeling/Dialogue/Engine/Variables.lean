import Dialogue.Engine.Basic

/-!
# Variables

A dotted path names a value in one of four places: local variables, parameters, data and
the environment.  The first segment may pin the place; otherwise the places are searched
in that order.  Data is the session's data, behind which stands the scenario's.
-/

namespace Dialogue

/-- Where variables live. -/
inductive Place where
  | locals
  | params
  | data
  | env
deriving DecidableEq, Repr

namespace Place

/-- The places in search order. -/
def all : List Place := [.locals, .params, .data, .env]

/-- The place that a first segment pins. -/
def ofSegment? : String → Option Place
  | "local" => some .locals
  | "params" => some .params
  | "data" => some .data
  | "env" => some .env
  | _ => none

end Place

namespace Engine

variable {σ : Type}

/-- The value at a path in one place. -/
def lookupIn (e : Engine σ) (ctx : Context σ) (place : Place) (path : Path) : Option Value :=
  match place with
  | .locals => ctx.scope.find? path
  | .params => Fields.at? ctx.params path
  | .data => (Fields.at? ctx.session.data path).or (Fields.at? e.scenario.data path)
  | .env => Fields.at? ctx.env path

/-- Everything in one place.  Local variables have no common object. -/
def placeRoot (e : Engine σ) (ctx : Context σ) : Place → Option Value
  | .locals => none
  | .params => some (.object ctx.params)
  | .data => some (.object (e.scenario.data.overlay ctx.session.data))
  | .env => some (.object ctx.env)

/-- The value of a variable. -/
def lookupPath (e : Engine σ) (ctx : Context σ) (path : Path) : Option Value :=
  match path with
  | [] => none
  | root :: rest =>
    match Place.ofSegment? root with
    | some place => if rest.isEmpty then e.placeRoot ctx place else e.lookupIn ctx place rest
    | none => Place.all.findSome? fun place => e.lookupIn ctx place (root :: rest)

/-- The value of the variable that a dotted text names. -/
def lookup (e : Engine σ) (ctx : Context σ) (path : String) : Option Value :=
  e.lookupPath ctx (Path.parse path)

end Engine
end Dialogue
