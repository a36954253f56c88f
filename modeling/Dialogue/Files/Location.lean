import Dialogue.Text.Blank

/-!
# Locations

A location is the text that names a file or a directory: segments between slashes.  A
location that starts with a slash is absolute.  Empty segments and single points add
nothing and are passed over where the last segment is asked for.
-/

namespace Dialogue
namespace Location

/-- The segments of a location, with the empty ones. -/
def segments (location : String) : List String := Text.pieces '/' location

/-- The location with given segments. -/
def ofSegments (segments : List String) : String := String.intercalate "/" segments

/-- The most bytes that the name of a file may have. -/
def segmentLimit : Nat := 255

/-- The most bytes that a location may have. -/
def locationLimit : Nat := 4095

/-- Whether a segment leads nowhere. -/
def isIdle (segment : String) : Bool := segment.isEmpty || segment == "."

/-- Whether a location does not depend on the place it is read from. -/
def isAbsolute (location : String) : Bool := Text.startsWith "/" location

/-- A location below another one; an absolute one stands for itself. -/
def join (base location : String) : String :=
  if isAbsolute location || base.isEmpty then location
  else if base.toList.getLast? = some '/' then base ++ location
  else base ++ "/" ++ location

/-- Segments without those at the end that lead nowhere; the first one is kept. -/
def withoutIdleEnd (segments : List String) : List String :=
  match segments with
  | [] => []
  | first :: rest => first :: (rest.reverse.dropWhile isIdle).reverse

/-- The location of the directory that holds a file. -/
def parent (location : String) : String :=
  let front := withoutIdleEnd ((withoutIdleEnd (segments location)).dropLast)
  if front = [""] then "/" else ofSegments front

/-- The last segment, if it is a name. -/
def name? (location : String) : Option String :=
  match (withoutIdleEnd (segments location)).getLast? with
  | some name => if isIdle name || name == ".." then none else some name
  | none => none

/-- What follows the last point of a name; a point at its front does not count. -/
def extensionOf? (name : String) : Option String :=
  let back := name.toList.reverse
  match back.dropWhile (· != '.') with
  | [] => none
  | _ :: front =>
    if front.isEmpty then none else some (String.ofList (back.takeWhile (· != '.')).reverse)

/-- A location whose name gets an extension if it has none. -/
def withExtension (extension location : String) : String :=
  match name? location with
  | none => location
  | some name =>
    match extensionOf? name with
    | some _ => location
    | none => ofSegments (withoutIdleEnd (segments location)) ++ "." ++ extension

end Location
end Dialogue
