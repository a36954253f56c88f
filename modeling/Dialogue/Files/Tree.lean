import Dialogue.Files.Access

/-!
# File trees

A store of files in memory.  Locations are followed segment by segment from the root of
the tree; two points lead up, and what lies above the root is a directory of which
nothing else is known.
-/

namespace Dialogue

/-- Files under their segments, with their texts if they are text, and directories. -/
structure FileTree where
  files : List (List String × Option String)
  directories : List (List String)

/-- Where a location leads. -/
inductive Spot where
  | above
  | within (segments : List String)
deriving DecidableEq, Repr

namespace FileTree

/-- The segments of a location that lead somewhere. -/
def route (location : String) : List String :=
  (Location.segments location).filter fun segment => !Location.isIdle segment

/-- Whether a location is written as that of a directory. -/
def namesDirectory (location : String) : Bool := location.toList.getLast? == some '/'

/-- A tree from entries; a location that ends in a slash is that of a directory. -/
def ofEntries (entries : List (String × Option String)) : FileTree where
  files := (entries.filter fun entry => !namesDirectory entry.1).map fun entry =>
    (route entry.1, entry.2)
  directories := (entries.filter fun entry => namesDirectory entry.1).map fun entry =>
    route entry.1

/-- The text of a file. -/
def file? (t : FileTree) (segments : List String) : Option (Option String) :=
  t.files.lookup segments

/-- Whether there is a directory: the root, one that is listed, or one on the way to
something else. -/
def hasDirectory (t : FileTree) (segments : List String) : Bool :=
  segments.isEmpty || t.directories.any segments.isPrefixOf ||
    t.files.any fun file => segments.isPrefixOf file.1 && segments != file.1

/-- What stands at a spot. -/
def kindAt? (t : FileTree) : Spot → Option FileKind
  | .above => some .directory
  | .within segments =>
    if (t.file? segments).isSome then some .file
    else if t.hasDirectory segments then some .directory
    else none

/-- Follows one segment. -/
def follow (t : FileTree) (spot : Spot) (segment : String) : Except ReadProblem Spot :=
  if t.kindAt? spot ≠ some .directory then .error .notDirectory
  else if segment.utf8ByteSize > Location.segmentLimit then .error .nameTooLong
  else if Location.isIdle segment then .ok spot
  else
    match spot with
    | .above => if segment = ".." then .ok .above else .error .missing
    | .within segments =>
      if segment = ".." then
        .ok (if segments.isEmpty then .above else .within segments.dropLast)
      else if (t.kindAt? (.within (segments ++ [segment]))).isSome then
        .ok (.within (segments ++ [segment]))
      else .error .missing

/-- Follows a location; the empty one leads nowhere. -/
def find (t : FileTree) (location : String) : Except ReadProblem Spot :=
  if location.isEmpty then .error .missing
  else if location.utf8ByteSize > Location.locationLimit then .error .nameTooLong
  else
    (Location.segments location).foldlM t.follow
      (if Location.isAbsolute location then .above else .within [])

/-- What a location names. -/
def kind? (t : FileTree) (location : String) : Option FileKind :=
  (t.find location).toOption.bind t.kindAt?

/-- The text of a file. -/
def text (t : FileTree) (location : String) : Except ReadProblem String := do
  match ← t.find location with
  | .above => .error .isDirectory
  | .within segments =>
    match t.file? segments with
    | some (some text) => .ok text
    | some none => .error .notText
    | none => .error .isDirectory

/-- The files below a directory, by their locations relative to it. -/
def below (t : FileTree) (location : String) : List String :=
  match t.find location with
  | .ok (.within segments) =>
    t.files.filterMap fun (file, _) =>
      if segments.isPrefixOf file && segments != file then
        some (Location.ofSegments (file.drop segments.length))
      else none
  | _ => []

/-- Access to the files of a tree. -/
def access (t : FileTree) : FileAccess Id where
  kind? location := t.kind? location
  text location := t.text location
  below location := t.below location

end FileTree
end Dialogue
