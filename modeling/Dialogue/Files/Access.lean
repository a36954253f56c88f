import Dialogue.Files.Location

/-!
# Access to files

What the loading of scenarios and settings asks of a store of files.  The store may be a
real one or a `FileTree` in memory; loading is the same for both.
-/

namespace Dialogue

/-- What a location can name. -/
inductive FileKind where
  | file
  | directory
deriving DecidableEq, Repr

/-- Why a file cannot be read. -/
inductive ReadProblem where
  | missing
  | notDirectory
  | isDirectory
  | nameTooLong
  | notText
deriving DecidableEq, Repr

namespace ReadProblem

/-- The wording of a problem. -/
def message : ReadProblem → String
  | missing => "No such file or directory (os error 2)"
  | notDirectory => "Not a directory (os error 20)"
  | isDirectory => "Is a directory (os error 21)"
  | nameTooLong => "File name too long (os error 36)"
  | notText => "stream did not contain valid UTF-8"

end ReadProblem

/-- A store of files: what a location names, the text of a file, and the locations of all
files below a directory, relative to it. -/
structure FileAccess (m : Type → Type) where
  kind? : String → m (Option FileKind)
  text : String → m (Except ReadProblem String)
  below : String → m (List String)

end Dialogue
