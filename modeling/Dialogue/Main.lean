import Dialogue.CommandLine

/-!
# The program

Reads files and typed lines, and prints what the command line computes.
-/

namespace Dialogue
namespace Program

/-- A location as an entry of the working directory. -/
def onDisk (location : String) : IO.FS.DirEntry := { root := ".", fileName := location }

/-- What a location on disk names. -/
def kind? (location : String) : IO (Option FileKind) := do
  if location.isEmpty then return none
  try
    let data ← (onDisk location).path.metadata
    return some (match data.type with
      | .dir => .directory
      | _ => .file)
  catch _ => return none

/-- Why nothing was found on disk. -/
def problem : IO.Error → ReadProblem
  | .inappropriateType _ _ _ => .notDirectory
  | .invalidArgument _ _ _ => .nameTooLong
  | _ => .missing

/-- The text of a file on disk. -/
def text (location : String) : IO (Except ReadProblem String) := do
  if location.isEmpty then return .error .missing
  try
    let data ← (onDisk location).path.metadata
    match data.type with
    | .dir => return .error .isDirectory
    | _ =>
      let bytes ← IO.FS.readBinFile (onDisk location).path
      return match String.fromUTF8? bytes with
        | some text => .ok text
        | none => .error .notText
  catch e => return .error (problem e)

/-- The files below a directory on disk; links are not followed. -/
partial def below (location : String) : IO (List String) := do
  let entries ← (onDisk location).path.readDir
  let found ← entries.toList.mapM fun (entry : IO.FS.DirEntry) => do
    let data ← entry.path.symlinkMetadata
    match data.type with
    | .dir => do
      let inner ← below (Location.join location entry.fileName)
      return inner.map (Location.join entry.fileName)
    | .file => return [entry.fileName]
    | _ => return []
  return found.flatten

/-- Access to the files on disk. -/
def disk : FileAccess IO where
  kind? := kind?
  text := text
  below := below

/-- The time in milliseconds since 1970, which is when a file written now was changed. -/
def epochMillis : IO Int :=
  IO.FS.withTempFile fun _ path => do
    let data ← path.metadata
    return data.modified.sec * 1000 + data.modified.nsec.toNat / 1000000

/-- Prints lines. -/
def printLines (lines : List String) : IO Unit := do
  lines.forM IO.println
  (← IO.getStdout).flush

/-- Prints what is ready and goes on with the next typed line, until there is none. -/
partial def converse (started : Nat) (chat : Chat) : IO Unit := do
  let (lines, chat) := chat.take
  printLines lines
  if chat.finished then return
  let line ← (← IO.getStdin).getLine
  if line.isEmpty then return
  let now ← IO.monoNanosNow
  converse started ((chat.advance (now - started)).feed Engine.ampleNesting line)

end Program
end Dialogue

/-- Runs the program. -/
def main (arguments : List String) : IO UInt32 := do
  let started ← IO.monoNanosNow
  let epoch ← Dialogue.Program.epochMillis
  match ← Dialogue.CommandLine.start Dialogue.Program.disk (.ofStart epoch)
      Dialogue.Engine.ampleNesting arguments with
  | .done exitCode lines => do
    Dialogue.Program.printLines lines
    return exitCode.toUInt32
  | .chat chat => do
    Dialogue.Program.converse started chat
    return 0
