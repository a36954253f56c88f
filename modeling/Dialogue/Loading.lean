import Dialogue.Failure
import Dialogue.Files.Access
import Dialogue.Scenario
import Dialogue.Settings

/-!
# Loading scenarios and settings

A scenario is loaded from one file or from a directory with an entry file.  The modules
that the entry lists are merged into it in order.  The entry of a directory that lists
none takes every other JSON file below the directory, in the order of their relative
locations.
-/

namespace Dialogue
namespace Loading

/-- The extension of scenario files. -/
def fileExtension : String := "json"

/-- The names of entry files, the preferred one first. -/
def entryNames : List String := ["main.json", "scenario.json"]

/-- The location of a listed module. -/
def moduleLocation (base listed : String) : String :=
  Location.withExtension fileExtension (Location.join base listed)

/-- The text by which unlisted modules are ordered: a backslash counts as a slash. -/
def orderKey (location : String) : String :=
  String.ofList (location.toList.map fun c => if c = '\\' then '/' else c)

/-- Whether one unlisted module comes before another.  Of modules with one key, the one
whose segments come first does. -/
def precedes (a b : String) : Bool :=
  orderKey a < orderKey b ||
    (orderKey a == orderKey b &&
      !List.lex (Location.segments b) (Location.segments a) fun x y => x < y)

/-- Of the files below a directory, the modules of an entry that lists none, in order. -/
def unlisted (entry : String) (files : List String) : List String :=
  (files.filter fun file =>
    file != entry && (Location.name? file).bind Location.extensionOf? == some fileExtension)
    |>.mergeSort precedes

/-- The scenario of a JSON text. -/
def parse (source : String) : Except Failure Scenario :=
  match Scenario.read? source with
  | some scenario => .ok scenario
  | none => .error (.malformedScenario "not a scenario")

section

variable {m : Type → Type} [Monad m] (files : FileAccess m)

/-- Reads a file. -/
def read {α : Type} (decode : String → Option α) (location : String) : ExceptT Failure m α := do
  match ← files.text location with
  | .error problem => throw (.unreadableFile location problem.message)
  | .ok text =>
    match decode text with
    | some a => return a
    | none => throw (.malformedFile location "unexpected content")

/-- Merges the module at a location. -/
def mergeAt (scenario : Scenario) (location : String) : ExceptT Failure m Scenario := do
  let fragment ← read files Fragment.read? location
  return scenario.merge fragment

/-- Merges a listed module, which has to be there. -/
def mergeListed (base : String) (scenario : Scenario) (listed : String) :
    ExceptT Failure m Scenario := do
  let location := moduleLocation base listed
  match ← files.kind? location with
  | some .file => mergeAt files scenario location
  | _ => throw (.missingModule listed location)

/-- Merges the modules that a scenario lists, in order. -/
def mergeModules (base : String) (scenario : Scenario) : ExceptT Failure m Scenario :=
  scenario.modules.foldlM (mergeListed files base) scenario

/-- Loads a scenario from its entry file. -/
def loadFile (location : String) : ExceptT Failure m Scenario := do
  let scenario ← read files Scenario.read? location
  mergeModules files (Location.parent location) scenario

/-- The first of some names that names a file of a directory. -/
def firstPresent? (root : String) : List String → m (Option String)
  | [] => return none
  | name :: rest => do
    match ← files.kind? (Location.join root name) with
    | some .file => return some name
    | _ => firstPresent? root rest

/-- Loads a scenario from a directory. -/
def loadDirectory (root : String) : ExceptT Failure m Scenario := do
  match ← ExceptT.lift (firstPresent? files root entryNames) with
  | none => throw (.missingEntry (String.intercalate " or " entryNames) root)
  | some entry => do
    let scenario ← read files Scenario.read? (Location.join root entry)
    if scenario.modules.isEmpty then
      let found ← files.below root
      ((unlisted entry found).map (Location.join root)).foldlM (mergeAt files) scenario
    else mergeModules files root scenario

/-- Loads a scenario. -/
def load (location : String) : ExceptT Failure m Scenario := do
  match ← files.kind? location with
  | none => throw (.missingScenario location)
  | some .directory => loadDirectory files location
  | some .file => loadFile files location

/-- Loads settings from a file that holds a JSON object. -/
def loadSettings (location : String) : ExceptT Failure m Settings := do
  match ← files.text location with
  | .error problem => throw (.unreadableSettings location problem.message)
  | .ok text =>
    match Value.read? text with
    | none => throw (.malformedSettings location "not JSON")
    | some value =>
      if value.fields?.isNone then throw (.malformedSettings location "expected a JSON object")
      else
        match Settings.decoder.ofValue? value with
        | some settings => return settings
        | none => throw (.malformedSettings location "unexpected value")

end

end Loading
end Dialogue
