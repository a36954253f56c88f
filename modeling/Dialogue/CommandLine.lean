import Dialogue.Console
import Dialogue.Loading
import Dialogue.Outbox

/-!
# The command line

`run` opens a conversation on the console, `check` loads a scenario, starts it once
against an outbox and reports on it.  Both take the location of a scenario, and may take
that of a settings file, which is read first.  What a command prints is computed here;
reading and printing are left to the program.
-/

namespace Dialogue
namespace CommandLine

/-- What help is asked about. -/
inductive Topic where
  | program
  | run
  | check
  | help
deriving DecidableEq, Repr

/-- What the program is asked to do. -/
inductive Command where
  | run (scenario session : String) (settings : Option String)
  | check (scenario : String) (settings : Option String)
  | help (topic : Topic)
deriving DecidableEq, Repr

/-- The options of a command. -/
inductive Options where
  | values (given : Keyed String)
  | help
deriving DecidableEq, Repr

/-- Whether an argument looks like an option and not like a value. -/
def looksLikeOption (argument : String) : Bool :=
  Text.startsWith "-" argument && argument != "-"

/-- The name of a long option, and the value behind its equals sign. -/
def longOption? (argument : String) : Option (String × Option String) :=
  match argument.toList with
  | '-' :: '-' :: rest =>
    let name := String.ofList (rest.takeWhile (· != '='))
    match rest.dropWhile (· != '=') with
    | [] => some (name, none)
    | _ :: value => some (name, some (String.ofList value))
  | _ => none

/-- Reads options, each with a value and none of them twice.  `none` is a usage error. -/
def options? (names : List String) (given : Keyed String) : List String → Option Options
  | [] => some (.values given)
  | argument :: rest =>
    match longOption? argument with
    | some ("", none) => if rest.isEmpty then some (.values given) else none
    | some ("help", none) => some .help
    | some (name, value) =>
      if !names.contains name || given.has name then none
      else
        match value, rest with
        | some value, rest => options? names (given.put name value) rest
        | none, value :: rest =>
          if looksLikeOption value then none else options? names (given.put name value) rest
        | none, [] => none
    | none => if Text.startsWith "-h" argument then some .help else none

/-- The command `run`. -/
def run? (arguments : List String) : Option Command := do
  match ← options? ["scenario", "session", "config"] [] arguments with
  | .help => some (.help .run)
  | .values given => do
    let scenario ← given.get? "scenario"
    some (.run scenario ((given.get? "session").getD "console") (given.get? "config"))

/-- The command `check`. -/
def check? (arguments : List String) : Option Command := do
  match ← options? ["scenario", "config"] [] arguments with
  | .help => some (.help .check)
  | .values given => do
    let scenario ← given.get? "scenario"
    some (.check scenario (given.get? "config"))

/-- The topic of a request for help. -/
def topic? : List String → Option Topic
  | [] => some .program
  | ["run"] => some .run
  | ["check"] => some .check
  | ["help"] => some .help
  | _ => none

/-- The command that arguments ask for.  `none` is a usage error. -/
def parse? : List String → Option Command
  | [] => none
  | "run" :: rest => run? rest
  | "check" :: rest => check? rest
  | "help" :: rest => (topic? rest).map .help
  | argument :: _ =>
    if argument = "--help" || Text.startsWith "-h" argument then some (.help .program) else none

/-- The help on a topic. -/
def helpLines : Topic → List String
  | .program =>
    ["Scenario engine console", "", "Usage: sf-cli <COMMAND>", "", "Commands:",
      "  run    Chat with a scenario over stdin/stdout",
      "  check  Load a scenario, build an engine and print a summary",
      "  help   Print this message or the help of the given subcommand(s)", "", "Options:",
      "  -h, --help  Print help"]
  | .run =>
    ["Chat with a scenario over stdin/stdout", "",
      "Usage: sf-cli run [OPTIONS] --scenario <SCENARIO>", "", "Options:",
      "      --scenario <SCENARIO>  ", "      --session <SESSION>    [default: console]",
      "      --config <CONFIG>      ", "  -h, --help                 Print help"]
  | .check =>
    ["Load a scenario, build an engine and print a summary", "",
      "Usage: sf-cli check [OPTIONS] --scenario <SCENARIO>", "", "Options:",
      "      --scenario <SCENARIO>  ", "      --config <CONFIG>      ",
      "  -h, --help                 Print help"]
  | .help =>
    ["Print this message or the help of the given subcommand(s)", "",
      "Usage: sf-cli help [COMMAND]...", "", "Arguments:",
      "  [COMMAND]...  Print help for the subcommand(s)"]

/-- The lines that report a failure. -/
def failureLines (failure : Failure) : List String :=
  ["RESULT:ERROR", "ERROR_CODE:" ++ failure.code,
    "ERROR_MSG_JSON:" ++ Json.quoted failure.message]

/-- The host of an outbox without a network. -/
def outboxHost : Host Outbox where
  send := Outbox.send
  edit := Outbox.edit
  delete := Outbox.delete
  call o request := (request.offline, o)

/-- The session that a check starts. -/
def checkSession : String := "check"

/-- The lines that report on a scenario, or the failure that starting it met. -/
def checked (scenario : Scenario) (settings : Settings) (wallClock : WallClock) (bound : Nat) :
    Except Failure (List String) := do
  let engine ← Engine.standard scenario settings outboxHost wallClock
  let (result, house) := engine.start bound (engine.newHouse {}) checkSession
  match result with
  | .error (.failed failure) => .error failure
  | _ =>
    .ok ["RESULT:OK", "SUMMARY_JSON:" ++ scenario.summary.compact,
      "START_OUTPUTS:" ++ Decimal.ofInt house.outside.records.length]

/-- What becomes of a command: it has printed its lines, or goes on as a conversation. -/
inductive Outcome where
  | done (exitCode : Nat) (lines : List String)
  | chat (chat : Chat)

section

variable {m : Type → Type} [Monad m] (files : FileAccess m)

/-- Reads the settings, if a file is named, and then the scenario. -/
def prepare (scenario : String) (settings : Option String) :
    ExceptT Failure m (Scenario × Settings) := do
  let settings ← match settings with
    | some location => Loading.loadSettings files location
    | none => pure {}
  let scenario ← Loading.load files scenario
  return (scenario, settings)

/-- Carries out a command that works on a scenario. -/
def execute (wallClock : WallClock) (bound : Nat) : Command → ExceptT Failure m Outcome
  | .help topic => return .done 0 (helpLines topic)
  | .check scenario settings => do
    let (scenario, settings) ← prepare files scenario settings
    let lines ← liftExcept (checked scenario settings wallClock bound)
    return .done 0 lines
  | .run scenario session settings => do
    let (scenario, settings) ← prepare files scenario settings
    let engine ← liftExcept (Engine.standard scenario settings Console.host wallClock)
    return .chat (Chat.begin engine bound session)
where
  /-- A result that is already known. -/
  liftExcept {α : Type} (result : Except Failure α) : ExceptT Failure m α :=
    ExceptT.mk (pure result)

/-- Carries out the command that arguments ask for.  Usage errors end with exit code 2,
failures with exit code 1. -/
def start (wallClock : WallClock) (bound : Nat) (arguments : List String) : m Outcome := do
  match parse? arguments with
  | none => return .done 2 []
  | some command =>
    match ← (execute files wallClock bound command).run with
    | .ok outcome => return outcome
    | .error failure => return .done 1 (failureLines failure)

/-- The exit code and the printed lines of a command, given everything that is typed. -/
def transcript (wallClock : WallClock) (bound : Nat) (arguments typed : List String) :
    m (Nat × List String) := do
  match ← start files wallClock bound arguments with
  | .done exitCode lines => return (exitCode, lines)
  | .chat chat => return (0, (chat.feedAll bound typed).take.1)

end

end CommandLine
end Dialogue
