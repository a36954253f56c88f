import Dialogue.Clock.Nanos
import Dialogue.Value.Coercion
import Dialogue.Value.Path

/-!
# Failures

Every way in which loading, evaluating or running a scenario can fail.  A failure is a
cause; its kind decides how far it travels, its code is what other programs test for,
and its message is what a person reads.  Hosts add causes of their own through
`Failure.foreign`.
-/

namespace Dialogue

/-- How far a failure travels.  An unknown name degrades to literal text, an evaluation
failure stops the siblings that follow, a transport failure is absorbed by the action
that met it, and a timeout belongs to an endpoint call. -/
inductive FailureKind where
  | resolution
  | evaluation
  | transport
  | timeout
deriving DecidableEq, Repr

/-- The written name of a kind. -/
def FailureKind.name : FailureKind → String
  | .resolution => "resolution"
  | .evaluation => "evaluation"
  | .transport => "transport"
  | .timeout => "timeout"

/-- What can be registered under a name. -/
inductive RegistryLabel where
  | function
  | action
deriving DecidableEq, Repr

/-- The word for a registered thing in messages. -/
def RegistryLabel.word : RegistryLabel → String
  | .function => "Function"
  | .action => "Action"

/-- Why something failed. -/
inductive Failure where
  | unknownFunction (name : String)
  | descriptorNotObject
  | descriptorUnnamed
  | missingParameter (function parameter : String)
  | noOperands (function : String)
  | notANumber (function : String) (operand : Value)
  | notFinite (function : String)
  | divisionByZero
  | unknownOperator (raw : String)
  | notAnArray (function : String) (value : Value)
  | unreadableDate (function : String) (raw : Value)
  | dateOutOfRange
  | unknownUnit (raw : String)
  | unusableFormat (format : String)
  | fractionOfMonth
  | missingField (action field : String)
  | invalidField (action field expected : String)
  | unknownInputType (raw : String)
  | notHttp (url : String)
  | unsavedResponse (path : String) (obstacle : Path.Obstacle)
  | unsavedEntry (path : String) (obstacle : Path.Obstacle)
  | unsavedInput (key : String) (obstacle : Path.Obstacle)
  | endpointStatus (method url : String) (status : Nat)
  | endpointTimeout (method url : String) (deadline : Nanos)
  | endpointMethod (method : String)
  | endpointRequest (reason : String)
  | sendRejected
  | messageGone (text : String)
  | duplicate (label : RegistryLabel) (name : String)
  | malformedGraph (place : String)
  | missingScenario (path : String)
  | missingEntry (names : String) (root : String)
  | missingModule (module path : String)
  | unreadableFile (path reason : String)
  | malformedFile (path reason : String)
  | malformedScenario (reason : String)
  | unreadableSettings (path reason : String)
  | malformedSettings (path reason : String)
  | foreign (kind : FailureKind) (code message : String)

namespace Failure

/-- A text between double quotes. -/
def inQuotes (s : String) : String := "\"" ++ s ++ "\""

/-- The code of a message that no longer exists. -/
def goneCode : String := "TRANSPORT_MESSAGE_GONE"

/-- The kind of a failure. -/
def kind : Failure → FailureKind
  | unknownFunction _ => .resolution
  | sendRejected => .transport
  | messageGone _ => .transport
  | endpointTimeout _ _ _ => .timeout
  | foreign kind _ _ => kind
  | _ => .evaluation

/-- The code of a failure. -/
def code : Failure → String
  | unknownFunction _ => "FUNCTION_NOT_FOUND"
  | descriptorNotObject => "FUNCTION_INVALID_DESCRIPTOR"
  | descriptorUnnamed => "FUNCTION_INVALID_DESCRIPTOR"
  | missingParameter _ _ => "FUNCTION_MISSING_PARAM"
  | noOperands _ => "FUNCTION_MISSING_PARAM"
  | notANumber _ _ => "FUNCTION_NOT_A_NUMBER"
  | notFinite _ => "FUNCTION_NOT_A_NUMBER"
  | divisionByZero => "FUNCTION_DIVISION_BY_ZERO"
  | unknownOperator _ => "FUNCTION_INVALID_ARGUMENT"
  | notAnArray _ _ => "FUNCTION_NOT_AN_ARRAY"
  | unreadableDate _ _ => "FUNCTION_INVALID_DATE"
  | dateOutOfRange => "FUNCTION_INVALID_DATE"
  | unknownUnit _ => "FUNCTION_INVALID_ARGUMENT"
  | unusableFormat _ => "FUNCTION_INVALID_ARGUMENT"
  | fractionOfMonth => "FUNCTION_INVALID_ARGUMENT"
  | missingField _ _ => "ACTION_MISSING_FIELD"
  | invalidField _ _ _ => "ACTION_INVALID_FIELD"
  | unknownInputType _ => "ACTION_INVALID_FIELD"
  | notHttp _ => "ACTION_INVALID_FIELD"
  | unsavedResponse _ _ => "ACTION_INVALID_FIELD"
  | unsavedEntry _ _ => "ACTION_INVALID_FIELD"
  | unsavedInput _ _ => "INPUT_STORE_FAILED"
  | endpointStatus _ _ _ => "ENDPOINT_STATUS"
  | endpointTimeout _ _ _ => "ENDPOINT_TIMEOUT"
  | endpointMethod _ => "ENDPOINT_METHOD"
  | endpointRequest _ => "ENDPOINT_REQUEST"
  | sendRejected => "TRANSPORT_SEND"
  | messageGone _ => goneCode
  | duplicate _ _ => "REGISTRY_DUPLICATE"
  | malformedGraph _ => "ENGINE_INVALID_GRAPH"
  | missingScenario _ => "LOADER_NOT_FOUND"
  | missingEntry _ _ => "LOADER_NOT_FOUND"
  | missingModule _ _ => "LOADER_NOT_FOUND"
  | unreadableFile _ _ => "LOADER_READ"
  | malformedFile _ _ => "LOADER_PARSE"
  | malformedScenario _ => "LOADER_PARSE"
  | unreadableSettings _ _ => "API_CONFIG_READ"
  | malformedSettings _ _ => "API_CONFIG_INVALID"
  | foreign _ code _ => code

/-- What a person reads. -/
def message : Failure → String
  | unknownFunction name => "Function " ++ inQuotes name ++ " is not registered or declared."
  | descriptorNotObject => "function descriptor must be an object"
  | descriptorUnnamed => "function descriptor needs a string \"function\" field"
  | missingParameter function parameter =>
    function ++ " requires parameter " ++ inQuotes parameter ++ "."
  | noOperands function => function ++ " requires at least one operand."
  | notANumber function operand =>
    function ++ " expects numeric operands, got " ++ operand.typeName ++ " " ++
      inQuotes operand.toText ++ "."
  | notFinite function => function ++ " produced a non-finite result."
  | divisionByZero => "division by zero"
  | unknownOperator raw => "Compare does not know operator " ++ inQuotes raw ++ "."
  | notAnArray function value =>
    function ++ " expects an array, got " ++ value.typeName ++ "."
  | unreadableDate function raw =>
    function ++ " cannot read " ++ inQuotes raw.toText ++ " as a date."
  | dateOutOfRange => "AddToDate result is out of range."
  | unknownUnit raw => "unknown date unit " ++ inQuotes raw ++ "."
  | unusableFormat format => "FormatDate cannot use format " ++ inQuotes format ++ "."
  | fractionOfMonth => "AddToDate needs a whole number of months or years."
  | missingField action field => action ++ " requires field " ++ inQuotes field ++ "."
  | invalidField action field expected =>
    action ++ " field " ++ inQuotes field ++ " must be " ++ expected ++ "."
  | unknownInputType raw => "RequestInput does not know inputType " ++ inQuotes raw ++ "."
  | notHttp url => "CallExternalEndpoint url " ++ inQuotes url ++ " is not http(s)."
  | unsavedResponse path obstacle =>
    "CallExternalEndpoint cannot save to " ++ inQuotes path ++ ": " ++ obstacle.message
  | unsavedEntry path obstacle =>
    "ReadStorage cannot save to " ++ inQuotes path ++ ": " ++ obstacle.message
  | unsavedInput key obstacle =>
    "Cannot store input under " ++ inQuotes key ++ ": " ++ obstacle.message
  | endpointStatus method url status =>
    method ++ " " ++ url ++ " answered with status " ++ Decimal.ofInt status ++ "."
  | endpointTimeout method url deadline =>
    method ++ " " ++ url ++ " exceeded " ++ Nanos.text deadline ++ "."
  | endpointMethod method => "Unsupported HTTP method " ++ inQuotes method ++ "."
  | endpointRequest reason => reason
  | sendRejected => "Send rejected by memory transport."
  | messageGone text => text
  | duplicate label name =>
    label.word ++ " " ++ inQuotes name ++ " is already registered; pass overwrite to replace it."
  | malformedGraph place =>
    inQuotes place ++ " must be an action descriptor or a list of them."
  | missingScenario path => "scenario path does not exist: " ++ path
  | missingEntry names root => "no " ++ names ++ " under " ++ root
  | missingModule module path => "listed module " ++ inQuotes module ++ " not found at " ++ path
  | unreadableFile path reason => "cannot read " ++ path ++ ": " ++ reason
  | malformedFile path reason => "invalid JSON in " ++ path ++ ": " ++ reason
  | malformedScenario reason => "invalid scenario JSON: " ++ reason
  | unreadableSettings path reason => "cannot read config " ++ path ++ ": " ++ reason
  | malformedSettings path reason => "invalid config " ++ path ++ ": " ++ reason
  | foreign _ _ message => message

/-- Code and message on one line. -/
def line (f : Failure) : String := f.code ++ ": " ++ f.message

/-- Whether a transport reported that a message is gone. -/
def isGone (f : Failure) : Bool := f.code == goneCode

end Failure
end Dialogue
