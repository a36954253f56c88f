import Dialogue.Failure

/-!
# Endpoints

A request to an external endpoint and what came of it.  An exchange takes time; whether
it was too long is for the caller to decide.
-/

namespace Dialogue

/-- A request to an external endpoint. -/
structure EndpointRequest where
  method : String
  url : String
  query : List (String × String)
  headers : List (String × String)
  body : Option Value

/-- The answer of an endpoint. -/
structure EndpointResponse where
  status : Nat
  headers : Keyed String
  body : Value

/-- What came of a request, and how long it took. -/
structure Exchange where
  delay : Nanos := 0
  outcome : Except Failure EndpointResponse

namespace EndpointResponse

/-- Statuses from 200 to 299 are successes. -/
def isSuccess (r : EndpointResponse) : Bool := 200 ≤ r.status && r.status < 300

/-- The response as a scenario sees it. -/
def toValue (r : EndpointResponse) : Value :=
  .record [("status", .ofNat r.status), ("headers", .object (r.headers.mapValues .string)),
    ("body", r.body)]

end EndpointResponse

namespace EndpointRequest

/-- The characters that a method name may hold. -/
def isMethodChar (c : Char) : Bool :=
  c.isAlphanum || "!*+-.^_\x60|~".toList.contains c

/-- Whether a method has a name that can be sent. -/
def hasValidMethod (r : EndpointRequest) : Bool :=
  !r.method.isEmpty && r.method.toList.all isMethodChar

/-- The exchange without a network: only the method name is checked. -/
def offline (r : EndpointRequest) : Exchange :=
  { outcome := .error (if r.hasValidMethod then .endpointRequest "no network"
      else .endpointMethod r.method) }

end EndpointRequest
end Dialogue
