import Dialogue.Actions.Fields

/-!
# Calling endpoints

`CallExternalEndpoint` makes one request under a deadline.  A success runs `onSuccess`
with the response at hand; anything else (a status outside the two hundreds, an error of
the client, a deadline that passed) runs `onFailure` with the failure at hand, and is
otherwise no failure of the action.
-/

namespace Dialogue
namespace EndpointCall

variable {σ : Type}

/-- What a call needs. -/
structure Plan where
  request : EndpointRequest
  deadline : Nanos
  responseKey : Option String
  saveTo : Option String

/-- A call that did not succeed; there may still be a response. -/
structure Miss where
  failure : Failure
  response : Option EndpointResponse := none

/-- Fields as pairs of texts, without those that are null. -/
def pairs (fields : Fields) : List (String × String) :=
  fields.filterMap fun (name, value) => if value.isNull then none else some (name, value.toText)

/-- The method of a request; `GET` where none is given. -/
def method (raw : Option String) : String :=
  let text := (raw.filter fun text => !(Text.trim text).isEmpty).getD "GET"
  String.ofList (text.toList.map Char.toUpper)

/-- Whether a text is the address of an endpoint. -/
def isAddress (url : String) : Bool :=
  Text.startsWith "http://" url || Text.startsWith "https://" url

/-- Reads the request. -/
def request (f : ActionFields σ) : Eval σ EndpointRequest := do
  let rawMethod ← f.text? "method"
  let url ← f.requiredText "url"
  if !isAddress url then Eval.fail (.notHttp url)
  else
    let query ← f.object "params"
    let headers ← f.object "headers"
    let body ← f.value "body"
    return { method := method rawMethod, url, query := pairs query, headers := pairs headers,
             body := if body.isNull then none else some body }

/-- Reads everything that a call needs. -/
def plan (f : ActionFields σ) : Eval σ Plan := do
  let request ← request f
  let deadline ← f.seconds? "timeout"
  let responseKey ← f.text? "responseKey"
  let saveTo ← f.text? "saveTo"
  return { request, deadline := deadline.getD f.director.settings.endpointTimeout,
           responseKey, saveTo }

/-- What an exchange came to under a deadline, and the time it took.  Deadlines are kept
by whole milliseconds. -/
def judge (p : Plan) (exchange : Exchange) : Except Miss EndpointResponse × Nanos :=
  let limit := p.deadline.withinReach.wholeMillis
  if exchange.delay > limit then
    (.error { failure := .endpointTimeout p.request.method p.request.url p.deadline }, limit)
  else
    let outcome := match exchange.outcome with
      | .error failure => .error { failure }
      | .ok response =>
        if response.isSuccess then .ok response
        else .error { failure := .endpointStatus p.request.method p.request.url response.status,
                      response := some response }
    (outcome, exchange.delay)

/-- Makes the request; time passes meanwhile. -/
def perform (f : ActionFields σ) (p : Plan) : Eval σ (Except Miss EndpointResponse) :=
  Eval.change fun ctx =>
    let called := f.director.host.call ctx.outside p.request
    let judged := judge p called.1
    (judged.1, { ctx with outside := called.2, agenda := ctx.agenda.pause judged.2 })

/-- Saves the body of a response, if it is to be saved. -/
def save (p : Plan) (response : EndpointResponse) : Eval σ Unit :=
  match p.saveTo.filter fun path => !path.isEmpty with
  | none => return ()
  | some path => Eval.saveData path response.body (.unsavedResponse path)

/-- The variables that a success shows: the response, also under a name of its own. -/
def successLocals (p : Plan) (response : EndpointResponse) : Fields :=
  let named : Fields := match p.responseKey.filter fun key => !key.isEmpty with
    | some key => Keyed.put key response.toValue []
    | none => []
  named.put "response" response.toValue

/-- A failure as a scenario sees it. -/
def failureValue (miss : Miss) : Value :=
  .record ([("code", .string miss.failure.code), ("message", .string miss.failure.message)] ++
    match miss.response with
    | some response => [("status", .ofNat response.status)]
    | none => [])

/-- The variables that a failure shows. -/
def failureLocals (miss : Miss) : Fields :=
  ("error", failureValue miss) ::
    match miss.response with
    | some response => [("response", response.toValue)]
    | none => []

/-- Continues after the request. -/
def finish (f : ActionFields σ) (p : Plan) : Except Miss EndpointResponse → Eval σ Unit
  | .ok response => do
    save p response
    f.director.runGraphWithLocals (f.graph "onSuccess") (successLocals p response)
  | .error miss =>
    let onFailure := f.graph "onFailure"
    if onFailure.isNull then return ()
    else f.director.runGraphWithLocals onFailure (failureLocals miss)

/-- Calls an endpoint. -/
def call (f : ActionFields σ) : Eval σ Unit := do
  let p ← plan f
  f.director.runGraph (f.graph "onStart")
  let outcome ← perform f p
  finish f p outcome

/-- The actions of this module. -/
def actions : List (String × Processor σ) := [Processor.named "CallExternalEndpoint" call]

end EndpointCall
end Dialogue
