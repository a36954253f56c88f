import Dialogue.Proofs.Dispatch

/-!
# Actions that functions ask for

A function of the scenario may result in an action.  Its fields are computed where the
arguments of the function are in scope, and the action is queued with these values.  But
when it is dispatched, it is an action like any other, and resolves its fields once more.

* `effect_acts_on_values`: what is queued and run, and that values which interpolation
  leaves alone are what the action acts on,
* `effect_resolves_values`: a value that it does not leave alone is evaluated twice.
-/

namespace Dialogue

variable {σ : Type}

/-- Crews that agree on the fields of an action that it resolves agree on its steps. -/
theorem Acting.congr {d : Director σ} {fields : Fields} {first second : Crew σ}
    (hresolve : ∀ name v, name ∉ ActionFields.graphNames → fields.get? name = some v →
      first.resolve v = second.resolve v)
    (hrunGraph : first.runGraph = second.runGraph)
    (α : Type) (X : Crew σ → Eval σ α) (h : Acting d fields α X) : X first = X second := by
  cases h with
  | resolve name v hname hv => exact hresolve name v hname hv
  | runGraph graph => exact congrFun hrunGraph graph
  | _ => rfl

namespace Engine

variable {e : Engine σ} {ctx after : Context σ}

/-- Computes the fields of the action in which a function of the scenario results. -/
def resultFields (self : Interpolation σ) (function : ScenarioFunction) (given result : Fields) :
    Eval σ Fields := do
  let arguments ← fieldsWith self (function.params.overlay given)
  Eval.withParams arguments (Eval.withLocals arguments (fieldsWith self result))

/-- Runs an action on the values of its fields as they stand.  The graphs among them are
run as usual. -/
def actOn (e : Engine σ) (bound : Nat) (values : Fields) : Eval σ Unit :=
  e.runActionWith pure (e.runAction bound) (.object values)

/-- The action in which a function results is queued with the values of its fields. -/
theorem on_callWith_of_action {self : Interpolation σ} {function : ScenarioFunction}
    {given result values : Fields} (hresult : function.result = .object result)
    (haction : function.result.isAction)
    (hvalues : (resultFields self function given result).on ctx = (.ok values, after))
    (hqueued : (Value.object values).isAction) :
    (callWith self function given).on ctx =
      (.ok (.object values), { after with effects := after.effects ++ [.object values] }) := by
  -- only the fields are computed in the scope of the arguments
  have hsplit : callWith self function given =
      resultFields self function given result >>= fun fields => do
        if (Value.object fields).isAction then Eval.queueEffect (.object fields)
        return .object fields := by
    rw [hresult] at haction
    simp only [callWith, resultFields, hresult, resultWith, haction, if_true, Eval.withLocals_map,
      Eval.withParams_map, bind_assoc, pure_bind]
  rw [hsplit, Eval.on_bind_ok hvalues]
  simp only [hqueued, if_true]
  rfl

/-- Once a value is complete, what is queued is dispatched in order. -/
theorem on_flushWith {run : Value → Eval σ Unit} {x : Eval σ Value} {v : Value}
    (h : x.on ctx = (.ok v, after)) :
    (flushWith run x).on ctx =
      (after.effects.forM run >>= fun _ => pure v).on { after with effects := [] } := by
  unfold flushWith
  rw [Eval.on_thenAlways, h]
  rfl

/-- Where interpolation leaves the fields of an action alone, the action acts on them as
they stand. -/
theorem runActionWith_eq_actOn (builtIn : e.BuiltIn) {self : Interpolation σ}
    {run : Value → Eval σ Unit} {values : Fields} (haction : (Value.object values).isAction)
    (halone : ∀ entry ∈ values, entry.1 ∉ ActionFields.graphNames → self entry.2 = pure entry.2) :
    e.runActionWith self run (.object values) = e.runActionWith pure run (.object values) := by
  simp only [runActionWith]
  split
  · rename_i hnone
    simp [Value.isAction, Value.fields?, hnone] at haction
  · split
    · rfl
    · rename_i processor hprocessor
      -- the graphs among the fields are the only ones that are not resolved
      have hcrew : ∀ α X, Acting (e.directorWith self run) values α X →
          X (e.directorWith self run).crew = X (e.directorWith pure run).crew := by
        refine Acting.congr (fun name v hname hv => ?_) rfl
        have hv : self v = pure v := halone (name, v) (Keyed.mem_of_get? hv) hname
        simp only [Director.crew, directorWith, hv]
      have hprocess : processor (e.directorWith self run) values =
          processor (e.directorWith pure run) values :=
        (builtIn.assembles_of_resolve? hprocessor (e.directorWith self run) values).congr hcrew
      rw [hprocess]

/-- Segments that are no tokens stand for themselves. -/
theorem mapM_segmentWith_of_plain (self : Interpolation σ) {segments : List Template.Segment}
    (h : ∀ inner, .token inner ∉ segments) :
    segments.mapM (e.segmentWith self) = pure (segments.map Template.Segment.source) := by
  induction segments with
  | nil => rfl
  | cons segment rest ih =>
      have hrest := ih fun inner hinner => h inner (List.mem_cons_of_mem segment hinner)
      cases segment with
      | token inner => exact absurd List.mem_cons_self (h inner)
      | char c =>
          rw [List.mapM_cons, hrest]
          rfl

/-- A text without tokens is left alone. -/
theorem interpolate_of_plain {text : String}
    (h : ∀ inner, .token inner ∉ Template.segments text.toList) (bound : Nat) :
    e.interpolate (bound + 1) (.string text) = pure (.string text) := by
  have hsource : ((Template.segments text.toList).map Template.Segment.source).flatten =
      text.toList := by
    rw [← List.flatMap_def, Template.flatMap_source_segments]
  simp only [interpolate, interpolateWith, textWith]
  split
  · rename_i inner hsegments
    exact absurd (by rw [hsegments]; exact List.mem_cons_self) (h inner)
  · rw [mapM_segmentWith_of_plain _ h, pure_bind, hsource, String.ofList_toList]

/-! ## Messages -/

/-- The fields of a message. -/
def saying (text : String) : Fields :=
  [("action", .string "EmitOutput"), ("text", .string text)]

/-- Where nothing is queued, a value that is known is resolved without a trace. -/
theorem on_flushWith_pure {run : Value → Eval σ Unit} (v : Value) (heffects : ctx.effects = []) :
    (flushWith run (pure v)).on ctx = (.ok v, ctx) := by
  obtain ⟨session, env, params, scope, effects, agenda, callbacks, outside⟩ := ctx
  cases heffects
  rfl

theorem on_emit_saying {d : Director σ} {text : String}
    (h : (d.resolve (.string text)).on ctx = (.ok (.string text), ctx)) :
    (Output.emit ⟨"EmitOutput", d, saying text⟩).on ctx =
      (d.send text {} >>= fun message => Eval.updateSession fun session =>
        session.rememberMessage none message).on ctx := by
  have htext : (ActionFields.text? ⟨"EmitOutput", d, saying text⟩ "text").on ctx =
      (.ok (some text), ctx) := by
    have hget : (saying text).get? "text" = some (.string text) := by rfl
    simp only [ActionFields.text?, ActionFields.value, hget]
    rw [Eval.on_bind_ok h]
    rfl
  have hoptions : (ActionFields.outputOptions ⟨"EmitOutput", d, saying text⟩).on ctx =
      (.ok {}, ctx) := by rfl
  have hname : (ActionFields.text? ⟨"EmitOutput", d, saying text⟩ "saveAs").on ctx =
      (.ok none, ctx) := by rfl
  unfold Output.emit
  rw [Eval.on_bind_ok htext, Eval.on_bind_ok hoptions, Eval.on_bind_ok hname]
  rcases hsend : (d.send text {}).on ctx with ⟨stop | message, after⟩
  · exact (Eval.on_bind_error hsend).trans (Eval.on_bind_error hsend).symm
  · -- there is no graph to run once the message is sent
    refine (Eval.on_bind_ok hsend).trans (Eq.trans ?_ (Eval.on_bind_ok hsend).symm)
    rfl

/-- Sending reaches the outside once, whatever is remembered of it. -/
theorem outside_send {d : Director σ} (text : String) (name : Option String) :
    ((d.send text {} >>= fun message => Eval.updateSession fun session =>
      session.rememberMessage name message).on ctx).2.outside =
        (d.host.send ctx.outside ctx.session.id text {}).2 := by
  have hsend : (d.send text {}).on ctx =
      (Eval.ofExcept (d.host.send ctx.outside ctx.session.id text {}).1 : Eval σ MessageId).on
        { ctx with outside := (d.host.send ctx.outside ctx.session.id text {}).2 } := rfl
  rw [Eval.on_bind, hsend]
  cases (d.host.send ctx.outside ctx.session.id text {}).1 <;> rfl

/-- Acting on the fields of a message sends its text as it stands. -/
theorem outside_actOn_saying (builtIn : e.BuiltIn) (bound : Nat) (text : String)
    (heffects : ctx.effects = []) :
    ((e.actOn bound (saying text)).on ctx).2.outside =
      (e.host.send ctx.outside ctx.session.id text {}).2 := by
  have hname : Value.nameUnder Value.actionKey (saying text) = some "EmitOutput" := by rfl
  have hprocessor : e.actions.resolve? "EmitOutput" =
      some (Processor.named "EmitOutput" Output.emit).2 := by
    rw [builtIn.actions]
    cbv
  let d := e.directorWith pure (e.runAction bound)
  let inner : Context σ :=
    { ctx with scope := ctx.scope.pushAction (Keyed.drop Value.actionKey (saying text)) }
  have hresolve : (d.resolve (.string text)).on inner = (.ok (.string text), inner) :=
    on_flushWith_pure (.string text) heffects
  simp only [actOn, runActionWith, hname, hprocessor]
  rw [Eval.snd_on_recover, Eval.on_withAction]
  exact (congrArg (fun r => r.2.outside) (on_emit_saying hresolve)).trans (outside_send text none)

/-- A message whose text has no tokens is what it is when its fields are resolved again. -/
theorem runAction_saying (builtIn : e.BuiltIn) {text : String}
    (h : ∀ inner, .token inner ∉ Template.segments text.toList) (bound : Nat) :
    e.runAction (bound + 2) (.object (saying text)) = e.actOn (bound + 1) (saying text) := by
  have haction : (Value.object (saying text)).isAction := by rfl
  refine runActionWith_eq_actOn builtIn haction fun entry hentry _ => ?_
  have hname : ∀ inner, .token inner ∉ Template.segments "EmitOutput".toList := by
    have hsegments : Template.segments "EmitOutput".toList =
        "EmitOutput".toList.map .char := by cbv
    intro inner hinner
    rw [hsegments] at hinner
    obtain ⟨c, -, hc⟩ := List.mem_map.1 hinner
    cases hc
  simp only [saying, List.mem_cons, List.not_mem_nil, or_false] at hentry
  rcases hentry with rfl | rfl
  · exact interpolate_of_plain hname bound
  · exact interpolate_of_plain h bound

/-! ## Calls -/

/-- The descriptor calls a function of the scenario that results in an action. -/
structure CallsForAction (e : Engine σ) (fields : Fields) (function : ScenarioFunction)
    (result : Fields) : Prop where
  called : ∃ name, Value.nameUnder Value.functionKey fields = some name ∧
    e.functions.get? name = none ∧ e.scenario.functions.get? name = some function
  result : function.result = .object result
  action : function.result.isAction

theorem CallsForAction.evaluateFieldsWith {fields result : Fields} {function : ScenarioFunction}
    (h : e.CallsForAction fields function result) (self : Interpolation σ) :
    e.evaluateFieldsWith self fields =
      callWith self function (fields.drop Value.functionKey) := by
  obtain ⟨name, hname, hlibrary, hscenario⟩ := h.called
  simp only [Engine.evaluateFieldsWith, hname, hlibrary, hscenario]

/-- What a call comes to: the values of the fields, queued behind what their evaluation
queued if they still describe an action. -/
theorem CallsForAction.on_evaluate {fields result values : Fields} {function : ScenarioFunction}
    {bound : Nat} (h : e.CallsForAction fields function result)
    (hvalues : (resultFields (e.interpolate bound) function (fields.drop Value.functionKey)
      result).on ctx = (.ok values, after)) (hqueued : (Value.object values).isAction) :
    (e.evaluate bound (.object fields)).on ctx =
      (.ok (.object values), { after with effects := after.effects ++ [.object values] }) := by
  simp only [evaluate, evaluateWith, h.evaluateFieldsWith]
  exact on_callWith_of_action h.result h.action hvalues hqueued

/-- The dispatch of an action that a call asked for, after the actions that the evaluation of
its fields asked for. -/
theorem CallsForAction.on_evaluateFunction {fields result values : Fields}
    {function : ScenarioFunction} {bound : Nat} (h : e.CallsForAction fields function result)
    (hvalues : (resultFields (e.interpolate bound) function (fields.drop Value.functionKey)
      result).on ctx = (.ok values, after)) (hqueued : (Value.object values).isAction) :
    (e.evaluateFunction bound (.object fields)).on ctx =
      (after.effects.forM (e.runAction bound) >>= fun _ => e.runAction bound (.object values) >>=
        fun _ => pure (.object values)).on { after with effects := [] } := by
  refine (on_flushWith (h.on_evaluate hvalues hqueued)).trans ?_
  simp only [List.forM_eq_forM, List.forM_append, List.forM_cons, List.forM_nil, bind_assoc,
    pure_bind]

theorem outside_evaluateFunction_saying (builtIn : e.BuiltIn) {fields result : Fields}
    {function : ScenarioFunction} {bound : Nat} {text : String}
    (h : e.CallsForAction fields function result)
    (hvalues : (resultFields (e.interpolate (bound + 2)) function
      (fields.drop Value.functionKey) result).on ctx = (.ok (saying text), after))
    (hplain : ∀ inner, .token inner ∉ Template.segments text.toList)
    (heffects : after.effects = []) :
    ((e.evaluateFunction (bound + 2) (.object fields)).on ctx).2.outside =
      (e.host.send after.outside after.session.id text {}).2 := by
  have hqueued : (Value.object (saying text)).isAction := by rfl
  have hafter : { after with effects := [] } = after := by
    rw [← heffects]
  rw [h.on_evaluateFunction hvalues hqueued, hafter, heffects]
  change ((e.runAction (bound + 2) (.object (saying text)) >>= fun _ => pure _).on
    after).2.outside = _
  rw [Eval.snd_on_map, runAction_saying builtIn hplain]
  exact outside_actOn_saying builtIn (bound + 1) text heffects

/-- A call of a function that results in an action queues and runs the values of the
action's fields, as computed where the arguments are in scope.  The action acts on these
values if interpolation leaves them alone, so a message is sent as it stands if it has no
tokens. -/
theorem effect_acts_on_values (builtIn : e.BuiltIn) (bound : Nat) :
    (∀ fields function result values ctx after, e.CallsForAction fields function result →
      (resultFields (e.interpolate bound) function (fields.drop Value.functionKey) result).on
        ctx = (.ok values, after) → (Value.object values).isAction →
      (e.evaluate bound (.object fields)).on ctx =
        (.ok (.object values), { after with effects := after.effects ++ [.object values] }) ∧
      (e.evaluateFunction bound (.object fields)).on ctx =
        (after.effects.forM (e.runAction bound) >>= fun _ =>
          e.runAction bound (.object values) >>= fun _ => pure (.object values)).on
            { after with effects := [] }) ∧
    (∀ values, (Value.object values).isAction →
      (∀ entry ∈ values, entry.1 ∉ ActionFields.graphNames →
        e.interpolate bound entry.2 = pure entry.2) →
      e.runAction (bound + 1) (.object values) = e.actOn bound values) ∧
    (∀ text ctx, ctx.effects = [] →
      ((e.actOn bound (saying text)).on ctx).2.outside =
        (e.host.send ctx.outside ctx.session.id text {}).2) ∧
    ∀ fields function result text ctx after, e.CallsForAction fields function result →
      (resultFields (e.interpolate (bound + 2)) function (fields.drop Value.functionKey)
        result).on ctx = (.ok (saying text), after) →
      (∀ inner, .token inner ∉ Template.segments text.toList) → after.effects = [] →
      ((e.evaluateFunction (bound + 2) (.object fields)).on ctx).2.outside =
        (e.host.send after.outside after.session.id text {}).2 := by
  refine ⟨fun fields function result values ctx after h hvalues hqueued => ?_,
    fun values haction halone => ?_, fun text ctx heffects => ?_,
    fun fields function result text ctx after h hvalues hplain heffects => ?_⟩
  · exact ⟨h.on_evaluate hvalues hqueued, h.on_evaluateFunction hvalues hqueued⟩
  · exact runActionWith_eq_actOn builtIn haction halone
  · exact outside_actOn_saying builtIn bound text heffects
  · exact outside_evaluateFunction_saying builtIn h hvalues hplain heffects

/-- A function that sends its argument. -/
def say : ScenarioFunction where
  params := [("text", .string "")]
  result := .object (saying "{{text}}")

/-- The engine of a scenario with that function, whose host remembers what was sent. -/
def scribe : Engine (List String) where
  scenario := { functions := [("say", say)] }
  functions := FunctionLibrary.standard
  actions := { library := ActionLibrary.standard }
  host :=
    { send := fun sent _ text _ => (.ok "1", text :: sent)
      edit := fun sent _ _ _ _ => (.ok (), sent)
      delete := fun sent _ _ => (.ok (), sent)
      call := fun sent _ => ({ outcome := .error (.endpointRequest "refused") }, sent) }

theorem scribe_builtIn : scribe.BuiltIn := ⟨rfl, rfl⟩

/-- A session with some data, in which nothing has been sent. -/
def unsent (data : Fields) : Context (List String) where
  session := { id := "session", data }
  env := []
  agenda := {}
  callbacks := .empty 2
  outside := []

/-- A call whose argument stands in a variable. -/
def sayingVariable : Fields :=
  [("function", .string "say"), ("text", .string "{{x}}")]

theorem callsForAction_sayingVariable :
    scribe.CallsForAction sayingVariable say (saying "{{text}}") where
  called := ⟨"say", by rfl, by cbv, by rfl⟩
  result := rfl
  action := by rfl

/-- A text without tokens, taken from the data of the session. -/
theorem plain_text_is_sent :
    let ctx := unsent [("x", .string "hi")]
    scribe.BuiltIn ∧ scribe.CallsForAction sayingVariable say (saying "{{text}}") ∧
      (resultFields (scribe.interpolate 5) say (sayingVariable.drop Value.functionKey)
        (saying "{{text}}")).on ctx = (.ok (saying "hi"), ctx) ∧
      ((scribe.evaluateFunction 5 (.object sayingVariable)).on ctx).2.outside = ["hi"] := by
  have hvalues : (resultFields (scribe.interpolate 5) say
      (sayingVariable.drop Value.functionKey) (saying "{{text}}")).on
        (unsent [("x", .string "hi")]) = (.ok (saying "hi"), unsent [("x", .string "hi")]) := by
    cbv
  have hplain : ∀ inner, .token inner ∉ Template.segments "hi".toList := by
    have hsegments : Template.segments "hi".toList = [.char 'h', .char 'i'] := by cbv
    rw [hsegments]
    simp
  obtain ⟨-, -, -, hsent⟩ := effect_acts_on_values scribe_builtIn 3
  exact ⟨scribe_builtIn, callsForAction_sayingVariable, hvalues,
    hsent _ _ _ "hi" _ _ callsForAction_sayingVariable hvalues hplain rfl⟩

/-- A text with a token is evaluated again when the message is sent: what is sent is the
value of another variable, where acting on the computed fields would send the text. -/
theorem effect_resolves_values :
    let ctx := unsent [("x", .string "{{y}}"), ("y", .string "secret")]
    scribe.BuiltIn ∧ scribe.CallsForAction sayingVariable say (saying "{{text}}") ∧
      (resultFields (scribe.interpolate 5) say (sayingVariable.drop Value.functionKey)
        (saying "{{text}}")).on ctx = (.ok (saying "{{y}}"), ctx) ∧
      ((scribe.actOn 5 (saying "{{y}}")).on ctx).2.outside =
        ["{{y}}"] ∧
      ((scribe.evaluateFunction 5 (.object sayingVariable)).on ctx).2.outside = ["secret"] := by
  have hvalues : (resultFields (scribe.interpolate 5) say
      (sayingVariable.drop Value.functionKey) (saying "{{text}}")).on
        (unsent [("x", .string "{{y}}"), ("y", .string "secret")]) =
      (.ok (saying "{{y}}"),
        unsent [("x", .string "{{y}}"), ("y", .string "secret")]) := by
    cbv
  have hexact : ((scribe.actOn 5 (saying "{{y}}")).on
      (unsent [("x", .string "{{y}}"), ("y", .string "secret")])).2.outside =
        ["{{y}}"] :=
    outside_actOn_saying scribe_builtIn 5 "{{y}}" rfl
  have hsent : ((scribe.evaluateFunction 5 (.object sayingVariable)).on
      (unsent [("x", .string "{{y}}"), ("y", .string "secret")])).2.outside =
        ["secret"] := by
    cbv
  exact ⟨scribe_builtIn, callsForAction_sayingVariable, hvalues, hexact, hsent⟩

end Engine
end Dialogue
