import Dialogue.Engine.Routing
import Dialogue.Proofs.Actions
import Dialogue.Proofs.Frame

/-!
# Dispatch restores what it found

Frames and parameters are put on for a while: for a function, for the items of a list,
for an action, for the graph of a button or of an answer.  Whatever happens inside, they
are taken off again, and no queued action is left behind.
-/

namespace Dialogue

namespace Context

variable {σ : Type}

/-- Variables and parameters are as before. -/
structure Restored (before after : Context σ) : Prop where
  scope : after.scope = before.scope
  params : after.params = before.params

/-- From a context without queued effects, one comes to such a context again, with the
same variables and parameters. -/
def Settles (before after : Context σ) : Prop :=
  before.effects = [] → before.Restored after ∧ after.effects = []

theorem Advances.restored {before after : Context σ} (h : before.Advances after) :
    before.Restored after := by
  obtain ⟨storage, effects, -, -, rfl⟩ := h
  exact ⟨rfl, rfl⟩

theorem framing_restored : Framing (Restored : Context σ → Context σ → Prop) where
  refl _ := ⟨rfl, rfl⟩
  trans hfirst hsecond :=
    ⟨hsecond.scope.trans hfirst.scope, hsecond.params.trans hfirst.params⟩
  locals _ h := ⟨by simp [h.scope], h.params⟩
  action _ h := ⟨by simp [h.scope], h.params⟩
  params _ h := ⟨h.scope, rfl⟩

theorem framing_settles : Framing (Settles : Context σ → Context σ → Prop) where
  refl _ heffects := ⟨⟨rfl, rfl⟩, heffects⟩
  trans hfirst hsecond heffects := by
    obtain ⟨hrestored, hbetween⟩ := hfirst heffects
    obtain ⟨hrestored', hafter⟩ := hsecond hbetween
    exact ⟨framing_restored.trans hrestored hrestored', hafter⟩
  locals locals h heffects :=
    ⟨framing_restored.locals locals (h heffects).1, (h heffects).2⟩
  action fields h heffects :=
    ⟨framing_restored.action fields (h heffects).1, (h heffects).2⟩
  params params h heffects :=
    ⟨framing_restored.params params (h heffects).1, (h heffects).2⟩

/-- What is outside and the agenda may change. -/
theorem settles_outside (ctx : Context σ) (outside : σ) (agenda : Agenda) :
    ctx.Settles { ctx with outside, agenda } :=
  fun heffects => ⟨⟨rfl, rfl⟩, heffects⟩

end Context

open Context

variable {σ : Type}

/-- Changes that leave variables, parameters and the queue alone. -/
theorem Eval.settles_of_same {α : Type} {x : Eval σ α}
    (h : ∀ ctx, (x.on ctx).2.scope = ctx.scope ∧ (x.on ctx).2.params = ctx.params ∧
      (x.on ctx).2.effects = ctx.effects) : x.Keeps Settles := by
  intro ctx heffects
  obtain ⟨hscope, hparams, hqueue⟩ := h ctx
  exact ⟨⟨hscope, hparams⟩, hqueue.trans heffects⟩

theorem Eval.saveData_settles (path : String) (v : Value)
    (failure : Path.Obstacle → Failure) :
    (Eval.saveData path v failure : Eval σ Unit).Keeps Settles := by
  refine settles_of_same fun ctx => ?_
  simp only [saveData, on_make]
  split <;> exact ⟨rfl, rfl, rfl⟩

theorem Director.onHost_settles {α : Type}
    (operation : σ → String → Except Failure α × σ) :
    (Director.onHost operation).Keeps Settles := by
  refine .bind framing_settles (Eval.settles_of_same fun ctx => ⟨rfl, rfl, rfl⟩) fun result => ?_
  cases result <;> exact framing_settles.refl

theorem Director.delete_settles (d : Director σ) (message : MessageId) :
    (d.delete message).Keeps Settles := by
  refine .bind framing_settles ?_ fun _ => Eval.settles_of_same fun ctx => ⟨rfl, rfl, rfl⟩
  exact .recover framing_settles _ (onHost_settles _) fun _ => framing_settles.refl

/-- The steps of an action restore what they found if its crew does. -/
theorem Acting.settles {d : Director σ} {fields : Fields} {crew : Crew σ}
    (hresolve : ∀ v, (crew.resolve v).Keeps Settles)
    (hrunGraph : ∀ graph, (crew.runGraph graph).Keeps Settles)
    (α : Type) (X : Crew σ → Eval σ α) (h : Acting d fields α X) :
    (X crew).Keeps Settles := by
  cases h with
  | resolve _ v => exact hresolve v
  | runGraph graph => exact hrunGraph graph
  | fail | ask => exact framing_settles.refl
  | save path v failure => exact Eval.saveData_settles path v failure
  | post =>
      exact .bind framing_settles (Director.onHost_settles _) fun _ =>
        Eval.settles_of_same fun ctx => ⟨rfl, rfl, rfl⟩
  | edit =>
      exact .recover framing_settles _ (Director.onHost_settles _) fun _ =>
        Eval.settles_of_same fun ctx => ⟨rfl, rfl, rfl⟩
  | delete message => exact d.delete_settles message
  | sweep message =>
      exact .recover framing_settles _ (d.delete_settles message) fun _ => framing_settles.refl
  | perform => exact fun ctx => ctx.settles_outside _ _
  | reset | navigate | back | write | read | remove | arm | cancel | callback =>
      exact Eval.settles_of_same fun ctx => ⟨rfl, rfl, rfl⟩

namespace Engine

variable {e : Engine σ}

/-- Dispatching the queued effects empties the queue, also when the value failed or one of
the effects fails. -/
theorem flushWith_settles {runAction : Value → Eval σ Unit} {x : Eval σ Value}
    (hx : x.Keeps Restored) (hrun : ∀ effect, (runAction effect).Keeps Settles) :
    (flushWith runAction x).Keeps Settles := by
  intro ctx _
  have hvalue := hx ctx
  have hrest (outcome : Except Stop Value) (queued : List Value) :
      (do
        let value ← Eval.ofOutcome outcome
        queued.forM runAction
        return value : Eval σ Value).Keeps Settles := by
    refine .bind framing_settles ?_ fun value => ?_
    · cases outcome <;> exact framing_settles.refl
    · exact .bind framing_settles (.forM framing_settles queued hrun) fun _ =>
        framing_settles.refl
  have hflushed := hrest (x.on ctx).1 (x.on ctx).2.effects { (x.on ctx).2 with effects := [] } rfl
  exact ⟨⟨hflushed.1.scope.trans hvalue.scope, hflushed.1.params.trans hvalue.params⟩,
    hflushed.2⟩

theorem interpolate_restored (builtIn : e.BuiltIn) (bound : Nat) (v : Value) :
    (e.interpolate bound v).Keeps Restored :=
  fun ctx => (interpolate_advances builtIn bound v ctx).restored

theorem evaluateFieldsWith_restored (builtIn : e.BuiltIn) (bound : Nat) (fields : Fields) :
    (e.evaluateFieldsWith (e.interpolate bound) fields).Keeps Restored :=
  fun ctx => (evaluateFieldsWith_advances builtIn bound fields ctx).restored

theorem evaluate_restored (builtIn : e.BuiltIn) (bound : Nat) (descriptor : Value) :
    (e.evaluate bound descriptor).Keeps Restored := by
  cases descriptor with
  | object fields => exact evaluateFieldsWith_restored builtIn bound fields
  | _ => exact framing_restored.refl

/-- Where a host has no actions of its own, an action is one of the library. -/
theorem BuiltIn.assembles_of_resolve? (builtIn : e.BuiltIn) {action : String}
    {processor : Processor σ} (h : e.actions.resolve? action = some processor) :
    processor.Assembles := by
  rw [builtIn.actions] at h
  have hget : ActionLibrary.standard.get? action = some processor := by
    simpa [ActionRegistry.resolve?] using h
  exact ActionLibrary.assembles_of_get? hget

/-- Running an entry of a graph restores what it found. -/
theorem runAction_settles (builtIn : e.BuiltIn) (bound : Nat) (descriptor : Value) :
    (e.runAction bound descriptor).Keeps Settles := by
  induction bound generalizing descriptor with
  | zero => exact framing_settles.refl
  | succ bound ih =>
      match descriptor with
      | .null | .bool _ | .number _ | .string _ | .array _ => exact framing_settles.refl
      | .object fields =>
          simp only [runAction, runActionWith]
          split
          · split
            · have hflush := flushWith_settles
                (evaluateFieldsWith_restored builtIn bound fields) ih
              exact .bind framing_settles hflush fun _ => framing_settles.refl
            · exact framing_settles.refl
          · split
            · exact framing_settles.refl
            · rename_i processor hprocessor
              let d := e.directorWith (e.interpolate bound) (e.runAction bound)
              have hassembled := builtIn.assembles_of_resolve? hprocessor d fields
              have hresolve (v : Value) : (d.resolve v).Keeps Settles :=
                flushWith_settles (interpolate_restored builtIn bound v) ih
              have hrunGraph (graph : Value) : (d.runGraph graph).Keeps Settles :=
                .forM framing_settles _ ih
              have hprocess := hassembled.assembled.keeps framing_settles d.crew
                (Acting.settles hresolve hrunGraph)
              exact .recover framing_settles _ (.withAction framing_settles _ hprocess)
                fun _ => framing_settles.refl

theorem runGraph_settles (builtIn : e.BuiltIn) (bound : Nat) (graph : Value) :
    (e.runGraph bound graph).Keeps Settles :=
  .forM framing_settles _ (runAction_settles builtIn bound)

theorem restart_settles (builtIn : e.BuiltIn) (bound : Nat) :
    (e.restart bound).Keeps Settles :=
  .bind framing_settles (Eval.settles_of_same fun _ => ⟨rfl, rfl, rfl⟩) fun _ =>
    runGraph_settles builtIn bound _

theorem routeCallback_settles (builtIn : e.BuiltIn) (bound : Nat) (data : String)
    (message : Option MessageId) : (e.routeCallback bound data message).Keeps Settles := by
  refine .bind framing_settles framing_settles.refl fun found => ?_
  refine .bind framing_settles framing_settles.refl fun id => ?_
  cases found with
  | none => exact framing_settles.refl
  | some entry =>
      simp only
      split
      · exact framing_settles.refl
      · exact .withParams framing_settles _ (.withLocals framing_settles _
          (runGraph_settles builtIn bound entry.graph))

theorem completeInput_settles (builtIn : e.BuiltIn) (bound : Nat) (pending : PendingInput)
    (payload : Payload) : (e.completeInput bound pending payload).Keeps Settles := by
  have hclear (outcome : Except Stop Unit) :
      (do
        if pending.request.clearAfter then
          Eval.updateSession fun session => (session.removeData pending.request.key).2
          Eval.updateSession fun session =>
            (session.removeData (attachmentsKey pending.request.key)).2
        Eval.ofOutcome outcome : Eval σ Unit).Keeps Settles := by
    refine Eval.settles_of_same fun ctx => ?_
    cases pending.request.clearAfter <;> cases outcome <;> exact ⟨rfl, rfl, rfl⟩
  have hgraph := Eval.Keeps.thenAlways framing_settles
    (.withLocals framing_settles [("value", payload.captured)]
      (runGraph_settles builtIn bound pending.request.onDone)) hclear
  refine .bind framing_settles (Eval.saveData_settles _ _ _) fun _ => ?_
  cases payload.attachment? with
  | none => exact hgraph
  | some file =>
      cases pending.request.allowAttachments with
      | false => exact hgraph
      | true => exact .bind framing_settles (Eval.saveData_settles _ _ _) fun _ => hgraph

theorem captureInput_settles (builtIn : e.BuiltIn) (bound : Nat) (payload : Payload) :
    (e.captureInput bound payload).Keeps Settles := by
  refine .bind framing_settles (Eval.settles_of_same fun ctx => ⟨rfl, rfl, rfl⟩) fun outcome => ?_
  cases outcome with
  | matched pending =>
      exact .bind framing_settles (completeInput_settles builtIn bound pending payload) fun _ =>
        framing_settles.refl
  | _ => exact framing_settles.refl

/-- Whatever it comes to, dispatch leaves variables and parameters as it found them, and
leaves no queued action behind if it found none.  Interpolating a value and evaluating a
function leave variables and parameters as they found them, whatever is queued. -/
theorem dispatch_restores (builtIn : e.BuiltIn) (bound : Nat) :
    (∀ v, (e.interpolate bound v).Keeps Restored) ∧
    (∀ descriptor, (e.evaluate bound descriptor).Keeps Restored) ∧
    (∀ v, (e.resolve bound v).Keeps Settles) ∧
    (∀ descriptor, (e.evaluateFunction bound descriptor).Keeps Settles) ∧
    (∀ descriptor, (e.runAction bound descriptor).Keeps Settles) ∧
    (∀ graph, (e.runGraph bound graph).Keeps Settles) ∧
    (e.restart bound).Keeps Settles ∧
    (∀ data message, (e.routeCallback bound data message).Keeps Settles) ∧
    (∀ payload, (e.captureInput bound payload).Keeps Settles) := by
  have hrun := runAction_settles builtIn bound
  refine ⟨interpolate_restored builtIn bound, evaluate_restored builtIn bound, fun v => ?_,
    fun descriptor => ?_, hrun, runGraph_settles builtIn bound, restart_settles builtIn bound,
    routeCallback_settles builtIn bound, captureInput_settles builtIn bound⟩
  · exact flushWith_settles (interpolate_restored builtIn bound v) hrun
  · exact flushWith_settles (evaluate_restored builtIn bound descriptor) hrun

/-- Showing a text that nobody receives fails inside the frame of the action. -/
theorem rejected_output_restores :
    let ctx := Context.solitary [("name", .string "Ann")]
    let graph : Value :=
      .object [("action", .string "EmitOutput"), ("text", .string "\x7b\x7bname\x7d\x7d")]
    let after := (((solitary {}).runGraph 3 graph).on ctx).2
    (solitary {}).BuiltIn ∧ ctx.effects = [] ∧ ctx.Restored after ∧ after.effects = [] := by
  obtain ⟨-, -, -, -, -, hgraph, -⟩ := dispatch_restores (solitary_builtIn {}) 3
  exact ⟨solitary_builtIn {}, rfl, hgraph _ _ rfl⟩

end Engine
end Dialogue
