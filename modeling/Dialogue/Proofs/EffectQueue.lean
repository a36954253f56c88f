import Dialogue.Proofs.Effects
import Dialogue.Proofs.Productions

/-!
# The queue of effects

Whoever resolves a value waits for two things: the value, and the actions that scenario
functions asked for on the way.  These stand in the queue until the value is complete.  They
are then taken out, all at once, and dispatched one after the other.

* `Engine.Dispatches`: actions dispatched in order, each from an empty queue to an empty queue,
  up to the end of the list or to the first that stops.
* `Engine.exists_dispatches`: what dispatching a list comes to.
* `Engine.runActionOr_follows`: while an action is dispatched, values are resolved only where
  nothing is queued, at whatever depth.

So what is said of one value, in `Engine.queue_is_served`, holds again of each value that the
dispatch of an effect resolves: what is queued there is dispatched there.
-/

namespace Dialogue

variable {σ : Type}

/-- The first evaluation where nothing is queued, and the second where something is. -/
def Eval.unlessQueued {α : Type} (x y : Eval σ α) : Eval σ α :=
  Eval.make fun ctx => if ctx.effects.isEmpty then x.on ctx else y.on ctx

theorem Eval.on_unlessQueued {α : Type} {x y : Eval σ α} {ctx : Context σ}
    (h : ctx.effects = []) : (x.unlessQueued y).on ctx = x.on ctx := by
  rw [unlessQueued, on_make, h]
  rfl

/-- The same context, in which nothing is queued. -/
def Context.Quiet (c d : Context σ) : Prop := d = c ∧ c.effects = []

theorem Context.twinning_quiet : Twinning (Quiet : Context σ → Context σ → Prop) where
  enter := by
    rintro c _ frame ⟨rfl, h⟩
    exact ⟨rfl, h⟩
  leave := by
    rintro c _ c' _ ⟨rfl, -⟩ ⟨rfl, h⟩
    exact ⟨rfl, h⟩
  params := by
    rintro c _ params ⟨rfl, h⟩
    exact ⟨rfl, h⟩
  back := by
    rintro c _ c' _ ⟨rfl, -⟩ ⟨rfl, h⟩
    exact ⟨rfl, h⟩

open Context

namespace Engine

variable {e : Engine σ} {bound : Nat}

/-! ## Dispatching a list -/

/-- Actions are dispatched in order, each from an empty queue.  Whichever of them ends well
leaves the queue empty to the next, and the first that stops is the last. -/
inductive Dispatches (e : Engine σ) (bound : Nat) :
    Context σ → List Value → Except Stop Unit → Context σ → Prop
  | done {ctx : Context σ} (h : ctx.effects = []) : Dispatches e bound ctx [] (.ok ()) ctx
  | next {ctx between after : Context σ} {effect : Value} {rest : List Value}
      {outcome : Except Stop Unit} (h : ctx.effects = [])
      (hrun : (e.runAction bound effect).on ctx = (.ok (), between))
      (hrest : Dispatches e bound between rest outcome after) :
      Dispatches e bound ctx (effect :: rest) outcome after
  | stop {ctx after : Context σ} {effect : Value} {stop : Stop} (h : ctx.effects = [])
      (hrun : (e.runAction bound effect).on ctx = (.error stop, after))
      (hafter : after.effects = []) :
      Dispatches e bound ctx [effect] (.error stop) after

/-- What dispatching a list comes to: a part at its front is dispatched, which is all of it
unless something stops. -/
theorem exists_dispatches (builtIn : e.BuiltIn) (bound : Nat) (effects : List Value)
    {ctx : Context σ} (hqueue : ctx.effects = []) :
    ∃ dispatched rest outcome after, effects = dispatched ++ rest ∧
      e.Dispatches bound ctx dispatched outcome after ∧ (outcome = .ok () → rest = []) ∧
      (effects.forM (e.runAction bound)).on ctx = (outcome, after) := by
  induction effects generalizing ctx with
  | nil => exact ⟨[], [], .ok (), ctx, rfl, .done hqueue, fun _ => rfl, rfl⟩
  | cons effect rest ih =>
      have hsettled := (runAction_settles builtIn bound effect ctx hqueue).2
      rcases hrun : (e.runAction bound effect).on ctx with ⟨stop | ⟨⟩, between⟩
      · rw [hrun] at hsettled
        refine ⟨[effect], rest, .error stop, between, rfl, .stop hqueue hrun hsettled, ?_, ?_⟩
        · rintro ⟨⟩
        · exact Eval.on_bind_error hrun
      · rw [hrun] at hsettled
        obtain ⟨dispatched, left, outcome, after, hsplit, hrest, hall, hon⟩ := ih hsettled
        refine ⟨effect :: dispatched, left, outcome, after, ?_, .next hqueue hrun hrest, hall, ?_⟩
        · rw [hsplit, List.cons_append]
        · exact (Eval.on_bind_ok hrun).trans hon

/-! ## Values that are resolved while something is queued -/

/-- Runs an entry of a graph.  Wherever a value is to be resolved, or an entry to be run, while
something is queued, something else is done. -/
def runActionOr (e : Engine σ) (other : Value → Eval σ Value) : Nat → Value → Eval σ Unit
  | 0, _ => Eval.exhausted
  | bound + 1, descriptor =>
    let self : Interpolation σ := fun v =>
      if descriptor.isAction then (e.interpolate bound v).unlessQueued (other v)
      else e.interpolate bound v
    (e.runActionWith self (e.runActionOr other bound) descriptor).unlessQueued
      (discard (other descriptor))

/-- Evaluations that agree where nothing is queued still do with their effects dispatched. -/
theorem flushWith_quiet {run again : Value → Eval σ Unit} {x y : Eval σ Value}
    (hxy : ∀ ctx : Context σ, ctx.effects = [] → x.on ctx = y.on ctx)
    (hrun : ∀ effect, (run effect).Follows Stop.Never Quiet (again effect)) :
    (flushWith run x).Follows Stop.Never Quiet (flushWith again y) := by
  rintro c _ ⟨rfl, hqueue⟩
  have hrest (outcome : Except Stop Value) (queued : List Value) :
      (do
        let value ← Eval.ofOutcome outcome
        queued.forM run
        return value : Eval σ Value).Follows Stop.Never Quiet
      (do
        let value ← Eval.ofOutcome outcome
        queued.forM again
        return value) := by
    refine .bind ?_ fun value => .bind (.forM queued hrun) fun _ => .pure value
    exact fun c d h => .inr ⟨by simp, by simpa using h⟩
  unfold flushWith
  rw [Eval.on_thenAlways, Eval.on_thenAlways, hxy _ hqueue]
  -- the effects are taken out before any of them is dispatched
  exact hrest _ _ _ _ ⟨rfl, rfl⟩

/-- The steps of an action resolve values, and run graphs, from an empty queue. -/
theorem Acting.quiet {d : Director σ} {fields : Fields} (first second : Crew σ)
    (hresolve : ∀ v, (first.resolve v).Follows Stop.Never Quiet (second.resolve v))
    (hrunGraph : ∀ graph, (first.runGraph graph).Follows Stop.Never Quiet (second.runGraph graph))
    (hresolved : ∀ v, (second.resolve v).Keeps Settles)
    (hgraph : ∀ graph, (second.runGraph graph).Keeps Settles)
    (α : Type) (X : Crew σ → Eval σ α) (h : Acting d fields α X) :
    (X first).Follows Stop.Never Quiet (X second) := by
  have hsettles := Acting.settles hresolved hgraph α X h
  have hsame (heq : X first = X second) : (X first).Follows Stop.Never Quiet (X second) := by
    rintro c _ ⟨rfl, hqueue⟩
    rw [heq]
    exact .inr ⟨rfl, rfl, (hsettles _ hqueue).2⟩
  cases h with
  | resolve _ v => exact hresolve v
  | runGraph graph => exact hrunGraph graph
  | _ => exact hsame rfl

/-- An action does the same from an empty queue, whatever its director would do while something
is queued. -/
theorem process_quiet (builtIn : e.BuiltIn) {self : Interpolation σ} {run : Value → Eval σ Unit}
    (hself : ∀ v (ctx : Context σ), ctx.effects = [] →
      (self v).on ctx = (e.interpolate bound v).on ctx)
    (hrun : ∀ effect, (run effect).Follows Stop.Never Quiet (e.runAction bound effect))
    {action : String} {processor : Processor σ}
    (hprocessor : e.actions.resolve? action = some processor) (fields : Fields) :
    (processor (e.directorWith self run) fields).Follows Stop.Never Quiet
      (processor (e.directorWith (e.interpolate bound) (e.runAction bound)) fields) := by
  let first := e.directorWith self run
  let second := e.directorWith (e.interpolate bound) (e.runAction bound)
  have hresolved (v : Value) : (second.resolve v).Keeps Settles :=
    flushWith_settles (interpolate_restored builtIn bound v) (runAction_settles builtIn bound)
  have hgraph (graph : Value) : (second.runGraph graph).Keeps Settles :=
    .forM framing_settles _ (runAction_settles builtIn bound)
  have hsteps : ∀ α X, Acting second fields α X →
      (X first.crew).Follows Stop.Never Quiet (X second.crew) :=
    Acting.quiet first.crew second.crew (fun v => flushWith_quiet (hself v) hrun)
      (fun graph => .forM _ hrun) hresolved hgraph
  exact (builtIn.assembles_of_resolve? hprocessor second fields).follows twinning_quiet hsteps

/-- Whatever would be done instead while something is queued makes no difference to the
dispatch of an action from an empty queue. -/
theorem runActionOr_follows (builtIn : e.BuiltIn) (other : Value → Eval σ Value) (bound : Nat)
    (descriptor : Value) :
    (e.runActionOr other bound descriptor).Follows Stop.Never Quiet
      (e.runAction bound descriptor) := by
  induction bound generalizing descriptor with
  | zero => exact fun _ _ h => .inr ⟨rfl, h⟩
  | succ bound ih =>
      -- the guard in front of the entry lets pass, because nothing is queued
      suffices h : (e.runActionWith (fun v =>
          if descriptor.isAction then (e.interpolate bound v).unlessQueued (other v)
          else e.interpolate bound v) (e.runActionOr other bound) descriptor).Follows Stop.Never
          Quiet (e.runAction (bound + 1) descriptor) by
        rintro c d hcd
        rw [runActionOr, Eval.on_unlessQueued hcd.2]
        exact h c d hcd
      cases descriptor with
      | object fields =>
          simp only [runAction, runActionWith]
          split
          · rename_i hnone
            have hplain : (Value.object fields).isAction = false := by
              simp [Value.isAction, Value.fields?, hnone]
            simp only [hplain, Bool.false_eq_true, if_false]
            split
            · exact .bind (flushWith_quiet (fun _ _ => rfl) ih) fun _ => .pure ()
            · exact .pure ()
          · rename_i action hname
            have haction : (Value.object fields).isAction = true := by
              simp [Value.isAction, Value.fields?, hname]
            simp only [haction, if_true]
            split
            · exact .pure ()
            · rename_i processor hprocessor
              have hguard (v : Value) (ctx : Context σ) (hqueue : ctx.effects = []) :
                  ((e.interpolate bound v).unlessQueued (other v)).on ctx =
                    (e.interpolate bound v).on ctx := Eval.on_unlessQueued hqueue
              have hprocess := process_quiet builtIn hguard ih hprocessor fields
              exact .recover (fun _ => False.elim) (.withAction twinning_quiet _ hprocess)
                fun _ => .pure ()
      | _ => exact .pure ()

/-! ## Resolving a value -/

/-- The actions in the queue when an evaluation has ended. -/
def produced (value : Eval σ Value) (ctx : Context σ) : List Value := (value.on ctx).2.effects

/-- The context when an evaluation has ended and the queue was taken away. -/
def ready (value : Eval σ Value) (ctx : Context σ) : Context σ :=
  { (value.on ctx).2 with effects := [] }

/-- The queue serves the evaluation of a value.  `telling` is this evaluation where functions of
the scenario tell in some way of the actions in which they result, and `served` the evaluation
with its effects. -/
structure ServesQueue (e : Engine σ) (bound : Nat) (value : Eval σ Value)
    (telling : (Value → Eval σ Unit) → Eval σ Value) (served : Eval σ Value)
    (ctx : Context σ) : Prop where
  /-- The evaluation tells by queueing. -/
  queues : telling Eval.queueEffect = value
  /-- In the queue are exactly the actions in which functions of the scenario result, each once
  and in order: whoever writes them down one by one as they result has this list. -/
  told : ∀ note : σ → Value → σ, (telling (writeDown note)).on ctx =
    ((value.on ctx).1,
      { ready value ctx with outside := (produced value ctx).foldl note ctx.outside })
  actions : ∀ effect ∈ produced value ctx, effect.isAction
  /-- If the value fails, none of them is dispatched. -/
  failed : ∀ stop, (value.on ctx).1 = .error stop →
    served.on ctx = (.error stop, ready value ctx)
  /-- If there is a value, they are dispatched in order, each once, up to the first that stops
  with an error; without an error all of them are, and then the value is handed over. -/
  dispatched : ∀ v, (value.on ctx).1 = .ok v → ∃ dispatched rest outcome after,
    produced value ctx = dispatched ++ rest ∧
    e.Dispatches bound (ready value ctx) dispatched outcome after ∧
    (outcome = .ok () → rest = []) ∧ served.on ctx = (outcome.map fun _ => v, after)
  /-- In every case nothing is left in the queue. -/
  drained : (served.on ctx).2.effects = []

/-- An evaluation is served by its queue if it only queues, and nobody looks at the queue. -/
theorem servesQueue_flushWith (builtIn : e.BuiltIn) (bound : Nat)
    {telling : (Value → Eval σ Unit) → Eval σ Value} {value : Eval σ Value}
    (hqueues : telling Eval.queueEffect = value) (hvalue : value.Keeps Advances)
    (htelling : ∀ note : σ → Value → σ, (telling Eval.queueEffect).Follows Stop.Never
      (WrittenDown note) (telling (writeDown note)))
    {ctx : Context σ} (hqueue : ctx.effects = []) :
    e.ServesQueue bound value telling (flushWith (e.runAction bound) value) ctx where
  queues := hqueues
  told note := by
    rw [hqueues] at htelling
    exact on_of_follows_writtenDown (htelling note) hvalue hqueue
  actions := by
    obtain ⟨storage, effects, -, hactions, hafter⟩ := hvalue ctx
    intro effect heffect
    rw [produced, hafter, hqueue, List.nil_append] at heffect
    exact hactions effect heffect
  failed := by
    intro stop hstop
    unfold flushWith
    rw [Eval.on_thenAlways, hstop]
    rfl
  dispatched := by
    intro v hv
    have hready : (ready value ctx).effects = [] := rfl
    obtain ⟨dispatched, rest, outcome, after, hsplit, hdispatches, hall, hon⟩ :=
      exists_dispatches builtIn bound (produced value ctx) hready
    refine ⟨dispatched, rest, outcome, after, hsplit, hdispatches, hall, ?_⟩
    have hflushed : (flushWith (e.runAction bound) value).on ctx =
        ((produced value ctx).forM (e.runAction bound) >>= fun _ => pure v).on
          (ready value ctx) :=
      on_flushWith (Prod.ext hv rfl)
    rw [hflushed, Eval.on_bind, hon]
    cases outcome <;> rfl
  drained := by
    have hrestored : value.Keeps Restored := fun inner => (hvalue inner).restored
    exact (flushWith_settles hrestored (runAction_settles builtIn bound) ctx hqueue).2

/-- Resolving a value from an empty queue dispatches what functions of the scenario asked for if
the value is there, and nothing otherwise: in order, each action once, up to the first that
fails, before the value is handed over.  So does evaluating a function for its effects.  While
an action is dispatched, this is done only where nothing is queued, so what is queued there is
dispatched there; no effect is left behind. -/
theorem queue_is_served (builtIn : e.BuiltIn) (bound : Nat) {ctx : Context σ}
    (hqueue : ctx.effects = []) :
    (∀ v, e.ServesQueue bound (e.interpolate bound v)
      (fun tell => e.interpolateTelling tell bound v) (e.resolve bound v) ctx) ∧
    (∀ fields, e.ServesQueue bound (e.evaluate bound (.object fields))
      (fun tell => e.evaluateTelling tell (e.interpolateTelling tell bound) fields)
      (e.evaluateFunction bound (.object fields)) ctx) ∧
    ∀ other effect,
      (e.runActionOr other bound effect).on ctx = (e.runAction bound effect).on ctx := by
  refine ⟨fun v => ?_, fun fields => ?_, fun other effect => ?_⟩
  · exact servesQueue_flushWith builtIn bound
      (congrFun (interpolateTelling_queueEffect bound) v) (interpolate_advances builtIn bound v)
      (fun note => interpolateTelling_follows builtIn.equipped (sideBySide_writeDown note) bound v)
      hqueue
  · have hqueues : e.evaluateTelling Eval.queueEffect
        (e.interpolateTelling Eval.queueEffect bound) fields =
          e.evaluate bound (.object fields) := by
      rw [interpolateTelling_queueEffect]
      rfl
    exact servesQueue_flushWith builtIn bound hqueues
      (evaluateFieldsWith_advances builtIn bound fields)
      (fun note => evaluateTelling_follows builtIn.equipped (sideBySide_writeDown note) bound
        fields) hqueue
  · obtain ⟨houtcome, hafter, -⟩ :=
      (runActionOr_follows builtIn other bound effect).outcome ⟨rfl, hqueue⟩
    exact Prod.ext houtcome hafter.symm

/-- A call that sends a text. -/
def sayingText (text : String) : Value :=
  .object [("function", .string "say"), ("text", .string text)]

/-- Two calls in one value: both messages are sent, the first one first, before the value is
handed over. -/
theorem two_messages_in_order :
    let ctx := unsent []
    let v : Value := .array [sayingText "a", sayingText "b"]
    scribe.BuiltIn ∧ ctx.effects = [] ∧
      produced (scribe.interpolate 5 v) ctx = [.object (saying "a"), .object (saying "b")] ∧
      ((scribe.resolve 5 v).on ctx).2.effects = [] ∧
      ((scribe.resolve 5 v).on ctx).2.outside = ["b", "a"] := by
  intro ctx v
  have hproduced : produced (scribe.interpolate 5 v) ctx =
      [.object (saying "a"), .object (saying "b")] := by
    cbv
  have hsent : ((scribe.resolve 5 v).on ctx).2.outside = ["b", "a"] := by cbv
  have hqueue : ctx.effects = [] := rfl
  obtain ⟨hserved, -, -⟩ := queue_is_served scribe_builtIn 5 hqueue
  exact ⟨scribe_builtIn, hqueue, hproduced, (hserved v).drained, hsent⟩

end Engine
end Dialogue
