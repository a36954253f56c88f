import Dialogue.Proofs.Dispatch

/-!
# What lasts through a dispatch

A dispatch changes its context in few ways: it moves the session among the menus, arms and
clears waits, writes down data and messages, parks callbacks, talks to the outside, and lets
time pass.  Meanwhile the agenda ends waits of other sessions and evicts idle ones.

* `Agenda.Lasting`: what survives every step of an agenda survives its runs
  (`settle`, `runUntil`, `advance`, `pause`, `release`).
* `Engine.Steady`: what survives every step of a dispatch survives graphs, restarts, callbacks
  and answers, however deeply they nest and whatever fails on the way.
* `Engine.Lasting`: the same for what survives every way of changing a context, without regard to
  how the steps put changes together.

A statement about all runs is thereby reduced to one small fact for each way of changing
something.
-/

namespace Dialogue

/-! ## Agendas -/

namespace Agenda

/-- A stored session without its wait. -/
def relieved (stored : StoredSession) : StoredSession :=
  { stored with session := { stored.session with awaiting := stored.session.awaiting.take } }

/-- The wait of a stored session has ended, and this was reported. -/
def relieve (a : Agenda) (id : String) (stored : StoredSession) (p : PendingInput) : Agenda :=
  ({ a with store := a.store.put id (relieved stored) } : Agenda).notify id p false

/-- A timer ends a wait of its session, which is stored and not at hand, or does nothing to
the store. -/
theorem fire_cases (a : Agenda) (timer : InputTimer) :
    a.fire timer = a ∨
    (∃ stored, a.store.get? timer.sessionId = some stored ∧ stored.locked = true ∧
      a.fire timer = { a with heldBack := a.heldBack ++ [timer] }) ∨
    ∃ stored p, a.store.get? timer.sessionId = some stored ∧ stored.locked = false ∧
      stored.session.serial = timer.serial ∧ stored.session.awaiting.pending = some p ∧
      p.generation = timer.generation ∧ a.fire timer = a.relieve timer.sessionId stored p := by
  unfold Agenda.fire
  cases hget : a.store.get? timer.sessionId with
  | none => exact .inl rfl
  | some stored =>
      dsimp only
      by_cases hserial : stored.session.serial = timer.serial
      · rw [if_neg (by simpa using hserial)]
        by_cases hlocked : stored.locked
        · rw [if_pos hlocked]
          exact .inr (.inl ⟨stored, rfl, hlocked, rfl⟩)
        · rw [if_neg hlocked]
          cases hpending : stored.session.awaiting.pending with
          | none =>
              simp only [Awaiting.expire, Awaiting.endIf, hpending]
              exact .inl trivial
          | some p =>
              simp only [Awaiting.expire, Awaiting.endIf, hpending]
              by_cases hgeneration : p.generation = timer.generation
              · rw [if_pos (by simpa using hgeneration)]
                exact .inr (.inr ⟨stored, p, rfl, by simpa using hlocked, hserial, hpending,
                  hgeneration, rfl⟩)
              · rw [if_neg (by simpa using hgeneration)]
                exact .inl rfl
      · rw [if_pos (by simpa using hserial)]
        exact .inl rfl

end Agenda

/-- Relations between an agenda and a later one that survive what an agenda does by itself:
firing a timer, evicting idle sessions, and planning what comes next. -/
structure Agenda.Lasting (R : Agenda → Agenda → Prop) : Prop where
  refl : ∀ a, R a a
  trans : ∀ {before between after}, R before between → R between after → R before after
  fire : ∀ a timer, R a (a.fire timer)
  evict : ∀ (a : Agenda) now idle, R a { a with store := (a.store.evictIdle now idle).2 }
  plan : ∀ (a : Agenda) now alarms ready heldBack, R a { a with now, alarms, ready, heldBack }

namespace Agenda.Lasting

variable {R : Agenda → Agenda → Prop}

theorem carryOut (lasting : Lasting R) (a : Agenda) (alarm : Alarm) :
    R a (a.carryOut alarm) := by
  unfold Agenda.carryOut
  split
  · exact lasting.fire a _
  · exact lasting.evict a _ _

theorem start (lasting : Lasting R) (a : Agenda) (alarm : Alarm) : R a (a.start alarm) := by
  unfold Agenda.start
  split
  · exact lasting.trans (lasting.carryOut a alarm) (lasting.plan _ _ _ _ _)
  · exact lasting.plan a _ _ _ _

/-- A list of steps, each of which is survived. -/
theorem foldl {α : Type} (lasting : Lasting R) {step : Agenda → α → Agenda}
    (hstep : ∀ a x, R a (step a x)) (items : List α) (a : Agenda) :
    R a (items.foldl step a) :=
  List.foldlRecOn items step (lasting.refl a) fun b hb x _ => lasting.trans hb (hstep b x)

theorem settle (lasting : Lasting R) (a : Agenda) : R a a.settle :=
  lasting.trans (lasting.plan a a.now a.alarms [] a.heldBack)
    (lasting.foldl lasting.start a.ready _)

theorem runUntil (lasting : Lasting R) (a : Agenda) (time : Nanos) : R a (a.runUntil time) := by
  -- the recursion goes from one alarm that is due to the next
  fun_induction Agenda.runUntil a time with
  | case1 a hnone => exact lasting.refl a
  | case2 a first rest halarms hdue alarm _ ih =>
      have hclock := lasting.plan a (max a.now alarm.due) a.alarms a.ready a.heldBack
      have hdone := lasting.trans hclock (lasting.carryOut _ alarm)
      exact lasting.trans hdone (lasting.trans (lasting.plan _ _ _ _ _) ih)
  | case3 a first rest halarms hdue => exact lasting.refl a

theorem advance (lasting : Lasting R) (a : Agenda) (time : Nanos) : R a (a.advance time) :=
  lasting.trans (lasting.settle a)
    (lasting.trans (lasting.runUntil _ time) (lasting.plan _ _ _ _ _))

theorem pause (lasting : Lasting R) (a : Agenda) (span : Nanos) : R a (a.pause span) := by
  unfold Agenda.pause
  split
  · exact lasting.refl a
  · exact lasting.trans (lasting.settle a)
      (lasting.trans (lasting.runUntil _ _) (lasting.plan _ _ _ _ _))

theorem startSweeper (lasting : Lasting R) (a : Agenda) (idle every : Nanos) :
    R a (a.startSweeper idle every) := by
  unfold Agenda.startSweeper
  dsimp only
  split
  · exact lasting.start a _
  · exact lasting.refl a

/-- Releasing a session in addition takes its lock away. -/
theorem release (lasting : Lasting R) (hunlock : ∀ a sessionId, R a (a.unlock sessionId))
    (a : Agenda) (sessionId : String) : R a (a.release sessionId) := by
  unfold Agenda.release
  split
  · exact lasting.trans (hunlock a sessionId) (lasting.settle _)
  · have hunlocked := lasting.trans (lasting.settle a) (hunlock a.settle sessionId)
    let b := a.settle.unlock sessionId
    have hplanned := lasting.trans hunlocked (lasting.plan b b.now b.alarms b.ready [])
    exact lasting.trans hplanned (lasting.foldl lasting.fire b.heldBack _)

end Agenda.Lasting

/-! ## Dispatch -/

/-- A wait is offered an event: it takes the pending one away and answers so, or leaves all as
it is and does not. -/
theorem Awaiting.offer_cases (a : Awaiting) (kind : EventKind) :
    ((∀ p, (a.offer kind).1 ≠ .matched p) ∧ (a.offer kind).2 = a) ∨
    ∃ p, a.pending = some p ∧ (a.offer kind).1 = .matched p ∧ (a.offer kind).2 = a.take := by
  unfold Awaiting.offer
  split
  · exact .inl ⟨by simp, rfl⟩
  · rename_i p hpending
    split
    · exact .inr ⟨p, hpending, rfl, rfl⟩
    · exact .inl ⟨by simp, rfl⟩

/-- A wait that takes an event is over. -/
theorem Awaiting.offer_of_matched {a : Awaiting} {kind : EventKind} {p : PendingInput}
    (h : (a.offer kind).1 = .matched p) : (a.offer kind).2 = a.take := by
  rcases a.offer_cases kind with ⟨hnone, -⟩ | ⟨q, -, -, htaken⟩
  · exact absurd h (hnone p)
  · exact htaken

/-- A wait that does not take an event stays as it is. -/
theorem Awaiting.offer_of_unmatched {a : Awaiting} {kind : EventKind}
    (h : ∀ p, (a.offer kind).1 ≠ .matched p) : (a.offer kind).2 = a := by
  rcases a.offer_cases kind with ⟨-, hsame⟩ | ⟨p, -, hmatched, -⟩
  · exact hsame
  · exact absurd hmatched (h p)

/-- The ways in which a session moves among the menus of a scenario. -/
inductive Navigation.Moves (scenario : Scenario) : Navigation → Navigation → Prop
  | reset (n : Navigation) : Moves scenario n n.reset
  | navigate (n : Navigation) {target : String} {graph : Value} (add unique : Bool)
      (h : scenario.menuGraph? target = some graph) :
      Moves scenario n (n.navigate target add unique)
  | back (n : Navigation) : Moves scenario n n.back.2

variable {σ : Type}

/-- What happens outside when a message of a session is sent, edited or deleted. -/
inductive Host.Addresses (host : Host σ) (id : String) : σ → σ → Prop
  | send (outside : σ) (text : String) (options : OutputOptions) :
      Addresses host id outside (host.send outside id text options).2
  | edit (outside : σ) (message : MessageId) (text : String) (options : OutputOptions) :
      Addresses host id outside (host.edit outside id message text options).2
  | delete (outside : σ) (message : MessageId) :
      Addresses host id outside (host.delete outside id message).2

/-- Relations between contexts that survive frames and parameters, interpolation, and what a
dispatch does besides writing down data and messages. -/
structure Engine.Enduring (e : Engine σ) (R : Context σ → Context σ → Prop) : Prop where
  framing : Framing R
  advances : ∀ {before after}, before.Advances after → R before after
  effects : ∀ ctx : Context σ, R ctx { ctx with effects := [] }
  navigation : ∀ (ctx : Context σ) {navigation},
    Navigation.Moves e.scenario ctx.session.navigation navigation →
    R ctx { ctx with session := { ctx.session with navigation } }
  arm : ∀ (ctx : Context σ) request, R ctx ((Input.arm request).on ctx).2
  clear : ∀ ctx : Context σ,
    R ctx { ctx with session := { ctx.session with awaiting := ctx.session.awaiting.take } }
  callback : ∀ (ctx : Context σ) graph params,
    let entry : Callback := { sessionId := ctx.session.id, graph, params }
    R ctx { ctx with callbacks := (ctx.callbacks.insert entry).2 }
  call : ∀ (ctx : Context σ) request span,
    R ctx { ctx with
      outside := (e.host.call ctx.outside request).2, agenda := ctx.agenda.pause span }

/-- Relations between contexts that survive each step of a dispatch.  A message is remembered in
the step that sends it, and forgotten in the step that deletes it. -/
structure Engine.Steady (e : Engine σ) (R : Context σ → Context σ → Prop) : Prop
    extends e.Enduring R where
  belongings : ∀ (ctx : Context σ) data storage,
    R ctx { ctx with session := { ctx.session with data, storage } }
  post : ∀ {d : Director σ}, d.host = e.host → ∀ name text options,
    (d.post name text options).Keeps R
  revise : ∀ {d : Director σ}, d.host = e.host → ∀ message text options,
    (d.revise message text options).Keeps R
  delete : ∀ {d : Director σ}, d.host = e.host → ∀ message, (d.delete message).Keeps R

/-- Relations between contexts that survive each way in which a dispatch changes its context,
whatever else the step changes. -/
structure Engine.Lasting (e : Engine σ) (R : Context σ → Context σ → Prop) : Prop
    extends e.Enduring R where
  belongings : ∀ (ctx : Context σ) data storage messages lastMessage,
    R ctx { ctx with session := { ctx.session with data, storage, messages, lastMessage } }
  message : ∀ (ctx : Context σ) outside, e.host.Addresses ctx.session.id ctx.outside outside →
    R ctx { ctx with outside }

namespace Engine.Steady

variable {e : Engine σ} {R : Context σ → Context σ → Prop}

theorem saveData (steady : e.Steady R) (path : String) (v : Value)
    (failure : Path.Obstacle → Failure) :
    (Eval.saveData path v failure : Eval σ Unit).Keeps R := by
  intro ctx
  simp only [Eval.saveData, Eval.on_make, Session.setData]
  cases Fields.write ctx.session.data (Path.parse path) v with
  | ok data => exact steady.belongings ctx data _
  | error obstacle => exact steady.framing.refl ctx

/-- The steps of an action are survived if what its crew does is. -/
theorem acting (steady : e.Steady R) {d : Director σ} {fields : Fields} {crew : Crew σ}
    (hscenario : d.scenario = e.scenario) (hhost : d.host = e.host)
    (hresolve : ∀ v, (crew.resolve v).Keeps R) (hrunGraph : ∀ graph, (crew.runGraph graph).Keeps R)
    (α : Type) (X : Crew σ → Eval σ α) (h : Acting d fields α X) : (X crew).Keeps R := by
  cases h with
  | resolve _ v => exact hresolve v
  | runGraph graph => exact hrunGraph graph
  | fail | ask => exact steady.framing.refl
  | reset => exact fun ctx => steady.navigation ctx (.reset _)
  | navigate target graph add unique htarget =>
      rw [hscenario] at htarget
      exact fun ctx => steady.navigation ctx (.navigate _ add unique htarget)
  | back => exact fun ctx => steady.navigation ctx (.back _)
  | write | read | remove => exact fun ctx => steady.belongings ctx _ _
  | save path v failure => exact steady.saveData path v failure
  | arm request => exact fun ctx => steady.arm ctx request
  | cancel => exact steady.clear
  | callback graph params => exact fun ctx => steady.callback ctx graph params
  | post name text options => exact steady.post hhost name text options
  | edit message text options => exact steady.revise hhost message text options
  | delete message => exact steady.delete hhost message
  | sweep message =>
      exact .recover steady.framing _ (steady.delete hhost message) fun _ => steady.framing.refl
  | perform action p =>
      intro ctx
      have hcall := steady.call ctx p.request
        (EndpointCall.judge p (e.host.call ctx.outside p.request).1).2
      rw [← hhost] at hcall
      exact hcall

theorem flushWith (steady : e.Steady R) {runAction : Value → Eval σ Unit} {x : Eval σ Value}
    (hx : x.Keeps R) (hrun : ∀ effect, (runAction effect).Keeps R) :
    (Engine.flushWith runAction x).Keeps R := by
  refine .thenAlways steady.framing hx fun outcome => ?_
  refine .bind steady.framing steady.effects fun queued => ?_
  refine .bind steady.framing ?_ fun value => ?_
  · cases outcome <;> exact steady.framing.refl
  · exact .bind steady.framing (.forM steady.framing queued hrun) fun _ => steady.framing.refl

theorem runAction (steady : e.Steady R) (builtIn : e.BuiltIn) (bound : Nat)
    (descriptor : Value) : (e.runAction bound descriptor).Keeps R := by
  have framing := steady.framing
  induction bound generalizing descriptor with
  | zero => exact framing.refl
  | succ bound ih =>
      cases descriptor with
      | object fields =>
          simp only [Engine.runAction, runActionWith]
          split
          · split
            · have hvalue : (e.evaluateFieldsWith (e.interpolate bound) fields).Keeps R :=
                fun ctx => steady.advances (evaluateFieldsWith_advances builtIn bound fields ctx)
              exact .bind framing (steady.flushWith hvalue ih) fun _ => framing.refl
            · exact framing.refl
          · split
            · exact framing.refl
            · rename_i processor hprocessor
              let d := e.directorWith (e.interpolate bound) (e.runAction bound)
              have hassembled := builtIn.assembles_of_resolve? hprocessor d fields
              have hresolve (v : Value) : (d.resolve v).Keeps R :=
                steady.flushWith (fun ctx => steady.advances
                  (interpolate_advances builtIn bound v ctx)) ih
              have hrunGraph (graph : Value) : (d.runGraph graph).Keeps R :=
                .forM framing _ ih
              have hprocess := hassembled.assembled.keeps framing d.crew
                (steady.acting rfl rfl hresolve hrunGraph)
              exact .recover framing _ (.withAction framing _ hprocess) fun _ => framing.refl
      | _ => exact framing.refl

theorem runGraph (steady : e.Steady R) (builtIn : e.BuiltIn) (bound : Nat) (graph : Value) :
    (e.runGraph bound graph).Keeps R :=
  .forM steady.framing _ (steady.runAction builtIn bound)

/-- Each step of an action that the engine runs is survived. -/
theorem step (steady : e.Steady R) (builtIn : e.BuiltIn) (bound : Nat) {fields : Fields} (α : Type)
    (X : Crew σ → Eval σ α) (h : Acting (e.director bound) fields α X) :
    (X (e.director bound).crew).Keeps R := by
  refine steady.acting rfl rfl (fun v => ?_) (steady.runGraph builtIn bound) α X h
  exact steady.flushWith (fun ctx => steady.advances (interpolate_advances builtIn bound v ctx))
    (steady.runAction builtIn bound)

theorem restart (steady : e.Steady R) (builtIn : e.BuiltIn) (bound : Nat) :
    (e.restart bound).Keeps R :=
  .bind steady.framing (fun ctx => steady.navigation ctx (.reset _)) fun _ =>
    steady.runGraph builtIn bound _

theorem routeCallback (steady : e.Steady R) (builtIn : e.BuiltIn) (bound : Nat)
    (data : String) (message : Option MessageId) :
    (e.routeCallback bound data message).Keeps R := by
  have framing := steady.framing
  refine .bind framing framing.refl fun found => ?_
  refine .bind framing framing.refl fun id => ?_
  cases found with
  | none => exact framing.refl
  | some entry =>
      simp only
      split
      · exact framing.refl
      · exact .withParams framing _ (.withLocals framing _
          (steady.runGraph builtIn bound entry.graph))

theorem completeInput (steady : e.Steady R) (builtIn : e.BuiltIn) (bound : Nat)
    (pending : PendingInput) (payload : Payload) :
    (e.completeInput bound pending payload).Keeps R := by
  have framing := steady.framing
  have hremove (path : String) :
      (Eval.updateSession fun session => (session.removeData path).2 : Eval σ Unit).Keeps R :=
    fun ctx => steady.belongings ctx _ _
  have hclear (outcome : Except Stop Unit) :
      (do
        if pending.request.clearAfter then
          Eval.updateSession fun session => (session.removeData pending.request.key).2
          Eval.updateSession fun session =>
            (session.removeData (attachmentsKey pending.request.key)).2
        Eval.ofOutcome outcome : Eval σ Unit).Keeps R := by
    have hend : (Eval.ofOutcome outcome : Eval σ Unit).Keeps R := by
      cases outcome <;> exact framing.refl
    cases pending.request.clearAfter with
    | false => exact hend
    | true => exact .bind framing (hremove _) fun _ => .bind framing (hremove _) fun _ => hend
  have hgraph := Eval.Keeps.thenAlways framing
    (.withLocals framing [("value", payload.captured)]
      (steady.runGraph builtIn bound pending.request.onDone)) hclear
  refine .bind framing (steady.saveData _ _ _) fun _ => ?_
  cases payload.attachment? with
  | none => exact hgraph
  | some file =>
      cases pending.request.allowAttachments with
      | false => exact hgraph
      | true => exact .bind framing (steady.saveData _ _ _) fun _ => hgraph

theorem captureInput (steady : e.Steady R) (builtIn : e.BuiltIn) (bound : Nat)
    (payload : Payload) : (e.captureInput bound payload).Keeps R := by
  have framing := steady.framing
  refine .bind framing (fun ctx => ?_) fun outcome => ?_
  · -- a wait that takes the event is over, any other stays as it is
    rcases ctx.session.awaiting.offer_cases payload.kind with ⟨-, hsame⟩ | ⟨_, -, -, htaken⟩
    · simp only [Eval.on_changeSession, hsame]
      exact framing.refl ctx
    · simp only [Eval.on_changeSession, htaken]
      exact steady.clear ctx
  · cases outcome with
    | matched pending =>
        exact .bind framing (steady.completeInput builtIn bound pending payload)
          fun _ => framing.refl
    | _ => exact framing.refl

theorem route (steady : e.Steady R) (builtIn : e.BuiltIn) (bound : Nat) (payload : Payload)
    (created : Bool) : (e.route bound payload created).Keeps R := by
  have framing := steady.framing
  have hrestart := steady.restart builtIn bound
  unfold Engine.route
  split
  · exact steady.routeCallback builtIn bound _ _
  · split
    · exact .bind framing steady.clear fun _ => hrestart
    · refine .bind framing (steady.captureInput builtIn bound payload) fun taken => ?_
      cases taken with
      | true => exact framing.refl
      | false =>
          simp only [Bool.false_eq_true, if_false]
          split
          · exact steady.runGraph builtIn bound _
          · split
            · exact hrestart
            · exact framing.refl

end Engine.Steady

namespace Engine.Lasting

variable {e : Engine σ} {R : Context σ → Context σ → Prop}

theorem onHost (lasting : e.Lasting R) {α : Type}
    {operation : σ → String → Except Failure α × σ}
    (haddresses : ∀ outside id, e.host.Addresses id outside (operation outside id).2) :
    (Director.onHost operation).Keeps R := by
  refine .bind lasting.framing (fun ctx => lasting.message ctx _ (haddresses _ _)) fun result => ?_
  cases result <;> exact lasting.framing.refl

theorem forget (lasting : e.Lasting R) (message : MessageId) :
    (Eval.updateSession fun session => session.forgetMessage message : Eval σ Unit).Keeps R :=
  fun ctx => lasting.belongings ctx _ _ _ _

/-- What survives every single change survives the steps that are put together from them. -/
theorem steady (lasting : e.Lasting R) : e.Steady R where
  toEnduring := lasting.toEnduring
  belongings ctx data storage := lasting.belongings ctx data storage _ _
  post := by
    intro d hhost name text options
    refine .bind lasting.framing (lasting.onHost fun outside id => ?_) fun message => ?_
    · rw [hhost]
      exact .send outside text options
    · exact .bind lasting.framing (fun ctx => lasting.belongings ctx _ _ _ _) fun _ =>
        lasting.framing.refl
  revise := by
    intro d hhost message text options
    refine .recover lasting.framing _ (lasting.onHost fun outside id => ?_) fun _ =>
      lasting.forget message
    rw [hhost]
    exact .edit outside message text options
  delete := by
    intro d hhost message
    refine .bind lasting.framing ?_ fun _ => lasting.forget message
    refine .recover lasting.framing _ (lasting.onHost fun outside id => ?_) fun _ =>
      lasting.framing.refl
    rw [hhost]
    exact .delete outside message

theorem runGraph (lasting : e.Lasting R) (builtIn : e.BuiltIn) (bound : Nat) (graph : Value) :
    (e.runGraph bound graph).Keeps R :=
  lasting.steady.runGraph builtIn bound graph

theorem route (lasting : e.Lasting R) (builtIn : e.BuiltIn) (bound : Nat) (payload : Payload)
    (created : Bool) : (e.route bound payload created).Keeps R :=
  lasting.steady.route builtIn bound payload created

end Engine.Lasting
end Dialogue
