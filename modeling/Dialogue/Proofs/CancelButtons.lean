import Dialogue.Proofs.Timeouts

/-!
# Cancel buttons

The prompt of a wait may have a button that ends the wait.  The callback of the button names
the session and the action, and not the wait.  So as long as the button works, its press ends
whatever wait the session has by then, and runs the cancel graph of that wait; and if the
session has none the press does nothing.

`Engine.cancel_button_ends_what_is_pending` says this of every run.  In particular the press
leaves waits of other generations alone only where there are none
(`Engine.old_button_ends_later_wait` is a run in which there is one).
-/

namespace Dialogue

/-- The callback of a button that ends the wait of a session. -/
def Input.cancelCallback (sessionId : String) : Callback :=
  { sessionId, graph := Input.cancelGraph, params := [] }

namespace Engine

variable {σ : Type} {e : Engine σ} {ctx : Context σ}

/-- The button is shown under the identifier that its callback has. -/
theorem on_cancelRow (text : String) (ctx : Context σ) :
    (Input.cancelRow text).on ctx =
      let inserted := ctx.callbacks.insert (Input.cancelCallback ctx.session.id)
      (.ok [{ text, callbackId := some inserted.1 }], { ctx with callbacks := inserted.2 }) :=
  rfl

/-- Ends the wait that is pending, if there is one, and runs its cancel graph. -/
def endPending (e : Engine σ) (bound : Nat) : Eval σ Unit := do
  let pending? ← Eval.changeSession fun session =>
    (session.awaiting.pending, { session with awaiting := session.awaiting.take })
  match pending? with
  | none => return ()
  | some pending => e.runGraph bound pending.request.onCancel

theorem on_endPending_of_idle (bound : Nat) (h : ctx.session.awaiting.pending = none) :
    (e.endPending bound).on ctx = (.ok (), ctx) := by
  have htake : ctx.session.awaiting.take = ctx.session.awaiting := by
    simp [Awaiting.take, ← h]
  refine Eval.on_bind_ok (a := none) ?_
  simp only [Eval.on_changeSession, h, htake]

theorem on_endPending_of_pending (bound : Nat) {p : PendingInput}
    (h : ctx.session.awaiting.pending = some p) :
    (e.endPending bound).on ctx = (e.runGraph bound p.request.onCancel).on
      (ctx.withAwaiting ctx.session.awaiting.take) := by
  refine Eval.on_bind_ok (a := some p) ?_
  simp only [Eval.on_changeSession, h]
  rfl

/-- What a press of the button runs. -/
def cancelPress (e : Engine σ) (bound : Nat) (message : Option MessageId) : Eval σ Unit :=
  Eval.withParams [] (Eval.withLocals (pressLocals message)
    ((Eval.withAction [] (e.endPending bound)).recover isTransport fun _ => pure ()))

theorem runGraph_cancelGraph (builtIn : e.BuiltIn) (bound : Nat) :
    e.runGraph (bound + 1) Input.cancelGraph =
      (Eval.withAction [] (e.endPending bound)).recover isTransport fun _ => pure () := by
  have hprocessor : e.actions.resolve? "CancelAwaitingInput" =
      some (Processor.named "CancelAwaitingInput" Input.cancel).2 := by
    rw [builtIn.actions]
    cbv
  have hitems : Input.cancelGraph.graphItems = [Input.cancelGraph] := by rfl
  have hname : Value.nameUnder Value.actionKey [("action", .string "CancelAwaitingInput")] =
      some "CancelAwaitingInput" := by rfl
  have hrun : e.runAction (bound + 1) Input.cancelGraph =
      (Eval.withAction [] (e.endPending bound)).recover isTransport fun _ => pure () := by
    simp only [runAction, runActionWith, Input.cancelGraph, hname, hprocessor]
    rfl
  simp only [runGraph, director, directorWith, runGraphWith, hitems, List.forM_eq_forM,
    List.forM_cons, List.forM_nil, hrun, bind_pure_unit]

/-- The press of a button that ends the wait. -/
theorem route_press (builtIn : e.BuiltIn) (bound : Nat) {id : String}
    (message : Option MessageId) (created : Bool)
    (hentry : ctx.callbacks.get? id = some (Input.cancelCallback ctx.session.id)) :
    (e.route (bound + 1) (.callback id message) created).on ctx =
      (e.cancelPress bound message).on ctx := by
  have hgraph := e.runGraph_cancelGraph builtIn bound
  rw [cancelPress, ← hgraph]
  exact on_routeCallback (bound + 1) id message hentry rfl

/-- Where nothing is pending the press changes nothing. -/
theorem on_cancelPress_of_idle (bound : Nat) (message : Option MessageId)
    (h : ctx.session.awaiting.pending = none) :
    (e.cancelPress bound message).on ctx = (.ok (), ctx) := by
  let inner : Context σ :=
    { ctx with params := [], scope := (ctx.scope.push (pressLocals message)).pushAction [] }
  have hidle : (e.endPending bound).on inner = (.ok (), inner) := on_endPending_of_idle bound h
  simp only [cancelPress, Eval.on_withParams, Eval.on_withLocals, Eval.on_recover,
    Eval.on_withAction]
  rw [hidle]
  simp [inner]

/-- Where a wait is pending the press ends it for good. -/
theorem over_cancelPress (builtIn : e.BuiltIn) (bound : Nat) (message : Option MessageId)
    {p : PendingInput} (h : ctx.session.awaiting.pending = some p)
    (hle : p.generation ≤ ctx.session.awaiting.generation) :
    ((e.cancelPress bound message).on ctx).2.session.awaiting.Over p := by
  let inner : Context σ :=
    { ctx with params := [], scope := (ctx.scope.push (pressLocals message)).pushAction [] }
  have hover : ((e.endPending bound).on inner).2.session.awaiting.Over p := by
    have hinner : inner.session.awaiting.pending = some p := h
    -- the wait is taken away first, and the cancel graph cannot bring it back
    rw [on_endPending_of_pending bound hinner]
    exact (e.over_lasting p).runGraph builtIn bound p.request.onCancel _ (Awaiting.over_take hle)
  simp only [cancelPress, Eval.on_withParams, Eval.on_withLocals, Eval.snd_on_recover,
    Eval.on_withAction]
  exact hover

/-- A cancel button is parked for its session under the identifier it shows.  Along a run this
identifier leads to the same callback or to none.  Wherever it still leads to the callback, a
press ends the wait that is pending, of whatever generation, and runs the cancel graph of that
wait; and it does nothing if no wait is pending.  So it spares the waits of other generations
only where none of them is pending. -/
theorem cancel_button_ends_what_is_pending (builtIn : e.BuiltIn) :
    (∀ text (ctx : Context σ), ctx.callbacks.nextNumber ≤ Decimal.wordLimit →
      ∃ id after, (Input.cancelRow text).on ctx = (.ok [{ text, callbackId := some id }], after) ∧
        after.callbacks.get? id = some (Input.cancelCallback ctx.session.id)) ∧
    (∀ house later id entry, e.Reaches house later → house.callbacks.get? id = some entry →
      later.callbacks.get? id = some entry ∨ later.callbacks.get? id = none) ∧
    ∀ house, e.Reachable house → ∀ bound id message sessionId created,
      house.callbacks.get? id = some (Input.cancelCallback sessionId) →
      let press : Event := ⟨sessionId, .callback id message⟩
      let found := e.received house press
      (found.session.awaiting.pending = none → e.routed (bound + 1) house press = found) ∧
      (∀ p, found.session.awaiting.pending = some p →
        (e.routed (bound + 1) house press).session.awaiting.Over p ∧
        (e.route (bound + 1) press.payload created).on found =
          (e.cancelPress bound message).on found) ∧
      ∀ generation,
        (∀ p, found.session.awaiting.pending = some p → p.generation ≠ generation →
          (e.routed (bound + 1) house press).session.awaiting.pending = some p) ↔
        ∀ p, found.session.awaiting.pending = some p → p.generation = generation := by
  refine ⟨fun text ctx hnumber => ?_, fun house later id entry hreaches hentry => ?_, ?_⟩
  · exact ⟨_, _, on_cancelRow text ctx, ctx.callbacks.get?_insert_self _ hnumber⟩
  · exact (hreaches.extends builtIn).same_or_none hentry
  · intro house hhouse bound id message sessionId created hentry press found
    have htidy := (hhouse.chronicle builtIn).1
    have hsession : found.session.id = sessionId := (accounts_handle builtIn bound press htidy).2.1
    have hfound : found.callbacks.get? id = some (Input.cancelCallback found.session.id) := by
      rw [callbacks_received, hentry, hsession]
    have hroute (created : Bool) := route_press builtIn bound message created hfound
    have hrouted : e.routed (bound + 1) house press = ((e.cancelPress bound message).on found).2 :=
      congrArg Prod.snd (hroute _)
    have hover : ∀ p, found.session.awaiting.pending = some p →
        (e.routed (bound + 1) house press).session.awaiting.Over p := by
      intro p hpending
      rw [hrouted]
      exact over_cancelPress builtIn bound message hpending
        (generation_le_of_received builtIn hhouse press hpending)
    refine ⟨fun hidle => ?_, fun p hpending => ⟨hover p hpending, hroute created⟩, ?_⟩
    · rw [hrouted, on_cancelPress_of_idle bound message hidle]
    · intro generation
      constructor
      · -- a wait that is over is not spared
        intro hspares p hpending
        by_contra hother
        exact (hover p hpending).pending_ne (hspares p hpending hother)
      · intro hown p hpending hother
        exact absurd (hown p hpending) hother

/-- Asks for a name, with a button that ends the wait, and then for an age. -/
def twoQuestions : Scenario where
  startActions := .object [("action", .string "RequestInput"), ("cancelText", .string "Stop"),
    ("key", .string "name"), ("onDone", .object [("action", .string "RequestInput"),
      ("key", .string "age"), ("onCancel", .object (saying "Cancelled"))]),
    ("text", .string "Name?")]

/-- An engine that asks both questions. -/
def questioner : Engine (List String) := { scribe with scenario := twoQuestions }

/-- The first question is asked. -/
def askedForName : House (List String) :=
  (questioner.handle 6 (questioner.newHouse []) (.ofText "s" Event.startCommand)).2

/-- The first question is answered and the second one is asked. -/
def askedForAge : House (List String) :=
  (questioner.handle 6 askedForName (.ofText "s" "Ada")).2

/-- The button below the first question. -/
def stopButton : Event := ⟨"s", .callback "cb:0" none⟩

/-- Whether a graph does nothing but cancel. -/
def onlyCancels : Value → Bool
  | .object [(key, .string name)] => key == "action" && name == "CancelAwaitingInput"
  | _ => false

theorem eq_cancelGraph {graph : Value} (h : onlyCancels graph = true) :
    graph = Input.cancelGraph := by
  unfold onlyCancels at h
  split at h
  · simp only [Bool.and_eq_true, beq_iff_eq] at h
    rw [h.1, h.2]
    rfl
  · cases h

theorem stopButton_asked :
    askedForName.callbacks.get? "cb:0" = some (Input.cancelCallback "s") := by
  have hentry : (askedForName.callbacks.get? "cb:0").map
      (fun entry => (entry.sessionId, onlyCancels entry.graph, entry.params.length)) =
      some ("s", true, 0) := by
    decide +kernel
  obtain ⟨⟨sessionId, graph, params⟩, hget, hshape⟩ := Option.map_eq_some_iff.1 hentry
  obtain ⟨rfl, hcancels, hparams⟩ : sessionId = "s" ∧ onlyCancels graph = true ∧
      params.length = 0 := by
    simpa using hshape
  rw [hget, eq_cancelGraph hcancels, List.length_eq_zero_iff.1 hparams]
  rfl

/-- Pressed in time, the button ends the wait that it was shown with, and no other. -/
theorem stopButton_in_time :
    questioner.BuiltIn ∧ questioner.Reachable askedForName ∧
    askedForName.callbacks.get? "cb:0" = some (Input.cancelCallback "s") ∧
    ∃ p, (questioner.received askedForName stopButton).session.awaiting.pending = some p ∧
      p.generation = 1 ∧
      (questioner.routed 6 askedForName stopButton).session.awaiting.Over p := by
  have hbuiltIn : questioner.BuiltIn := ⟨rfl, rfl⟩
  have hreachable : questioner.Reachable askedForName :=
    (reachable_newHouse []).step (.event 6 _ _)
  have hpending : (questioner.received askedForName stopButton).session.awaiting.pending.map
      (fun p => p.generation) = some 1 := by
    decide +kernel
  obtain ⟨p, hp, hgeneration⟩ := Option.map_eq_some_iff.1 hpending
  obtain ⟨-, -, hpress⟩ := cancel_button_ends_what_is_pending hbuiltIn
  obtain ⟨-, hended, -⟩ := hpress askedForName hreachable 5 "cb:0" none "s" false stopButton_asked
  exact ⟨hbuiltIn, hreachable, stopButton_asked, p, hp, hgeneration, (hended p hp).1⟩

/-- Pressed once the first question was answered, the button ends the wait of the second one,
and runs the cancel graph of that wait. -/
theorem old_button_ends_later_wait :
    questioner.BuiltIn ∧ questioner.Reachable askedForName ∧
    questioner.Reaches askedForName askedForAge ∧
    askedForName.callbacks.get? "cb:0" = some (Input.cancelCallback "s") ∧
    (askedForName.agenda.store.get? "s").map (fun stored =>
      stored.session.awaiting.pending.map fun p => p.generation) = some (some 1) ∧
    (questioner.received askedForAge stopButton).session.awaiting.pending.map
      (fun p => p.generation) = some 2 ∧
    (questioner.routed 6 askedForAge stopButton).session.awaiting.pending.map
      (fun p => p.generation) = none ∧
    (questioner.routed 6 askedForAge stopButton).outside = ["Cancelled", "Name?"] := by
  have hruns : (askedForName.agenda.store.get? "s").map (fun stored =>
        stored.session.awaiting.pending.map fun p => p.generation) = some (some 1) ∧
      (questioner.received askedForAge stopButton).session.awaiting.pending.map
        (fun p => p.generation) = some 2 ∧
      (questioner.routed 6 askedForAge stopButton).session.awaiting.pending.map
        (fun p => p.generation) = none ∧
      (questioner.routed 6 askedForAge stopButton).outside = ["Cancelled", "Name?"] := by
    decide +kernel
  exact ⟨⟨rfl, rfl⟩, (reachable_newHouse []).step (.event 6 _ _),
    .single (.event 6 _ (.ofText "s" "Ada")), stopButton_asked, hruns⟩

end Engine
end Dialogue
