import Dialogue.Proofs.Captures
import Dialogue.Proofs.Isolation
import Dialogue.Proofs.Remaining

/-!
# First contact

An event goes to one `Destination`, and `Engine.follow` is what it does there: routing is the one
after the other (`Engine.on_route`).  Wherever an event goes, a graph is run, unless it goes
nowhere.

Whether a session is new is known only to the event that creates it.  `Engine.Biography` tells
what a stored session has been through since then: which events were handled for it, and where
they went.  As long as all of them went nowhere, nothing waits for input in the session, and the
first of them was the press of a button (`Biography.ignored`).

* `Engine.first_contact_starts_unless_pressed`: in a session that has run no graph, an event that
  is neither a press, nor `/start`, nor a command runs the start actions exactly if it is the first
  event of the session.  Otherwise a press that was ignored has created the session, and the event
  does nothing.
-/

namespace Dialogue

variable {σ : Type}

/-- Where an event goes. -/
inductive Destination
  /-- It is ignored. -/
  | nowhere
  /-- To the graph of a button that was pressed in a message. -/
  | button (entry : Callback) (message : Option MessageId)
  /-- To the start actions, for `/start`. -/
  | restart
  /-- To a wait, whose answer it is. -/
  | answer (p : PendingInput)
  /-- To the graph of a command. -/
  | command (graph : Value)
  /-- To the start actions, for the event that creates its session. -/
  | start

/-- Neither the press of a button, nor `/start`, nor a command of the scenario. -/
structure Payload.Plain (payload : Payload) (scenario : Scenario) : Prop where
  press : ∀ data message, payload ≠ .callback data message
  start : payload.command? ≠ some Event.startCommand
  command : payload.command?.bind scenario.commandGraph? = none

namespace House

/-- The session under an identifier waits for nothing, if it is there at all. -/
def Idle (house : House σ) (id : String) : Prop :=
  ∀ stored, house.agenda.store.get? id = some stored → stored.session.awaiting.pending = none

/-- A list about the session that is stored under an identifier; it is empty if there is none. -/
def ofStored {α : Type} (house : House σ) (id : String) (items : List α) : List α :=
  if (house.agenda.store.get? id).isSome then items else []

theorem ofStored_cases {α : Type} (house : House σ) (id : String) (items : List α) :
    (∃ stored, house.agenda.store.get? id = some stored ∧ house.ofStored id items = items) ∨
    house.agenda.store.get? id = none ∧ house.ofStored id items = [] := by
  unfold ofStored
  cases house.agenda.store.get? id with
  | some stored => exact .inl ⟨stored, rfl, rfl⟩
  | none => exact .inr ⟨rfl, rfl⟩

theorem idle_of_none {house : House σ} {id : String}
    (h : house.agenda.store.get? id = none) : house.Idle id := by
  intro stored hget
  rw [h] at hget
  cases hget

end House

namespace Engine

variable (e : Engine σ)

/-- Where an event goes that is routed in a context. -/
def destination (ctx : Context σ) (payload : Payload) (created : Bool) : Destination :=
  match payload with
  | .callback data message =>
    match ctx.callbacks.get? data with
    | some entry => if entry.sessionId = ctx.session.id then .button entry message else .nowhere
    | none => .nowhere
  | _ =>
    if payload.command? = some Event.startCommand then .restart
    else
      match (ctx.session.awaiting.offer payload.kind).1 with
      | .matched p => .answer p
      | _ =>
        match payload.command?.bind e.scenario.commandGraph? with
        | some graph => .command graph
        | none => if created then .start else .nowhere

/-- What an event does at its destination. -/
def follow (bound : Nat) (payload : Payload) : Destination → Eval σ Unit
  | .nowhere => pure ()
  | .button entry message =>
    Eval.withParams entry.params
      (Eval.withLocals (pressLocals message) (e.runGraph bound entry.graph))
  | .restart => do
    Eval.updateSession fun session => { session with awaiting := session.awaiting.take }
    e.restart bound
  | .answer p => do
    Eval.updateSession fun session => { session with awaiting := session.awaiting.take }
    e.completeInput bound p payload
  | .command graph => e.runGraph bound graph
  | .start => e.restart bound

variable {e}

/-- Routing an event means to find its destination and to follow it there. -/
theorem on_route (bound : Nat) (payload : Payload) (created : Bool) (ctx : Context σ) :
    (e.route bound payload created).on ctx =
      (e.follow bound payload (e.destination ctx payload created)).on ctx := by
  unfold destination
  split
  · rename_i data message
    change (e.routeCallback bound data message).on ctx = _
    split
    · rename_i entry hentry
      split
      · rename_i howner
        exact on_routeCallback bound data message hentry howner
      · rename_i howner
        exact on_routeCallback_foreign bound data message hentry howner
    · rename_i hnone
      exact on_routeCallback_none bound data message hnone
  · rename_i hpress
    have hroute : e.route bound payload created =
        if payload.command? = some Event.startCommand then do
          Eval.updateSession fun session => { session with awaiting := session.awaiting.cancel.2 }
          e.restart bound
        else do
          let taken ← e.captureInput bound payload
          if taken then return ()
          else
            match payload.command?.bind e.scenario.commandGraph? with
            | some graph => e.runGraph bound graph
            | none => if created then e.restart bound else return () := by
      unfold route
      split
      · exact absurd rfl (hpress _ _)
      · rfl
    by_cases hstart : payload.command? = some Event.startCommand
    · rw [hroute, if_pos hstart, if_pos hstart]
      rfl
    · rw [if_neg hstart]
      split
      · rename_i p hmatched
        rw [route_of_matched bound payload created ctx hpress hstart hmatched,
          Awaiting.offer_of_matched hmatched]
        rfl
      · rename_i hunmatched
        rw [hroute, if_neg hstart,
          Eval.on_bind_ok (captureInput_of_unmatched bound payload ctx hunmatched)]
        cases payload.command?.bind e.scenario.commandGraph? with
        | some graph => rfl
        | none => cases created <;> rfl

/-! ## What an event finds -/

/-- An event creates its session exactly if there is none. -/
theorem created_eq (e : Engine σ) (house : House σ) (id : String) :
    (e.checkOut house id).2 = (house.agenda.store.get? id).isNone := by
  unfold checkOut SessionStore.getOrCreate
  cases house.agenda.store.get? id <;> rfl

/-- A session that waits for nothing when an event arrives does not when the event is routed. -/
theorem pending_received {house : House σ} {event : Event} (h : house.Idle event.sessionId) :
    (e.received house event).session.awaiting.pending = none := by
  have hout : (touch (e.checkOut house event.sessionId).1).session.awaiting.pending = none := by
    unfold checkOut SessionStore.getOrCreate
    cases hget : house.agenda.store.get? event.sessionId with
    | none => rfl
    | some stored => exact h stored hget
  unfold received endOverdue Awaiting.expireIfDue Awaiting.endIf
  rw [hout]
  exact hout

theorem unmatched_of_idle {a : Awaiting} (h : a.pending = none) (kind : EventKind) :
    (a.offer kind).1 = .idle := by
  unfold Awaiting.offer
  rw [h]

section

variable {ctx : Context σ} {payload : Payload}
  (hidle : ctx.session.awaiting.pending = none)
include hidle

/-- Where nothing is waited for, a plain event goes to the start actions or nowhere. -/
theorem destination_of_plain (hplain : payload.Plain e.scenario) (created : Bool) :
    e.destination ctx payload created = if created then .start else .nowhere := by
  unfold destination
  split
  · exact absurd rfl (hplain.press _ _)
  · rw [if_neg hplain.start, unmatched_of_idle hidle, hplain.command]

/-- The event that creates its session goes nowhere only if it is a press. -/
theorem exists_press_of_nowhere (h : e.destination ctx payload true = .nowhere) :
    ∃ data message, payload = .callback data message := by
  unfold destination at h
  split at h
  · exact ⟨_, _, rfl⟩
  · rw [unmatched_of_idle hidle] at h
    split at h
    · cases h
    · dsimp only at h
      split at h
      · cases h
      · cases h

end

/-- An event that goes nowhere does nothing. -/
theorem on_route_of_nowhere (bound : Nat) {payload : Payload} {created : Bool} {ctx : Context σ}
    (h : e.destination ctx payload created = .nowhere) :
    (e.route bound payload created).on ctx = (.ok (), ctx) := by
  rw [on_route, h]
  rfl

/-! ## Biographies -/

/-- Steps of a run other than the events of one session. -/
inductive Elsewhere (e : Engine σ) (id : String) : House σ → House σ → Prop
  | event (bound : Nat) (house : House σ) (event : Event) (h : id ≠ event.sessionId) :
      Elsewhere e id house (e.handle bound house event).2
  | advance (house : House σ) (time : Nanos) :
      Elsewhere e id house { house with agenda := house.agenda.advance time }
  | evict (house : House σ) (idle : Nanos) :
      Elsewhere e id house { house with
        agenda := { house.agenda with
          store := (house.agenda.store.evictIdle house.agenda.now idle).2 } }
  | remove (house : House σ) (sessionId : String) :
      Elsewhere e id house { house with
        agenda := { house.agenda with store := house.agenda.store.remove sessionId } }
  | watch (house : House σ) : Elsewhere e id house (e.watchIdle house)
  | outside (house : House σ) (outside : σ) : Elsewhere e id house { house with outside }

/-- An event of a session, and where it goes. -/
def visitOf (e : Engine σ) (house : House σ) (event : Event) : Payload × Destination :=
  (event.payload,
    e.destination (e.received house event) event.payload (e.checkOut house event.sessionId).2)

/-- The events that were handled for a session since it was created, and where they went. -/
inductive Biography (e : Engine σ) (id : String) : House σ → List (Payload × Destination) → Prop
  | new (outside : σ) : Biography e id (e.newHouse outside) []
  | visit {house : House σ} {visits : List (Payload × Destination)}
      (h : Biography e id house visits) (bound : Nat) (event : Event)
      (hown : event.sessionId = id) :
      Biography e id (e.handle bound house event).2
        ((e.handle bound house event).2.ofStored id (visits ++ [e.visitOf house event]))
  | elsewhere {house later : House σ} {visits : List (Payload × Destination)}
      (h : Biography e id house visits) (hstep : e.Elsewhere id house later) :
      Biography e id later (later.ofStored id visits)

variable {id : String} {house later : House σ} {visits : List (Payload × Destination)}

theorem Elsewhere.step (h : e.Elsewhere id house later) : e.Step house later := by
  cases h with
  | event bound house event => exact .event bound house event
  | advance house time => exact .advance house time
  | evict house idle => exact .evict house idle
  | remove house sessionId => exact .remove house sessionId
  | watch house => exact .watch house
  | outside house outside => exact .outside house outside

/-- What is stored afterwards was stored before, and was left alone. -/
theorem Elsewhere.remains (builtIn : e.BuiltIn) (hreach : e.Reachable house)
    (h : e.Elsewhere id house later) {after : StoredSession}
    (hafter : later.agenda.store.get? id = some after) :
    ∃ before, house.agenda.store.get? id = some before ∧
      before.session.Remains after.session := by
  have hrest := hreach.atRest builtIn
  have hquiet {agenda : Agenda} (hretains : house.agenda.Retains agenda)
      (hget : agenda.store.get? id = some after) :
      ∃ before, house.agenda.store.get? id = some before ∧
        before.session.Remains after.session := (hretains hrest.tidy).2 id after hget
  cases h with
  | event bound house event hother =>
      have hpassing := (isolated_event builtIn bound hrest event).records id hother
      rw [hafter] at hpassing
      generalize house.agenda.store.get? id = record at hpassing
      cases hpassing with
      | same => exact ⟨after, rfl, .inl rfl⟩
      | timedOut => exact ⟨_, rfl, .inr rfl⟩
  | advance house time => exact hquiet (Agenda.retains_lasting.advance _ time) hafter
  | evict house idle => exact hquiet (Agenda.retains_evict _ _ idle) hafter
  | remove house sessionId =>
      exact hquiet (Agenda.retains_remove _ sessionId) hafter
  | watch house => exact hquiet (Agenda.retains_lasting.startSweeper _ _ _) hafter
  | outside house outside => exact hquiet (Agenda.retains_lasting.refl _) hafter

/-- A session that waits for nothing and is left alone goes on so. -/
theorem Elsewhere.idle (builtIn : e.BuiltIn) (hreach : e.Reachable house)
    (h : e.Elsewhere id house later) (hidle : house.Idle id) : later.Idle id := by
  intro after hafter
  obtain ⟨before, hbefore, hremains⟩ := h.remains builtIn hreach hafter
  exact hremains.pending_eq_none (hidle before hbefore)

/-- So does a session whose event went nowhere. -/
theorem idle_handle_of_nowhere (builtIn : e.BuiltIn) (bound : Nat) {event : Event}
    (htidy : house.agenda.store.Tidy) (hidle : house.Idle event.sessionId)
    (hnowhere : (e.visitOf house event).2 = .nowhere) :
    (e.handle bound house event).2.Idle event.sessionId := by
  intro after hafter
  have hrouted : e.routed bound house event = e.received house event :=
    congrArg Prod.snd (on_route_of_nowhere bound hnowhere)
  obtain ⟨-, hkept⟩ := session_of_handle builtIn bound event htidy
  have hremains := hkept after hafter
  rw [hrouted] at hremains
  exact hremains.pending_eq_none (pending_received hidle)

namespace Biography

theorem reachable (h : e.Biography id house visits) : e.Reachable house := by
  induction h with
  | new outside => exact reachable_newHouse outside
  | visit _ bound event _ ih => exact ih.step (.event bound _ event)
  | elsewhere _ hstep ih => exact ih.step hstep.step

/-- A session that is stored has been visited, by the event that created it. -/
theorem eq_nil_iff (builtIn : e.BuiltIn) (h : e.Biography id house visits) :
    visits = [] ↔ house.agenda.store.get? id = none := by
  induction h with
  | new outside => exact iff_of_true rfl rfl
  | @visit house visits _ bound event _ _ =>
      rcases (e.handle bound house event).2.ofStored_cases id
        (visits ++ [e.visitOf house event]) with
        ⟨after, hafter, hvisits⟩ | ⟨hnone, hvisits⟩
      · rw [hvisits, hafter]
        simp
      · exact iff_of_true hvisits hnone
  | @elsewhere house later visits hpast hstep ih =>
      rcases later.ofStored_cases id visits with ⟨after, hafter, hvisits⟩ | ⟨hnone, hvisits⟩
      · obtain ⟨before, hbefore, -⟩ := hstep.remains builtIn hpast.reachable hafter
        rw [hvisits, ih, hbefore, hafter]
        simp
      · exact iff_of_true hvisits hnone

/-- If all events of a session went nowhere, it waits for nothing, and a press has created it. -/
theorem ignored (builtIn : e.BuiltIn) (h : e.Biography id house visits)
    (hignored : ∀ visit ∈ visits, visit.2 = .nowhere) :
    house.Idle id ∧ ∀ first rest, visits = first :: rest →
      ∃ data message, first.1 = .callback data message := by
  induction h with
  | new outside => exact ⟨House.idle_of_none rfl, nofun⟩
  | @visit house visits hpast bound event hown ih =>
      rcases (e.handle bound house event).2.ofStored_cases id
        (visits ++ [e.visitOf house event]) with
        ⟨-, -, hvisits⟩ | ⟨hnone, hvisits⟩
      · rw [hvisits] at hignored ⊢
        obtain ⟨hidle, hpress⟩ := ih fun visit hmem => hignored visit (List.mem_append_left _ hmem)
        have hnowhere : (e.visitOf house event).2 = .nowhere :=
          hignored _ (List.mem_append_right _ (List.mem_singleton.2 rfl))
        subst hown
        refine ⟨idle_handle_of_nowhere builtIn bound (hpast.reachable.atRest builtIn).tidy hidle
          hnowhere, fun first rest hfirst => ?_⟩
        cases visits with
        | nil =>
            -- this is the event that has created the session
            have hnone := (hpast.eq_nil_iff builtIn).1 rfl
            have hcreated : (e.checkOut house event.sessionId).2 = true := by
              rw [created_eq, hnone]
              rfl
            cases hfirst
            rw [visitOf, hcreated] at hnowhere
            exact exists_press_of_nowhere (pending_received hidle) hnowhere
        | cons earlier others =>
            cases hfirst
            exact hpress _ _ rfl
      · rw [hvisits]
        exact ⟨House.idle_of_none hnone, nofun⟩
  | @elsewhere house later visits hpast hstep ih =>
      rcases later.ofStored_cases id visits with ⟨-, -, hvisits⟩ | ⟨hnone, hvisits⟩
      · rw [hvisits] at hignored ⊢
        obtain ⟨hidle, hpress⟩ := ih hignored
        exact ⟨hstep.idle builtIn hpast.reachable hidle, hpress⟩
      · rw [hvisits]
        exact ⟨House.idle_of_none hnone, nofun⟩

/-- A biography goes on with every step. -/
theorem step (h : e.Biography id house visits) (hstep : e.Step house later) :
    ∃ visits, e.Biography id later visits := by
  cases hstep with
  | event bound house event =>
      by_cases hown : event.sessionId = id
      · exact ⟨_, h.visit bound event hown⟩
      · exact ⟨_, h.elsewhere (.event bound house event fun heq => hown heq.symm)⟩
  | advance house time => exact ⟨_, h.elsewhere (.advance house time)⟩
  | evict house idle => exact ⟨_, h.elsewhere (.evict house idle)⟩
  | remove house sessionId => exact ⟨_, h.elsewhere (.remove house sessionId)⟩
  | watch house => exact ⟨_, h.elsewhere (.watch house)⟩
  | outside house outside => exact ⟨_, h.elsewhere (.outside house outside)⟩

end Biography

/-- In every house of a run each session has a biography. -/
theorem Reachable.biography (h : e.Reachable house) (id : String) :
    ∃ visits, e.Biography id house visits :=
  h.induct (P := fun house => ∃ visits, e.Biography id house visits)
    (fun outside => ⟨[], .new outside⟩) fun hstep ⟨_, hpast⟩ => hpast.step hstep

/-! ## The first event that is no press -/

/-- What an event does whose destination is known. -/
theorem handle_of_destination (bound : Nat) (event : Event) {place : Destination}
    (h : (e.visitOf house event).2 = place) :
    let after := (e.follow bound event.payload place).on (e.received house event)
    (e.handle bound house event).1 = after.1 ∧ e.routed bound house event = after.2 := by
  intro after
  have hroute : (e.route bound event.payload (e.checkOut house event.sessionId).2).on
      (e.received house event) = after := by
    rw [on_route]
    exact congrArg (fun place => (e.follow bound event.payload place).on _) h
  rw [fst_handle]
  exact ⟨congrArg Prod.fst hroute, congrArg Prod.snd hroute⟩

/-- In a session that has run no graph, an event that is neither a press, nor `/start`, nor a
command runs the start actions if it is the first event of the session.  If it is not, then the
first one was a press, which has created the session and was ignored, and the event does
nothing. -/
theorem first_contact_starts_unless_pressed (builtIn : e.BuiltIn)
    (h : e.Biography id house visits) (hignored : ∀ visit ∈ visits, visit.2 = .nowhere)
    (bound : Nat) (event : Event) (hown : event.sessionId = id)
    (hplain : event.payload.Plain e.scenario) :
    let before := e.received house event
    let later := e.handle bound house event
    (visits = [] →
      later.1 = ((e.restart bound).on before).1 ∧
      e.routed bound house event = ((e.restart bound).on before).2) ∧
    ∀ first rest, visits = first :: rest →
      (∃ data message, first = (.callback data message, .nowhere)) ∧
      later.1 = .ok () ∧ e.routed bound house event = before ∧
      later.2.outside = house.outside := by
  intro before later
  subst hown
  obtain ⟨hidle, hpress⟩ := h.ignored builtIn hignored
  have hplace : (e.visitOf house event).2 =
      if (e.checkOut house event.sessionId).2 then .start else .nowhere :=
    destination_of_plain (pending_received hidle) hplain _
  rw [created_eq] at hplace
  refine ⟨fun hnone => ?_, fun first rest hvisits => ?_⟩
  · rw [(h.eq_nil_iff builtIn).1 hnone] at hplace
    exact handle_of_destination bound event hplace
  · have hstored : house.agenda.store.get? event.sessionId ≠ none := fun hnone =>
      absurd ((h.eq_nil_iff builtIn).2 hnone) (hvisits ▸ List.cons_ne_nil _ _)
    rw [Option.isNone_eq_false_iff.2 (Option.isSome_iff_ne_none.2 hstored)] at hplace
    obtain ⟨houtcome, hrouted⟩ := handle_of_destination bound event hplace
    obtain ⟨data, message, hdata⟩ := hpress first rest hvisits
    have hnowhere : first.2 = .nowhere := hignored first (hvisits ▸ List.mem_cons_self)
    refine ⟨⟨data, message, Prod.ext hdata hnowhere⟩, houtcome, hrouted, ?_⟩
    obtain ⟨houtside, -⟩ := e.shared_handle bound house event
    rw [houtside, hrouted]
    exact outside_received house event

/-- A session whose first event is the press of a button that is not there. -/
def pressed : House (List String) :=
  (greeter.handle 6 (greeter.newHouse []) ⟨"eve", .callback "cb:9" none⟩).2

theorem biography_pressed :
    greeter.Biography "eve" pressed [(.callback "cb:9" none, .nowhere)] := by
  let press : Event := ⟨"eve", .callback "cb:9" none⟩
  have hunknown :
      ((greeter.received (greeter.newHouse []) press).callbacks.get? "cb:9").isNone := by
    decide
  have hplace :
      greeter.visitOf (greeter.newHouse []) press = (.callback "cb:9" none, .nowhere) := by
    simp only [visitOf, destination, press, Option.isNone_iff_eq_none.1 hunknown]
  have hstored : (pressed.agenda.store.get? "eve").isSome := by decide
  have hkept : pressed.ofStored "eve" [(.callback "cb:9" none, .nowhere)] =
      [(Payload.callback "cb:9" none, Destination.nowhere)] := if_pos hstored
  have hnew : greeter.Biography "eve" (greeter.newHouse []) [] := .new []
  have hpressed := hnew.visit 6 press rfl
  rw [hplace] at hpressed
  rw [← hkept]
  exact hpressed

theorem plain_hello : (Event.ofText "eve" "hello").payload.Plain greeter.scenario :=
  ⟨nofun, by decide, rfl⟩

/-- The first text of a session is answered with the greeting, and that of the session whose
press was ignored with nothing. -/
theorem greeting_answers_first_text :
    let hello := Event.ofText "eve" "hello"
    let house := greeter.newHouse []
    (greeter.routed 6 house hello = ((greeter.restart 6).on (greeter.received house hello)).2 ∧
      (greeter.handle 6 house hello).2.outside = ["eve"]) ∧
    (greeter.handle 6 pressed hello).1 = .ok () ∧
      greeter.routed 6 pressed hello = greeter.received pressed hello ∧
      (greeter.handle 6 pressed hello).2.outside = [] := by
  intro hello house
  have builtIn : greeter.BuiltIn := ⟨rfl, rfl⟩
  have hplain : hello.payload.Plain greeter.scenario := plain_hello
  obtain ⟨hstarts, -⟩ := first_contact_starts_unless_pressed builtIn
    (.new []) (List.forall_mem_nil _) 6 hello rfl hplain
  obtain ⟨-, hnothing⟩ := first_contact_starts_unless_pressed builtIn
    biography_pressed (List.forall_mem_singleton.2 rfl) 6 hello rfl hplain
  obtain ⟨-, houtcome, hrouted, houtside⟩ := hnothing _ _ rfl
  have hsilent : pressed.outside = [] := by decide
  exact ⟨⟨(hstarts rfl).2, by decide +kernel⟩, houtcome, hrouted, houtside.trans hsilent⟩

/-- After a press that was ignored, and nothing else, the first text does not run the start
actions, which would send the greeting. -/
theorem pressed_session_is_not_greeted :
    let hello := Event.ofText "eve" "hello"
    let started := ((greeter.restart 6).on (greeter.received pressed hello)).2
    greeter.BuiltIn ∧ greeter.Biography "eve" pressed [(.callback "cb:9" none, .nowhere)] ∧
      hello.payload.Plain greeter.scenario ∧ started.outside = ["eve"] ∧
      (greeter.routed 6 pressed hello).outside = [] ∧ greeter.routed 6 pressed hello ≠ started := by
  intro hello started
  have hstarted : started.outside = ["eve"] := by decide +kernel
  have hsilent : (greeter.routed 6 pressed hello).outside = [] := by decide
  refine ⟨⟨rfl, rfl⟩, biography_pressed, plain_hello, hstarted, hsilent, fun hsame => ?_⟩
  rw [hsame, hstarted] at hsilent
  cases hsilent

end Engine
end Dialogue
