import Dialogue.Proofs.Capacity
import Dialogue.Proofs.Deadlines
import Dialogue.Proofs.Passing

/-!
# Isolation

Sessions share the callback table, the transport and the clock.  Handling an event of one
session nevertheless leaves the others alone:

* their records change only as they would have, had the time that calls took just passed
  (`Agenda.Passing`),
* whatever is said is said to the session of the event (`Engine.Converses`),
* whatever is added to the callback table belongs to it, and what others have there stays as
  long as there is room,
* a press of a button of another session does nothing.

`Context.Isolates` is what each single change of a context keeps, `Engine.isolating` carries it
through a whole dispatch, and `Engine.sessions_are_isolated` says what an event does in any
house that a run leads to.
-/

namespace Dialogue

variable {σ : Type}

/-- What happens outside on behalf of a session, and when: it is sent a message, or a message of
it is edited or deleted, which takes no time; or an endpoint is called, which does. -/
inductive Engine.Converses (e : Engine σ) (id : String) : σ × Nanos → σ × Nanos → Prop
  | message {before after : σ} (now : Nanos) (h : e.host.Addresses id before after) :
      Converses e id (before, now) (after, now)
  | call (outside : σ) (now : Nanos) (request : EndpointRequest) (span : Nanos) :
      Converses e id (outside, now) ((e.host.call outside request).2, now + span)

/-! ## Dispatch -/

namespace Context

variable {e : Engine σ} {before between after : Context σ}

/-- What a dispatch of the session of a context keeps. -/
structure Isolates (e : Engine σ) (before after : Context σ) : Prop where
  session : after.session.id = before.session.id
  timely : before.agenda.Timely → after.agenda.Timely
  course : ∀ start : Agenda, let own := some before.session.id
    start.Course own own before.agenda → before.agenda.Carries (start.Expects own) →
    start.Course own own after.agenda ∧ after.agenda.Carries (start.Expects own)
  conversation : Relation.ReflTransGen (e.Converses before.session.id)
    (before.outside, before.agenda.now) (after.outside, after.agenda.now)
  callbacks : ∃ entries, (∀ entry ∈ entries, entry.sessionId = before.session.id) ∧
    after.callbacks = before.callbacks.insertAll entries

theorem isolates_of_eq (hid : after.session.id = before.session.id)
    (hagenda : after.agenda = before.agenda) (hcallbacks : after.callbacks = before.callbacks)
    (houtside : after.outside = before.outside) : before.Isolates e after where
  session := hid
  timely h := hagenda ▸ h
  course _ h hexpects := hagenda ▸ ⟨h, hexpects⟩
  conversation := by rw [hagenda, houtside]
  callbacks := ⟨[], List.forall_mem_nil _, hcallbacks⟩

theorem Isolates.trans (hfirst : before.Isolates e between) (hsecond : between.Isolates e after) :
    before.Isolates e after := by
  obtain ⟨hid, htimely, hcourse, hconversation, past, hpast, hbetween⟩ := hfirst
  obtain ⟨hid', htimely', hcourse', hconversation', present, hpresent, hafter⟩ := hsecond
  rw [hid] at hcourse' hconversation' hpresent
  constructor
  case session => exact hid'.trans hid
  case timely => exact fun h => htimely' (htimely h)
  case course =>
    intro start own h hexpects
    obtain ⟨hmiddle, hmiddleExpects⟩ := hcourse start h hexpects
    exact hcourse' start hmiddle hmiddleExpects
  case conversation => exact hconversation.trans hconversation'
  case callbacks =>
    refine ⟨past ++ present, fun entry hentry => ?_, ?_⟩
    · rcases List.mem_append.1 hentry with hold | hnew
      · exact hpast entry hold
      · exact hpresent entry hnew
    · rw [CallbackTable.insertAll_append, ← hbetween, hafter]

/-- A timer that is set is one of the session. -/
theorem isolates_arm (ctx : Context σ) (request : InputRequest) :
    ctx.Isolates e ((Input.arm request).on ctx).2 := by
  simp only [Input.arm, Eval.on_update]
  cases request.timeout with
  | none => exact isolates_of_eq rfl rfl rfl rfl
  | some timeout =>
      dsimp only
      constructor
      case session => rfl
      case timely => exact fun h => h.schedule _ _
      case course =>
        intro start own h hexpects
        exact ⟨h.plan le_rfl _ _, hexpects.schedule _ _ (.inr ⟨_, rfl, rfl⟩)⟩
      case conversation => exact .refl
      case callbacks => exact ⟨[], List.forall_mem_nil _, rfl⟩

theorem isolates_callback (ctx : Context σ) (entry : Callback)
    (howner : entry.sessionId = ctx.session.id) :
    ctx.Isolates e { ctx with callbacks := (ctx.callbacks.insert entry).2 } where
  session := rfl
  timely := id
  course _ h hexpects := ⟨h, hexpects⟩
  conversation := .refl
  callbacks := by
    refine ⟨[entry], fun other hother => ?_, rfl⟩
    rw [List.mem_singleton.1 hother]
    exact howner

theorem isolates_message (ctx : Context σ) {outside : σ}
    (h : e.host.Addresses ctx.session.id ctx.outside outside) :
    ctx.Isolates e { ctx with outside } where
  session := rfl
  timely := id
  course _ h hexpects := ⟨h, hexpects⟩
  conversation := .single (.message _ h)
  callbacks := ⟨[], List.forall_mem_nil _, rfl⟩

/-- While a call takes time the others are left to themselves. -/
theorem isolates_call (ctx : Context σ) (request : EndpointRequest) (span : Nanos) :
    ctx.Isolates e { ctx with
      outside := (e.host.call ctx.outside request).2, agenda := ctx.agenda.pause span } where
  session := rfl
  timely h := h.pause span
  course _ h hexpects := ⟨h.pause hexpects span, hexpects.pause span⟩
  conversation := by
    rw [Agenda.now_pause]
    exact .single (.call _ _ request span)
  callbacks := ⟨[], List.forall_mem_nil _, rfl⟩

end Context

namespace Engine

variable {e : Engine σ}

theorem isolating (e : Engine σ) : e.Lasting (Context.Isolates e) where
  framing :=
    { refl := fun _ => Context.isolates_of_eq rfl rfl rfl rfl
      trans := .trans
      locals := fun _ ⟨hid, htimely, hcourse, hconversation, hcallbacks⟩ =>
        ⟨hid, htimely, hcourse, hconversation, hcallbacks⟩
      action := fun _ ⟨hid, htimely, hcourse, hconversation, hcallbacks⟩ =>
        ⟨hid, htimely, hcourse, hconversation, hcallbacks⟩
      params := fun _ ⟨hid, htimely, hcourse, hconversation, hcallbacks⟩ =>
        ⟨hid, htimely, hcourse, hconversation, hcallbacks⟩ }
  advances := by
    rintro before _ ⟨storage, effects, -, -, rfl⟩
    exact Context.isolates_of_eq rfl rfl rfl rfl
  effects _ := Context.isolates_of_eq rfl rfl rfl rfl
  belongings _ _ _ _ _ := Context.isolates_of_eq rfl rfl rfl rfl
  navigation _ _ _ := Context.isolates_of_eq rfl rfl rfl rfl
  arm := Context.isolates_arm
  clear _ := Context.isolates_of_eq rfl rfl rfl rfl
  callback ctx _ _ := ctx.isolates_callback _ rfl
  message ctx _ h := ctx.isolates_message h
  call := Context.isolates_call

/-! ## Events -/

theorem get?_received_of_ne (house : House σ) (event : Event) {id : String}
    (h : id ≠ event.sessionId) :
    (e.received house event).agenda.store.get? id = house.agenda.store.get? id := by
  have hout : (e.checkOut house event.sessionId).1.agenda.store.get? id =
      house.agenda.store.get? id := by
    unfold checkOut SessionStore.getOrCreate
    dsimp only
    split
    · rw [SessionStore.get?_put, if_neg h]
    · rw [SessionStore.get?_put, if_neg h]
      exact (SessionStore.get?_put _ _ _ _).trans (if_neg h)
  rw [← hout]
  unfold received endOverdue
  split <;> rfl

/-- When an event is routed, its session is the only one that is locked. -/
theorem course_received {house : House σ} (h : house.agenda.AtRest) (event : Event) :
    let own := some event.sessionId
    house.agenda.Course own own (e.received house event).agenda ∧
    (e.received house event).agenda.Carries (house.agenda.Expects own) := by
  intro own
  obtain ⟨hnow, halarms, hready, hheld⟩ := plan_received (e := e) house event
  have hother {id : String} (hid : own ≠ some id) :
      (e.received house event).agenda.store.get? id = house.agenda.store.get? id :=
    get?_received_of_ne house event fun heq => hid (congrArg some heq.symm)
  refine ⟨⟨(e.guarded_received h.tidy event).1.tidy, fun id stored hget hlocked => ?_, ?_,
    fun id hid => ?_⟩, (h.expects own).of_eq halarms hready⟩
  · by_contra hid
    rw [hother hid] at hget
    rw [h.unlocked id stored hget] at hlocked
    cases hlocked
  · rw [hheld, h.heldBack]
    nofun
  · rw [hother hid]
    exact .same _

/-- The release of a session takes no time, and changes neither callbacks nor what is outside. -/
theorem shared_handle (e : Engine σ) (bound : Nat) (house : House σ) (event : Event) :
    let later := (e.handle bound house event).2
    later.outside = (e.routed bound house event).outside ∧
    later.agenda.now = (e.routed bound house event).agenda.now ∧
    later.callbacks = (e.routed bound house event).callbacks := by
  intro later
  have hlater : later = checkIn (touch (e.routed bound house event)) := handle_eq bound house event
  refine ⟨?_, ?_, ?_⟩
  · rw [hlater]
    rfl
  · rw [hlater, checkIn, Agenda.now_release]
    rfl
  · rw [hlater, callbacks_checkIn, callbacks_touch]

/-- What an event leads to is a course at whose end no session is locked. -/
theorem isolated_handle (builtIn : e.BuiltIn) (bound : Nat) {house : House σ}
    (h : house.agenda.AtRest) (event : Event) :
    let later := (e.handle bound house event).2
    later.agenda.AtRest ∧ house.agenda.Course (some event.sessionId) none later.agenda ∧
    Relation.ReflTransGen (e.Converses event.sessionId) (house.outside, house.agenda.now)
      (later.outside, later.agenda.now) ∧
    ∃ entries, (∀ entry ∈ entries, entry.sessionId = event.sessionId) ∧
      later.callbacks = house.callbacks.insertAll entries := by
  obtain ⟨-, hid⟩ := e.guarded_received h.tidy event
  obtain ⟨hnow, halarms, hready, -⟩ := plan_received (e := e) house event
  obtain ⟨hreceived, hreceivedExpects⟩ := e.course_received h event
  obtain ⟨hsame, htimely, hcourse, hconversation, entries, howned, hentries⟩ :=
    e.isolating.route builtIn bound event.payload (e.checkOut house event.sessionId).2
      (e.received house event)
  rw [hid] at hsame hcourse hconversation howned
  obtain ⟨hrouted, hexpects⟩ := hcourse house.agenda hreceived hreceivedExpects
  have hroutedTimely := htimely (h.timely.of_eq hnow halarms hready)
  -- the session is put back under its lock, which is then released
  have hown : some event.sessionId = some (e.routed bound house event).session.id :=
    congrArg some hsame.symm
  have hstowed : house.agenda.Course (some event.sessionId) (some event.sessionId)
      (e.stowed bound house event) := hrouted.put hown rfl fun _ => hown
  have hstowedTimely : (e.stowed bound house event).Timely := hroutedTimely.of_eq rfl rfl rfl
  have hreleased := hstowed.release (hexpects.of_eq rfl rfl)
  have hagenda := agenda_handle (e := e) bound house event
  rw [← Option.some.inj hown] at hagenda
  rw [← hagenda] at hreleased
  obtain ⟨houtside, hnowLater, hcallbacks⟩ := e.shared_handle bound house event
  refine ⟨.of_course hreleased ?_ ?_, hreleased, ?_, entries, howned, ?_⟩
  · rw [hagenda]
    exact hstowedTimely.release _
  · rw [hagenda]
    exact Agenda.ready_release _ _
  · rw [outside_received, hnow] at hconversation
    rw [houtside, hnowLater]
    exact hconversation
  · rw [callbacks_received] at hentries
    exact hcallbacks.trans hentries

/-- Between two steps of a run no session is locked, and all alarms sleep. -/
theorem Reachable.atRest (builtIn : e.BuiltIn) {house : House σ} (h : e.Reachable house) :
    house.agenda.AtRest := by
  refine h.induct (P := fun house => house.agenda.AtRest) (fun outside => ?_) fun hstep ih => ?_
  · exact .empty
  · cases hstep with
    | event bound house event => exact (isolated_handle builtIn bound ih event).1
    | advance house time => exact ih.advance time
    | evict house idle => exact ih.evict _ idle
    | remove house sessionId => exact ih.remove sessionId
    | watch house => exact ih.startSweeper _ _
    | outside house outside => exact ih

/-- What an event of the session `own` does to what sessions share. -/
structure Isolated (e : Engine σ) (own : String) (house later : House σ) : Prop where
  /-- The record of any other session is the same, or its wait was ended by its own timer, or a
  sweep found the session idle; timer and sweep fell due after the event arrived. -/
  records : ∀ id, id ≠ own → house.agenda.Passing later.agenda.now id
    (house.agenda.store.get? id) (later.agenda.store.get? id)
  /-- It is the same if no time has passed. -/
  still : later.agenda.now = house.agenda.now → ∀ id, id ≠ own →
    later.agenda.store.get? id = house.agenda.store.get? id
  /-- All messages are addressed to the session of the event, and only calls take time. -/
  conversation : Relation.ReflTransGen (e.Converses own) (house.outside, house.agenda.now)
    (later.outside, later.agenda.now)
  /-- All callbacks that were added belong to it. -/
  callbacks : ∃ entries, (∀ entry ∈ entries, entry.sessionId = own) ∧
    later.callbacks = house.callbacks.insertAll entries
  /-- So what is found in the table was there before, or belongs to it. -/
  added : ∀ id entry, later.callbacks.get? id = some entry →
    house.callbacks.get? id = some entry ∨ entry.sessionId = own
  /-- What was there before stays, unless room was made for one of those that were added. -/
  kept : ∀ id n entry, CallbackTable.number? id = some n → house.callbacks.get? id = some entry →
    later.callbacks.get? id = some entry ∨
    later.callbacks.get? id = none ∧ ∃ past : List Callback,
      (∀ entry ∈ past, entry.sessionId = own) ∧ (house.callbacks.insertAll past).Drops n

/-- Sessions are isolated from each other's events, in every house that a run leads to. -/
structure IsolatesSessions (e : Engine σ) : Prop where
  /-- An event concerns its own session. -/
  event : ∀ house, e.Reachable house → ∀ bound (event : Event),
    e.Isolated event.sessionId house (e.handle bound house event).2
  /-- The timer of a pending wait is due at its deadline. -/
  timer : ∀ house, e.Reachable house → ∀ id stored p alarm,
    house.agenda.store.get? id = some stored → stored.session.awaiting.pending = some p →
    alarm ∈ house.agenda.alarms →
    alarm.errand = .endWait ⟨id, stored.session.serial, p.generation⟩ → p.RingsAt alarm.due
  /-- The press of a button of another session runs nothing: nothing is sent or called, no time
  passes, and no callback is added. -/
  press : ∀ house, e.Reachable house → ∀ bound (event : Event) data message entry,
    event.payload = .callback data message → house.callbacks.get? data = some entry →
    entry.sessionId ≠ event.sessionId →
    let later := (e.handle bound house event).2
    (∀ created, (e.route bound event.payload created).on (e.received house event) =
      (.ok (), e.received house event)) ∧
    later.outside = house.outside ∧ later.agenda.now = house.agenda.now ∧
    later.callbacks = house.callbacks

theorem isolated_event (builtIn : e.BuiltIn) (bound : Nat) {house : House σ}
    (h : house.agenda.AtRest) (event : Event) :
    e.Isolated event.sessionId house (e.handle bound house event).2 := by
  obtain ⟨-, hcourse, hconversation, entries, howned, hcallbacks⟩ :=
    isolated_handle builtIn bound h event
  have hrecords : ∀ id, id ≠ event.sessionId → house.agenda.Passing _ id _ _ :=
    fun id hid => hcourse.records id fun heq => hid (Option.some.inj heq).symm
  constructor
  case records => exact hrecords
  case still => exact fun hnow id hid => (hrecords id hid).eq_of_le hnow.le
  case conversation => exact hconversation
  case callbacks => exact ⟨entries, howned, hcallbacks⟩
  case added =>
    intro id entry hentry
    rw [hcallbacks] at hentry
    exact (CallbackTable.get?_insertAll hentry).imp_right (howned entry)
  case kept =>
    intro id n entry hn hentry
    rw [hcallbacks]
    simp only [CallbackTable.get?, hn, Option.bind_some] at hentry ⊢
    rcases CallbackTable.kept_or_dropped hentry entries with hkept | ⟨hgone, past, hpast, hdrops⟩
    · exact .inl hkept
    · exact .inr ⟨hgone, past, fun entry hmem => howned entry (hpast.subset hmem), hdrops⟩

/-- The press of a button of another session is not routed anywhere. -/
theorem route_foreign (bound : Nat) {house : House σ} (h : house.agenda.AtRest) {event : Event}
    {data : String} {message : Option MessageId} {entry : Callback}
    (hpayload : event.payload = .callback data message)
    (hentry : house.callbacks.get? data = some entry) (howner : entry.sessionId ≠ event.sessionId)
    (created : Bool) :
    (e.route bound event.payload created).on (e.received house event) =
      (.ok (), e.received house event) := by
  obtain ⟨-, hid⟩ := e.guarded_received h.tidy event
  have hfound : (e.received house event).callbacks.get? data = some entry := by
    rw [callbacks_received]
    exact hentry
  have hforeign : entry.sessionId ≠ (e.received house event).session.id := by
    rw [hid]
    exact howner
  rw [hpayload]
  exact on_routeCallback_foreign bound data message hfound hforeign

/-- Handling an event leaves all sessions but its own to themselves. -/
theorem sessions_are_isolated (builtIn : e.BuiltIn) : e.IsolatesSessions where
  event := by
    intro house hhouse bound event
    exact isolated_event builtIn bound (hhouse.atRest builtIn) event
  timer := by
    intro house hhouse id stored p alarm hget hpending halarm herrand
    have hpunctual := (hhouse.punctual builtIn).timers.alarms alarm halarm
    obtain ⟨-, hwait⟩ := hpunctual _ herrand
    have hwaiter : house.room.waiter? id = some stored.session.waiter := Agenda.waiter?_room hget
    exact (hwait _ hwaiter rfl).2 p hpending rfl
  press := by
    intro house hhouse bound event data message entry hpayload hentry howner later
    have hrest := hhouse.atRest builtIn
    have hroute := route_foreign (e := e) bound hrest hpayload hentry howner
    have hrouted : e.routed bound house event = e.received house event :=
      congrArg Prod.snd (hroute _)
    obtain ⟨hnow, -⟩ := plan_received (e := e) house event
    obtain ⟨houtside, hnowLater, hcallbacks⟩ := e.shared_handle bound house event
    rw [hrouted] at houtside hnowLater hcallbacks
    refine ⟨hroute, ?_, ?_, ?_⟩
    · exact houtside.trans (outside_received house event)
    · exact hnowLater.trans hnow
    · exact hcallbacks.trans (callbacks_received house event)

/-- An engine that greets every session with a button, and a host that notes down whom it
sends messages to. -/
def greeter : Engine (List String) :=
  { scribe with
    scenario :=
      { startActions := .object [("action", .string "EmitOutput"),
          ("buttons", .array [.array [.object [("onClick", .object (saying "Hello again")),
            ("text", .string "Greet")]]]),
          ("text", .string "Hello")] }
    host := { scribe.host with send := fun sent id _ _ => (.ok "1", id :: sent) } }

/-- One session was greeted. -/
def greeted : House (List String) :=
  (greeter.handle 6 (greeter.newHouse []) (.ofText "ada" Event.startCommand)).2

/-- Another session presses the button. -/
def foreignPress : Event := ⟨"eve", .callback "cb:0" none⟩

/-- The button does nothing for the other session.  When that one is greeted as well, the record
of the first session stays as it is, and so does its button. -/
theorem greeting_concerns_one_session :
    let later := (greeter.handle 6 greeted foreignPress).2
    let last := (greeter.handle 6 later (.ofText "eve" Event.startCommand)).2
    greeter.BuiltIn ∧ greeter.Reachable later ∧ later.outside = ["ada"] ∧
      last.outside = ["eve", "ada"] ∧
      last.agenda.store.get? "ada" = greeted.agenda.store.get? "ada" ∧
      ∃ entry, greeted.callbacks.get? "cb:0" = some entry ∧ entry.sessionId = "ada" ∧
        last.callbacks.get? "cb:0" = some entry := by
  intro later last
  have builtIn : greeter.BuiltIn := ⟨rfl, rfl⟩
  have hgreeted : greeter.Reachable greeted := (reachable_newHouse []).step (.event 6 _ _)
  have hlater : greeter.Reachable later := hgreeted.step (.event 6 _ _)
  have hsent : greeted.outside = ["ada"] := by decide +kernel
  have hsentLast : last.outside = ["eve", "ada"] := by decide +kernel
  have hpunctual : last.agenda.now = later.agenda.now := by decide +kernel
  have hfound : (last.callbacks.get? "cb:0").isSome := by decide +kernel
  have howner : (greeted.callbacks.get? "cb:0").map Callback.sessionId = some "ada" := by
    decide +kernel
  obtain ⟨entry, hentry, hid⟩ := Option.map_eq_some_iff.1 howner
  have hisolates := sessions_are_isolated builtIn
  have hforeign : entry.sessionId ≠ foreignPress.sessionId := by
    rw [hid]
    decide
  obtain ⟨-, houtside, hnow, hcallbacks⟩ :=
    hisolates.press greeted hgreeted 6 foreignPress "cb:0" none entry rfl hentry hforeign
  have hpressed := hisolates.event greeted hgreeted 6 foreignPress
  have hstarted := hisolates.event later hlater 6 (.ofText "eve" Event.startCommand)
  refine ⟨builtIn, hlater, houtside.trans hsent, hsentLast, ?_, entry, hentry, hid, ?_⟩
  · have hsecond := hstarted.still hpunctual "ada" (by decide)
    exact hsecond.trans (hpressed.still hnow "ada" (by decide))
  · have hstored : later.callbacks.get? "cb:0" = some entry := hcallbacks ▸ hentry
    rcases hstarted.kept "cb:0" 0 entry (by decide +kernel) hstored with hkept | ⟨hgone, -⟩
    · exact hkept
    · rw [hgone] at hfound
      cases hfound

/-- An engine whose start calls an endpoint that takes three seconds, and which evicts sessions
that were idle for two. -/
def dawdler : Engine (List String) :=
  { greeter with
    scenario :=
      { startActions := .object [("action", .string "CallExternalEndpoint"),
          ("url", .string "http://slow")] }
    settings := { idleTimeoutSecs := 2, sweepIntervalSecs := 1 }
    host :=
      { greeter.host with
        call := fun sent request => ({ request.offline with delay := .ofSeconds 3 }, sent) } }

-- the time that a call of one session takes passes for the other one as well
example :
    let house := (dawdler.start 6 (dawdler.watchIdle (dawdler.newHouse [])) "ada").2
    let later := (dawdler.start 6 house "eve").2
    house.agenda.store.ids = ["ada"] ∧ later.agenda.store.ids = ["eve"] := by
  decide +kernel

end Engine
end Dialogue
