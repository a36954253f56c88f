import Dialogue.CommandLine
import Dialogue.Proofs.LiveMessages
import Dialogue.Proofs.Timeouts

/-!
# References to messages

A session refers to the messages that it gave names to, and to the last one.  An action that
sends a message remembers it, and one that deletes a message forgets it, so outside and session
change in two steps.  `Context.Minds` says that no reference to a message that is gone is left by
the two together, also where the host fails; the steps of a dispatch are of this kind
(`Engine.minding`).

Sessions do not know about each other's messages, but can delete them by their identifiers.  The
statements on runs are therefore about houses that serve one user (`Engine.Serves`), whose
session may be dropped and created anew.

A message that an action finds by its name is live at that moment (`ActionFields.Finds.refersTo`).
`EditOutput` finds its message before it reads what is to stand in it, and reading can delete the
message (`Engine.renewed_message_is_gone`).
-/

namespace Dialogue

variable {σ : Type} {outbox : σ → Outbox}

theorem Session.Anchored.of_same {before after : Session} {o : Outbox} (h : before.Anchored o)
    (hmessages : after.messages = before.messages)
    (hlast : after.lastMessage = before.lastMessage) : after.Anchored o := by
  intro message hmessage
  rw [Session.RefersTo, hmessages, hlast] at hmessage
  exact h message hmessage

namespace Context

/-- Every message that the session refers to is live, and the live messages are those that were
sent and not deleted since. -/
structure Anchored (outbox : σ → Outbox) (ctx : Context σ) : Prop where
  session : ctx.session.Anchored (outbox ctx.outside)
  tallies : (outbox ctx.outside).Tallies

/-- The outbox goes on, and if the session referred to live messages only, it still does. -/
structure Minds (outbox : σ → Outbox) (before after : Context σ) : Prop where
  continues : (outbox before.outside).Continues (outbox after.outside)
  session : before.session.Anchored (outbox before.outside) →
    after.session.Anchored (outbox after.outside)

variable {before after : Context σ}

theorem Minds.anchored (h : before.Minds outbox after) (hbefore : before.Anchored outbox) :
    after.Anchored outbox :=
  ⟨h.session hbefore.session, h.continues.tallies hbefore.tallies⟩

/-- What concerns neither messages nor references to them. -/
theorem minds_of_same (houtbox : outbox after.outside = outbox before.outside)
    (hmessages : after.session.messages = before.session.messages)
    (hlast : after.session.lastMessage = before.session.lastMessage) :
    before.Minds outbox after where
  continues := by rw [houtbox]; exact .refl _
  session h := by rw [houtbox]; exact h.of_same hmessages hlast

theorem framing_minds (outbox : σ → Outbox) : Framing (Minds outbox) where
  refl _ := minds_of_same rfl rfl rfl
  trans hfirst hsecond := ⟨hfirst.continues.trans hsecond.continues,
    fun h => hsecond.session (hfirst.session h)⟩
  locals _ h := ⟨h.continues, h.session⟩
  action _ h := ⟨h.continues, h.session⟩
  params _ h := ⟨h.continues, h.session⟩

end Context

/-! ## Messages -/

namespace Director

/-- The host does something, and the outcome is what it answers. -/
theorem on_onHost {α : Type} (operation : σ → String → Except Failure α × σ) (ctx : Context σ) :
    (onHost operation).on ctx =
      ((operation ctx.outside ctx.session.id).1.mapError .failed,
        { ctx with outside := (operation ctx.outside ctx.session.id).2 }) := by
  unfold onHost
  rw [Eval.on_bind, Eval.on_change]
  cases (operation ctx.outside ctx.session.id).1 <;> rfl

variable {d : Director σ}

/-- A message that is sent is live when it is remembered. -/
theorem post_minds (keeps : d.host.KeepsIn outbox) (name : Option String) (text : String)
    (options : OutputOptions) : (d.post name text options).Keeps (Context.Minds outbox) := by
  intro ctx
  obtain ⟨hcontinues, hold, hnew⟩ := keeps.sent ctx.outside ctx.session.id text options
  have hsend := on_onHost (fun outside id => d.host.send outside id text options) ctx
  rcases hresult : d.host.send ctx.outside ctx.session.id text options with ⟨result, outside⟩
  simp only [hresult] at hcontinues hold hnew hsend
  cases result with
  | error failure =>
      -- nothing is remembered
      have hpost : (d.post name text options).on ctx =
          (.error (.failed failure), { ctx with outside }) := Eval.on_bind_error hsend
      rw [hpost]
      exact ⟨hcontinues, fun h message hmessage => hold message (h message hmessage)⟩
  | ok message =>
      have hpost : (d.post name text options).on ctx = (.ok message,
          { ctx with outside, session := ctx.session.rememberMessage name message }) :=
        Eval.on_bind_ok hsend
      rw [hpost]
      refine ⟨hcontinues, fun h other hother => ?_⟩
      rcases Session.refersTo_of_rememberMessage hother with rfl | hbefore
      · exact hnew other rfl
      · exact hold other (h other hbefore)

/-- A message that is edited stays live; a message that is gone is forgotten. -/
theorem revise_minds (keeps : d.host.KeepsIn outbox) (message : MessageId) (text : String)
    (options : OutputOptions) : (d.revise message text options).Keeps (Context.Minds outbox) := by
  refine .recover (Context.framing_minds outbox) _ (fun ctx => ?_) fun _ ctx => ?_
  · rw [edit, on_onHost]
    obtain ⟨-, houtbox⟩ := keeps.edit ctx.outside ctx.session.id message text options
    refine ⟨?_, fun h other hother => ?_⟩
    · rw [houtbox]
      exact Outbox.continues_edit _ _ _ _ _
    · rw [houtbox, Outbox.live_edit]
      exact h other hother
  · refine ⟨.refl _, fun h other hother => ?_⟩
    exact h other (Session.refersTo_of_forgetMessage hother).2

/-- Editing a message that is live. -/
theorem on_revise {message : MessageId} {text : String} {options : OutputOptions} {ctx : Context σ}
    (h : (d.host.edit ctx.outside ctx.session.id message text options).1 = .ok ()) :
    (d.revise message text options).on ctx = (.ok (), { ctx with
      outside := (d.host.edit ctx.outside ctx.session.id message text options).2 }) := by
  rw [revise, Eval.on_recover, edit, on_onHost]
  simp only [h, Except.mapError]

/-- Deleting a message and forgetting it. -/
theorem on_delete (keeps : d.host.KeepsIn outbox) (message : MessageId) (ctx : Context σ) :
    (d.delete message).on ctx = (.ok (), { ctx with
      outside := (d.host.delete ctx.outside ctx.session.id message).2
      session := ctx.session.forgetMessage message }) := by
  obtain ⟨hanswer, -⟩ := keeps.delete ctx.outside ctx.session.id message
  have hhost := on_onHost (fun outside id => d.host.delete outside id message) ctx
  have hrecovered : ((onHost fun outside id => d.host.delete outside id message).recover
      Failure.isGone fun _ => pure ()).on ctx =
      (.ok (), { ctx with outside := (d.host.delete ctx.outside ctx.session.id message).2 }) := by
    rw [Eval.on_recover, hhost]
    by_cases hlive : message ∈ (outbox ctx.outside).live
    · simp only [hanswer, Outbox.delete_of_mem hlive, Except.mapError]
    · simp only [hanswer, Outbox.delete_of_not_mem hlive, Except.mapError]
      rfl
  exact Eval.on_bind_ok hrecovered

/-- A message that is deleted is forgotten. -/
theorem delete_minds (keeps : d.host.KeepsIn outbox) (message : MessageId) :
    (d.delete message).Keeps (Context.Minds outbox) := by
  intro ctx
  obtain ⟨-, houtbox⟩ := keeps.delete ctx.outside ctx.session.id message
  rw [on_delete keeps]
  refine ⟨?_, fun h other hother => ?_⟩
  · rw [houtbox]
    exact Outbox.continues_delete _ _ _
  · obtain ⟨hne, hbefore⟩ := Session.refersTo_of_forgetMessage hother
    rw [houtbox, Outbox.mem_live_delete]
    exact ⟨h other hbefore, hne⟩

end Director

namespace Engine

variable {e : Engine σ}

/-- No step of a dispatch leaves a reference to a message that is gone. -/
theorem minding (keeps : e.host.KeepsIn outbox) : e.Steady (Context.Minds outbox) where
  framing := Context.framing_minds outbox
  advances := by
    rintro before _ ⟨storage, effects, -, -, rfl⟩
    exact Context.minds_of_same rfl rfl rfl
  effects _ := Context.minds_of_same rfl rfl rfl
  navigation _ _ _ := Context.minds_of_same rfl rfl rfl
  arm ctx request := by
    simp only [Input.arm, Eval.on_update]
    split <;> exact Context.minds_of_same rfl rfl rfl
  clear _ := Context.minds_of_same rfl rfl rfl
  callback _ _ _ := Context.minds_of_same rfl rfl rfl
  call ctx request _ := Context.minds_of_same (keeps.call ctx.outside request) rfl rfl
  belongings _ _ _ := Context.minds_of_same rfl rfl rfl
  post hhost := Director.post_minds (hhost ▸ keeps)
  revise hhost := Director.revise_minds (hhost ▸ keeps)
  delete hhost := Director.delete_minds (hhost ▸ keeps)

/-! ## Houses that serve one user -/

/-- A run in which all events are of one session leads to the house.  The session may be evicted,
removed and created anew at any time between events.  Messages are sent, edited and deleted by
the engine only, and all that happens outside is that sends begin to fail or cease to. -/
inductive Serves (e : Engine σ) (outbox : σ → Outbox) (id : String) : House σ → Prop
  | new (outside : σ) (failSends : Bool) (h : outbox outside = { failSends }) :
      Serves e outbox id (e.newHouse outside)
  | event {house : House σ} (h : Serves e outbox id house) (bound : Nat) (event : Event)
      (hid : event.sessionId = id) : Serves e outbox id (e.handle bound house event).2
  | advance {house : House σ} (h : Serves e outbox id house) (time : Nanos) :
      Serves e outbox id { house with agenda := house.agenda.advance time }
  | evict {house : House σ} (h : Serves e outbox id house) (idle : Nanos) :
      Serves e outbox id { house with
        agenda := { house.agenda with
          store := (house.agenda.store.evictIdle house.agenda.now idle).2 } }
  | remove {house : House σ} (h : Serves e outbox id house) (sessionId : String) :
      Serves e outbox id { house with
        agenda := { house.agenda with store := house.agenda.store.remove sessionId } }
  | watch {house : House σ} (h : Serves e outbox id house) : Serves e outbox id (e.watchIdle house)
  | outside {house : House σ} (h : Serves e outbox id house) (outside : σ) (failSends : Bool)
      (houtside : outbox outside = { outbox house.outside with failSends }) :
      Serves e outbox id { house with outside }

variable {id : String} {house : House σ}

theorem Serves.reachable (h : e.Serves outbox id house) : e.Reachable house := by
  induction h with
  | new outside => exact reachable_newHouse outside
  | event _ bound event _ ih => exact ih.step (.event bound _ event)
  | advance _ time ih => exact ih.step (.advance _ time)
  | evict _ idle ih => exact ih.step (.evict _ idle)
  | remove _ sessionId ih => exact ih.step (.remove _ sessionId)
  | watch _ ih => exact ih.step (.watch _)
  | outside _ outside _ _ ih => exact ih.step (.outside _ outside)

end Engine

/-- Storing a session replaces the only other one that may be stored. -/
theorem SessionStore.Tidy.all_put {s : SessionStore} (htidy : s.Tidy) {id : String}
    (halone : s.All fun session => session.id = id) {stored : StoredSession}
    (hid : stored.session.id = id) {P : Session → Prop} (hstored : P stored.session) :
    (s.put id stored).All P := by
  rintro ⟨key, found⟩ hmem
  have hkey : key = id := ((htidy.put hid).named _ hmem).symm.trans (halone.put id hid _ hmem)
  have hget := Keyed.get?_of_mem (htidy.put hid).ordered hmem
  change (s.put id stored).get? key = some found at hget
  rw [SessionStore.get?_put, if_pos hkey] at hget
  cases hget
  exact hstored

/-- The stored sessions are of one user and refer to live messages only, and the live messages
are those that were sent and not deleted since. -/
structure House.Anchored (outbox : σ → Outbox) (id : String) (house : House σ) : Prop where
  alone : house.agenda.store.All fun s => s.id = id
  sessions : house.agenda.store.All fun s => s.Anchored (outbox house.outside)
  tallies : (outbox house.outside).Tallies

namespace Engine

variable {e : Engine σ} {id : String} {house : House σ}

theorem idle_anchored (o : Outbox) : Session.IdleInvariant fun s => s.Anchored o where
  touch _ _ h := h
  awaiting _ _ h := h

theorem idle_alone (id : String) : Session.IdleInvariant fun s => s.id = id where
  touch _ _ h := h
  awaiting _ _ h := h

theorem upkeep_alone (e : Engine σ) (id : String) : e.SessionUpkeep fun s => s.id = id where
  toIdleInvariant := idle_alone id
  belongings _ _ _ _ _ h := h
  navigation _ _ _ h := h

/-- A session that is created for an event refers to no message. -/
theorem anchored_received (h : house.Anchored outbox id) (event : Event) :
    (e.received house event).Anchored outbox := by
  have hfresh (serial : Nat) (now : Nanos) :
      ({ id := event.sessionId, serial, lastActivity := now } : Session).Anchored
        (outbox house.outside) := by
    rintro message (hlast | ⟨name, hmem⟩)
    · cases hlast
    · cases hmem
  have hsession := ((idle_anchored _).arrival e hfresh house h.sessions).1
  refine ⟨?_, ?_⟩
  · rw [outside_received]
    exact hsession
  · rw [outside_received]
    exact h.tallies

/-- The session that is put back is the only one that is stored. -/
theorem anchored_checkIn {ctx : Context σ} (htidy : ctx.agenda.store.Tidy)
    (halone : ctx.All fun s => s.id = id) (h : ctx.Anchored outbox) :
    (checkIn (touch ctx)).Anchored outbox id := by
  refine ⟨(idle_alone id).departure ctx halone, ?_, h.tallies⟩
  -- what was stored about the session meanwhile is replaced
  have hid : (touch ctx).session.id = id := halone.1
  refine (idle_anchored _).release ?_ _
  rw [hid]
  exact htidy.all_put halone.2 hid h.session

theorem anchored_handle (builtIn : e.BuiltIn) (keeps : e.host.KeepsIn outbox)
    (htidy : house.agenda.store.Tidy) (h : house.Anchored outbox id) (bound : Nat) {event : Event}
    (hid : event.sessionId = id) : (e.handle bound house event).2.Anchored outbox id := by
  let created := (e.checkOut house event.sessionId).2
  obtain ⟨hguarded, -⟩ := guarded_received htidy event
  obtain ⟨hrouted, -⟩ :=
    e.accountable.route builtIn bound event.payload created (e.received house event) hguarded
  have hanchored : (e.routed bound house event).Anchored outbox :=
    ((minding keeps).route builtIn bound event.payload created _).anchored
      (anchored_received h event)
  have harrival : (e.received house event).All fun s => s.id = id :=
    (upkeep_alone e id).arrival e (fun _ _ => hid) house h.alone
  have halone : (e.routed bound house event).All fun s => s.id = id :=
    (upkeep_alone e id).lasting.route builtIn bound event.payload created _ harrival
  -- nobody else's session is stored that could refer to what was deleted
  rw [handle_eq]
  exact anchored_checkIn hrouted.tidy halone hanchored

theorem Serves.anchored (builtIn : e.BuiltIn) (keeps : e.host.KeepsIn outbox)
    (h : e.Serves outbox id house) : house.Anchored outbox id := by
  induction h with
  | new outside failSends houtside =>
      refine ⟨?_, ?_, ?_⟩
      · rintro _ ⟨⟩
      · rintro _ ⟨⟩
      · exact houtside ▸ Outbox.tallies_empty failSends
  | event hserves bound event hid ih =>
      exact anchored_handle builtIn keeps (hserves.reachable.chronicle builtIn).1 ih bound hid
  | advance _ time ih =>
      exact ⟨(idle_alone id).agenda_lasting.advance _ time ih.alone,
        (idle_anchored _).agenda_lasting.advance _ time ih.sessions, ih.tallies⟩
  | evict _ idle ih => exact ⟨ih.alone.evictIdle _ idle, ih.sessions.evictIdle _ idle, ih.tallies⟩
  | remove _ sessionId ih =>
      exact ⟨ih.alone.remove sessionId, ih.sessions.remove sessionId, ih.tallies⟩
  | watch _ ih =>
      rw [watchIdle]
      exact ⟨(idle_alone id).agenda_lasting.startSweeper _ _ _ ih.alone,
        (idle_anchored _).agenda_lasting.startSweeper _ _ _ ih.sessions, ih.tallies⟩
  | outside _ outside failSends houtside ih =>
      refine ⟨ih.alone, ?_, ?_⟩
      · rw [houtside]
        exact ih.sessions
      · rw [houtside]
        exact ih.tallies

end Engine

/-! ## Acting on a message -/

namespace ActionFields

/-- The action gives no identifier of a message, so it is about the message that it names or
about the last one, and that is this message. -/
structure Finds (f : ActionFields σ) (ctx : Context σ) (message : MessageId) (found : Context σ) :
    Prop where
  unidentified : ∃ between, (f.text? "messageId").on ctx = (.ok none, between)
  target : f.target?.on ctx = (.ok (some message), found)

/-- What is to stand in the message from now on. -/
def revision (f : ActionFields σ) : Eval σ (String × OutputOptions) := do
  let text ← f.text? "text"
  let options ← f.outputOptions
  return (text.getD "", options)

theorem revision_composed {d : Director σ} (action : String) (fields : Fields) :
    Composed (Acting d fields) fun crew => revision ⟨action, d.withCrew crew, fields⟩ :=
  .bind (text?_composed action fields _ (by decide)) fun _ =>
    .bind (outputOptions_composed action fields) fun _ => .done _

variable {f : ActionFields σ} {ctx found : Context σ} {message : MessageId}

/-- The session refers to a message that was found so. -/
theorem Finds.refersTo (h : f.Finds ctx message found) : found.session.RefersTo message := by
  obtain ⟨between, hid⟩ := h.unidentified
  have htarget := h.target
  rw [target?, Eval.on_bind_ok hid] at htarget
  obtain ⟨name, named, -, hfound⟩ := Eval.exists_of_on_bind htarget
  cases name with
  | none =>
      rw [Eval.on_ask, Prod.mk.injEq] at hfound
      obtain ⟨hlast, rfl⟩ := hfound
      exact .inl (Except.ok.inj hlast)
  | some name =>
      rw [Eval.on_ask, Prod.mk.injEq] at hfound
      obtain ⟨hget, rfl⟩ := hfound
      exact .inr ⟨name, Keyed.mem_of_get? (Except.ok.inj hget)⟩

/-- `EditOutput` reads what is to stand in a message after it has found the message. -/
theorem Finds.on_edit (h : f.Finds ctx message found) {ready : Context σ} {text : String}
    {options : OutputOptions} (hready : f.revision.on found = (.ok (text, options), ready)) :
    (Output.edit f).on ctx = (f.director.revise message text options).on ready := by
  let revise (new : String × OutputOptions) : Eval σ Unit :=
    f.director.revise message new.1 new.2
  have hedit : (f.revision >>= revise).on found = (revise (text, options)).on ready :=
    Eval.on_bind_ok hready
  -- the text and the options are read in one sequence with the edit
  rw [Output.edit, Eval.on_bind_ok h.target]
  refine Eq.trans ?_ hedit
  rw [revision]
  simp only [bind_assoc, pure_bind]
  rfl

end ActionFields

namespace Engine

variable {e : Engine σ} {ctx found : Context σ} {message : MessageId}

/-- Reading fields neither harms references nor rewrites the record. -/
theorem minds_of_composed (builtIn : e.BuiltIn) (keeps : e.host.KeepsIn outbox) (bound : Nat)
    {fields : Fields} {α : Type} {X : Crew σ → Eval σ α}
    (h : Composed (Acting (e.director bound) fields) X) :
    (X (e.director bound).crew).Keeps (Context.Minds outbox) :=
  h.assembled.keeps (Context.framing_minds outbox) _ ((minding keeps).step builtIn bound)

/-- A message that a session refers to is live when it is found. -/
theorem live_of_finds (builtIn : e.BuiltIn) (keeps : e.host.KeepsIn outbox) {bound : Nat}
    {action : String} {fields : Fields} (h : ctx.Anchored outbox)
    (hfinds : ActionFields.Finds ⟨action, e.director bound, fields⟩ ctx message found) :
    found.Anchored outbox ∧ message ∈ (outbox found.outside).live := by
  have htarget : (ActionFields.target? ⟨action, e.director bound, fields⟩).Keeps
      (Context.Minds outbox) :=
    minds_of_composed builtIn keeps bound (ActionFields.target?_composed action fields)
  have hfound := (htarget ctx).anchored h
  rw [hfinds.target] at hfound
  exact ⟨hfound, hfound.session message hfinds.refersTo⟩

/-- `DeleteOutput` deletes the message that it finds. -/
theorem delete_finds_live (builtIn : e.BuiltIn) (keeps : e.host.KeepsIn outbox) {bound : Nat}
    {fields : Fields} (h : ctx.Anchored outbox)
    (hfinds : ActionFields.Finds ⟨"DeleteOutput", e.director bound, fields⟩ ctx message found) :
    (e.host.delete found.outside found.session.id message).1 = .ok () ∧
      (Output.delete ⟨"DeleteOutput", e.director bound, fields⟩).on ctx =
        (.ok (), { found with
          outside := (e.host.delete found.outside found.session.id message).2
          session := found.session.forgetMessage message }) := by
  obtain ⟨-, hlive⟩ := live_of_finds builtIn keeps h hfinds
  obtain ⟨hanswer, -⟩ := keeps.delete found.outside found.session.id message
  rw [Outbox.delete_of_mem hlive] at hanswer
  refine ⟨hanswer, ?_⟩
  rw [Output.delete, Eval.on_bind_ok hfinds.target]
  exact Director.on_delete (d := e.director bound) keeps message found

/-- `EditOutput` edits the message that it finds, unless what the fields of the action stand for
deleted it. -/
theorem edit_finds_live (builtIn : e.BuiltIn) (keeps : e.host.KeepsIn outbox) {bound : Nat}
    {fields : Fields} (h : ctx.Anchored outbox) {ready : Context σ} {text : String}
    {options : OutputOptions}
    (hfinds : ActionFields.Finds ⟨"EditOutput", e.director bound, fields⟩ ctx message found)
    (hready : (ActionFields.revision ⟨"EditOutput", e.director bound, fields⟩).on found =
      (.ok (text, options), ready)) :
    ∃ meanwhile, (outbox ready.outside).records = (outbox found.outside).records ++ meanwhile ∧
      ((e.host.edit ready.outside ready.session.id message text options).1 = .ok () ∧
        (Output.edit ⟨"EditOutput", e.director bound, fields⟩).on ctx =
          (.ok (), { ready with
            outside := (e.host.edit ready.outside ready.session.id message text options).2 }) ∨
      ∃ owner, .deleted owner message ∈ meanwhile) := by
  obtain ⟨hfound, hlive⟩ := live_of_finds builtIn keeps h hfinds
  have hrevision : (ActionFields.revision ⟨"EditOutput", e.director bound, fields⟩).Keeps
      (Context.Minds outbox) :=
    minds_of_composed builtIn keeps bound (ActionFields.revision_composed "EditOutput" fields)
  have hminds := hrevision found
  rw [hready] at hminds
  obtain ⟨meanwhile, hrecords⟩ := hminds.continues.records
  refine ⟨meanwhile, hrecords.symm, ?_⟩
  by_cases hstill : message ∈ (outbox ready.outside).live
  · obtain ⟨hanswer, -⟩ := keeps.edit ready.outside ready.session.id message text options
    rw [Outbox.edit_of_mem hstill] at hanswer
    refine .inl ⟨hanswer, ?_⟩
    rw [hfinds.on_edit hready]
    exact Director.on_revise hanswer
  · -- it stood on record, and does so no longer
    refine .inr (Outbox.exists_deleted_of_not_stands ((hfound.tallies message).1 hlive) ?_)
    rw [hrecords]
    exact fun hstands => hstill (((hminds.anchored hfound).tallies message).2 hstands)

/-- Along every run that serves one user, with sends failing at any time, every message that a
stored session refers to is live: it was sent, and it was not deleted since.  The same holds of
the session in a context when an event is routed, and is kept by each step of each action and by
every graph.

Hence `DeleteOutput` never finds that its message is gone already, if it gives no identifier.
Nor does `EditOutput`, but it reads what is to stand in the message after it has found the
message: the edit goes through, or the message was deleted meanwhile. -/
theorem references_stay_live (builtIn : e.BuiltIn) (keeps : e.host.KeepsIn outbox) (id : String) :
    (∀ house, e.Serves outbox id house → ∀ key stored, house.agenda.store.get? key = some stored →
      ∀ message, stored.session.RefersTo message → message ∈ (outbox house.outside).live ∧
        Outbox.Stands (outbox house.outside).records message) ∧
    (∀ house, e.Serves outbox id house → ∀ event, (e.received house event).Anchored outbox) ∧
    (∀ bound, let d := e.director bound
      (∀ fields α X, Acting d fields α X → (X d.crew).Keeps fun before after =>
        before.Anchored outbox → after.Anchored outbox) ∧
      ∀ graph, (e.runGraph bound graph).Keeps fun before after =>
        before.Anchored outbox → after.Anchored outbox) ∧
    (∀ bound fields ctx message found, ctx.Anchored outbox →
      let f : ActionFields σ := ⟨"DeleteOutput", e.director bound, fields⟩
      f.Finds ctx message found →
        (e.host.delete found.outside found.session.id message).1 = .ok () ∧
        (Output.delete f).on ctx = (.ok (), { found with
          outside := (e.host.delete found.outside found.session.id message).2
          session := found.session.forgetMessage message })) ∧
    ∀ bound fields ctx message found, ctx.Anchored outbox →
      let f : ActionFields σ := ⟨"EditOutput", e.director bound, fields⟩
      f.Finds ctx message found → message ∈ (outbox found.outside).live ∧
      ∀ text options ready, f.revision.on found = (.ok (text, options), ready) →
        ∃ meanwhile, (outbox ready.outside).records = (outbox found.outside).records ++ meanwhile ∧
          ((e.host.edit ready.outside ready.session.id message text options).1 = .ok () ∧
            (Output.edit f).on ctx = (.ok (), { ready with
              outside := (e.host.edit ready.outside ready.session.id message text options).2 }) ∨
          ∃ owner, .deleted owner message ∈ meanwhile) := by
  refine ⟨fun house hserves key stored hget message hmessage => ?_, fun house hserves event => ?_,
    fun bound => ⟨fun fields α X hstep ctx => ?_, fun graph ctx => ?_⟩, ?_, ?_⟩
  · have hanchored := hserves.anchored builtIn keeps
    have hlive := hanchored.sessions.of_get? hget message hmessage
    exact ⟨hlive, (hanchored.tallies message).1 hlive⟩
  · exact anchored_received (hserves.anchored builtIn keeps) event
  · exact ((minding keeps).step builtIn bound α X hstep ctx).anchored
  · exact ((minding keeps).runGraph builtIn bound graph ctx).anchored
  · exact fun bound fields ctx message found h hfinds => delete_finds_live builtIn keeps h hfinds
  · intro bound fields ctx message found h f hfinds
    refine ⟨(live_of_finds builtIn keeps h hfinds).2, fun text options ready hready => ?_⟩
    exact edit_finds_live builtIn keeps h hfinds hready

/-- Sends a message named `m`. -/
def posting (text : String) : Value :=
  .object [("action", .string "EmitOutput"), ("saveAs", .string "m"), ("text", .string text)]

/-- The menu `Again` deletes the message named `m` and sends another one under the same name. -/
def againMenu : Menu where
  onNavigation := .array
    [.object [("action", .string "DeleteOutput"), ("message", .string "m")], posting "new"]

/-- The function `renew` leads to that menu. -/
def renew : ScenarioFunction where
  result := .object [("action", .string "Navigate"), ("target", .string "Again")]

/-- The fields of an action that edits the message named `m`; its text calls `renew`. -/
def renewingFields : Fields :=
  [("action", .string "EditOutput"), ("message", .string "m"),
    ("text", .object [("function", .string "renew")])]

/-- The engine with that menu and that function, with an outbox.  A message named `m` is sent at
the start, and a command edits it. -/
def renewer : Engine Outbox where
  scenario :=
    { startActions := posting "old", menuItems := [("Again", againMenu)],
      functions := [("renew", renew)], commands := [("/edit", .object renewingFields)] }
  functions := FunctionLibrary.standard
  actions := { library := ActionLibrary.standard }
  host := CommandLine.outboxHost

theorem renewer_builtIn : renewer.BuiltIn := ⟨rfl, rfl⟩

theorem outboxHost_keepsIn : CommandLine.outboxHost.KeepsIn id where
  send _ _ _ _ := .inl ⟨rfl, rfl⟩
  edit _ _ _ _ _ := ⟨rfl, rfl⟩
  delete _ _ _ := ⟨rfl, rfl⟩
  call _ _ := rfl

/-- After the start. -/
def posted : House Outbox := (renewer.handle 8 (renewer.newHouse {}) (.ofText "u1" "/start")).2

theorem serves_posted : renewer.Serves id "u1" posted := by
  have hnew : renewer.Serves id "u1" (renewer.newHouse ({} : Outbox)) := .new _ false rfl
  exact hnew.event 8 (.ofText "u1" "/start") rfl

/-- The context in which the command runs its action. -/
def editing : Context Outbox :=
  let ctx := renewer.received posted (.ofText "u1" "/edit")
  { ctx with scope := ctx.scope.pushAction renewingFields }

/-- The action of the command. -/
def renewingEdit : ActionFields Outbox := ⟨"EditOutput", renewer.director 7, renewingFields⟩

/-- An action that deletes the message instead. -/
def plainDelete : ActionFields Outbox :=
  ⟨"DeleteOutput", renewer.director 7, [("message", .string "m")]⟩

/-- The message that was sent at the start is live, and is there when it is to be deleted. -/
theorem posted_message_is_deleted :
    renewer.BuiltIn ∧ renewer.host.KeepsIn id ∧ renewer.Serves id "u1" posted ∧
      (∃ stored, posted.agenda.store.get? "u1" = some stored ∧
        stored.session.messages = [("m", "1")] ∧ "1" ∈ posted.outside.live) ∧
      ∃ found, plainDelete.Finds editing "1" found ∧
        (renewer.host.delete found.outside found.session.id "1").1 = .ok () := by
  obtain ⟨hstored, hreceived, -, hdelete, -⟩ :=
    references_stay_live renewer_builtIn outboxHost_keepsIn "u1"
  have hmessages : (posted.agenda.store.get? "u1").map (fun stored => stored.session.messages) =
      some [("m", "1")] := by
    decide +kernel
  obtain ⟨stored, hget, hnamed⟩ := Option.map_eq_some_iff.1 hmessages
  have hrefers : stored.session.RefersTo "1" := .inr ⟨"m", by rw [hnamed]; exact List.mem_cons_self⟩
  have hlive := (hstored posted serves_posted "u1" stored hget "1" hrefers).1
  have hanchored := hreceived posted serves_posted (.ofText "u1" "/edit")
  have htarget : (plainDelete.target?.on editing).1.toOption = some (some "1") := by
    decide +kernel
  have hfinds : plainDelete.Finds editing "1" (plainDelete.target?.on editing).2 :=
    ⟨⟨editing, rfl⟩, Prod.ext (Eval.eq_ok_of_toOption htarget) rfl⟩
  refine ⟨renewer_builtIn, outboxHost_keepsIn, serves_posted, ⟨stored, hget, hnamed, hlive⟩, _,
    hfinds, ?_⟩
  exact (hdelete 7 _ editing "1" _ ⟨hanchored.session, hanchored.tallies⟩ hfinds).1

/-- The message is there when the command finds it, and is gone when the command edits it. -/
theorem renewed_message_is_gone :
    renewer.Serves id "u1" posted ∧
      ∃ found text options ready, renewingEdit.Finds editing "1" found ∧
        renewingEdit.revision.on found = (.ok (text, options), ready) ∧
        (renewer.host.edit ready.outside ready.session.id "1" text options).1 =
          .error (Outbox.gone "1") ∧
        (renewer.handle 8 posted (.ofText "u1" "/edit")).2.outside.records =
          [.sent "u1" "1" "old" {}, .deleted "u1" "1", .sent "u1" "2" "new" {}] := by
  have htarget : (renewingEdit.target?.on editing).1.toOption = some (some "1") := by
    decide +kernel
  let found := (renewingEdit.target?.on editing).2
  have hfinds : renewingEdit.Finds editing "1" found :=
    ⟨⟨editing, rfl⟩, Prod.ext (Eval.eq_ok_of_toOption htarget) rfl⟩
  have hrevision : (renewingEdit.revision.on found).1.toOption =
        some ("\x7b\"action\":\"Navigate\",\"target\":\"Again\"\x7d", {}) ∧
      "1" ∉ (renewingEdit.revision.on found).2.outside.live ∧
      (renewer.handle 8 posted (.ofText "u1" "/edit")).2.outside.records =
        [.sent "u1" "1" "old" {}, .deleted "u1" "1", .sent "u1" "2" "new" {}] := by
    decide +kernel
  obtain ⟨hread, hgone, hrecords⟩ := hrevision
  refine ⟨serves_posted, found, _, _, _, hfinds,
    Prod.ext (Eval.eq_ok_of_toOption hread) rfl, ?_, hrecords⟩
  exact congrArg Prod.fst (Outbox.edit_of_not_mem hgone _ _ _)

end Engine
end Dialogue
