import Dialogue.Proofs.Runs

/-!
# Buttons

A button carries the identifier of a callback.  The identifier leads back to the callback, and
whatever happens later it leads to that callback or, once its entry was dropped, to none
(`CallbackTable.Extends`, `Engine.Reaches.extends`).

A press runs the graph of the callback, if the session owns it, with the parameters of the
callback as parameters (`Engine.on_routeCallback`); where there is no such callback, or it belongs
to another session, nothing is run (`Engine.on_routeCallback_none`,
`Engine.on_routeCallback_foreign`).
-/

namespace Dialogue

/-! ## Identifiers -/

/-- The digits of a number are read back as the number. -/
theorem Decimal.digits?_digitsOf (n : Nat) : digits? (digitsOf n) = some n := by
  have hdigits : (digitsOf n).all Char.isDigit := by
    rw [List.all_eq_true]
    exact fun c hc => Nat.isDigit_of_mem_toDigits (by decide) (by decide) hc
  have hne : digitsOf n ≠ [] := Nat.toDigits_ne_nil
  unfold digits?
  rw [if_pos ⟨hne, hdigits⟩]
  have hvalue : ofDigits 0 (digitsOf n) = n := Nat.ofDigitChars_toDigits (by decide) (by decide)
  rw [hvalue]

theorem Decimal.count?_ofInt {limit n : Nat} (h : n ≤ limit) : count? limit (ofInt n) = some n := by
  have htext : (ofInt n).toList = digitsOf n := by
    simp [ofInt]
  unfold count?
  dsimp only
  rw [htext]
  split
  · rename_i rest hplus
    -- no digit is a sign
    have hsign : '+' ∈ digitsOf n := hplus ▸ List.mem_cons_self
    have hdigit := Nat.isDigit_of_mem_toDigits (by decide) (by decide) hsign
    exact absurd hdigit (by decide)
  · rw [digits?_digitsOf]
    simp [Option.filter, h]

namespace CallbackTable

/-- An identifier leads to its number. -/
theorem number?_identifier {n : Nat} (h : n ≤ Decimal.wordLimit) :
    number? (identifier n) = some n := by
  have htext : (identifier n).toList = 'c' :: 'b' :: ':' :: (Decimal.ofInt n).toList := by
    simp [identifier]
  unfold number?
  rw [htext]
  simp only [String.ofList_toList]
  exact Decimal.count?_ofInt h

/-- A new entry is found under its identifier. -/
theorem get?_insert_self (t : CallbackTable) (entry : Callback)
    (h : t.nextNumber ≤ Decimal.wordLimit) :
    (t.insert entry).2.get? (t.insert entry).1 = some entry := by
  have hpushed := numbered?_push_self t.makeRoom entry
  rw [nextNumber_makeRoom] at hpushed
  simp only [insert, get?, number?_identifier h, Option.bind_some, hpushed]

/-! ## Later tables -/

/-- Whatever a later table has under a number that was given out before, the earlier one had
there as well. -/
def Extends (later earlier : CallbackTable) : Prop :=
  earlier.nextNumber ≤ later.nextNumber ∧ ∀ n entry, n < earlier.nextNumber →
    later.numbered? n = some entry → earlier.numbered? n = some entry

variable {earlier between later : CallbackTable}

theorem Extends.refl (t : CallbackTable) : t.Extends t := ⟨Nat.le_refl _, fun _ _ _ h => h⟩

theorem Extends.trans (hlater : later.Extends between) (hearlier : between.Extends earlier) :
    later.Extends earlier := by
  refine ⟨Nat.le_trans hearlier.1 hlater.1, fun n entry hn h => ?_⟩
  exact hearlier.2 n entry hn (hlater.2 n entry (Nat.lt_of_lt_of_le hn hearlier.1) h)

/-- Making room drops entries and moves none. -/
theorem extends_makeRoom (t : CallbackTable) : t.makeRoom.Extends t := by
  refine ⟨by simp, fun n entry hn h => ?_⟩
  unfold makeRoom at h
  split at h
  · simp only [numbered?, halve, if_pos hn, List.getElem?_take] at h ⊢
    split at h
    · exact h
    · cases h
  · exact h

theorem extends_insert (t : CallbackTable) (entry : Callback) : (t.insert entry).2.Extends t := by
  refine ⟨by simp [nextNumber_insert], fun n other hn h => ?_⟩
  have hroom : n < t.makeRoom.nextNumber := by simpa using hn
  have hpushed := numbered?_push_of_lt t.makeRoom entry hroom
  exact (extends_makeRoom t).2 n other hn (hpushed.symm.trans h)

/-- The identifier was given out. -/
def Issued (t : CallbackTable) (id : String) : Prop := ∃ n, number? id = some n ∧ n < t.nextNumber

theorem issued_of_get? {t : CallbackTable} {id : String} {entry : Callback}
    (h : t.get? id = some entry) : t.Issued id := by
  obtain ⟨n, hn, hentry⟩ := Option.bind_eq_some_iff.1 h
  refine ⟨n, hn, ?_⟩
  by_contra hlt
  rw [numbered?, if_neg hlt] at hentry
  cases hentry

/-- What an identifier leads to later on is what it led to before. -/
theorem Extends.get? (h : later.Extends earlier) {id : String} (hid : earlier.Issued id)
    {entry : Callback} (hentry : later.get? id = some entry) : earlier.get? id = some entry := by
  obtain ⟨n, hn, hlt⟩ := hid
  rw [CallbackTable.get?, hn, Option.bind_some] at hentry ⊢
  exact h.2 n entry hlt hentry

/-- What an identifier led to is what it leads to later on, or it leads nowhere. -/
theorem Extends.same_or_none (h : later.Extends earlier) {id : String} {entry : Callback}
    (hentry : earlier.get? id = some entry) :
    later.get? id = some entry ∨ later.get? id = none := by
  cases hlater : later.get? id with
  | none => exact .inr rfl
  | some found =>
      have hfound := h.get? (issued_of_get? hentry) hlater
      rw [hentry] at hfound
      exact .inl hfound.symm

end CallbackTable

/-! ## Runs -/

namespace Engine

variable {σ : Type} {e : Engine σ}

/-- A dispatch adds callbacks; those of before stay, or are dropped. -/
theorem extends_lasting (e : Engine σ) :
    e.Lasting fun before after : Context σ => after.callbacks.Extends before.callbacks where
  framing :=
    { refl := fun ctx => .refl ctx.callbacks
      trans := fun hfirst hsecond => hsecond.trans hfirst
      locals := fun _ h => h
      action := fun _ h => h
      params := fun _ h => h }
  advances := by
    rintro before _ ⟨storage, effects, -, -, rfl⟩
    exact .refl _
  effects ctx := .refl ctx.callbacks
  belongings ctx _ _ _ _ := .refl ctx.callbacks
  navigation ctx _ _ := .refl ctx.callbacks
  arm ctx _ := .refl ctx.callbacks
  clear ctx := .refl ctx.callbacks
  callback ctx _ _ := ctx.callbacks.extends_insert _
  message ctx _ _ := .refl ctx.callbacks
  call ctx _ _ := .refl ctx.callbacks

/-- The context in which an event is routed. -/
def received (e : Engine σ) (house : House σ) (event : Event) : Context σ :=
  endOverdue (touch (e.checkOut house event.sessionId).1)

/-- The context after an event was routed. -/
def routed (e : Engine σ) (bound : Nat) (house : House σ) (event : Event) : Context σ :=
  ((e.route bound event.payload (e.checkOut house event.sessionId).2).on
    (e.received house event)).2

@[simp] theorem callbacks_received (house : House σ) (event : Event) :
    (e.received house event).callbacks = house.callbacks := by
  unfold received endOverdue
  split <;> rfl

@[simp] theorem outside_received (house : House σ) (event : Event) :
    (e.received house event).outside = house.outside := by
  unfold received endOverdue
  split <;> rfl

theorem handle_eq (bound : Nat) (house : House σ) (event : Event) :
    (e.handle bound house event).2 = checkIn (touch (e.routed bound house event)) := by
  unfold handle routed received
  rcases e.checkOut house event.sessionId with ⟨ctx, created⟩
  dsimp only

/-- The agenda after an event, before its session is released. -/
def stowed (e : Engine σ) (bound : Nat) (house : House σ) (event : Event) : Agenda :=
  let ctx := touch (e.routed bound house event)
  { ctx.agenda with
    store := ctx.agenda.store.put ctx.session.id { session := ctx.session, locked := true } }

theorem agenda_handle (bound : Nat) (house : House σ) (event : Event) :
    (e.handle bound house event).2.agenda =
      (e.stowed bound house event).release (e.routed bound house event).session.id := by
  rw [handle_eq]
  rfl

@[simp] theorem callbacks_checkIn (ctx : Context σ) : (checkIn ctx).callbacks = ctx.callbacks := by
  unfold checkIn
  rfl

@[simp] theorem callbacks_touch (ctx : Context σ) : (touch ctx).callbacks = ctx.callbacks := by
  unfold touch
  rfl

@[simp] theorem callbacks_watchIdle (house : House σ) :
    (e.watchIdle house).callbacks = house.callbacks := by
  unfold watchIdle
  generalize house.agenda.startSweeper e.settings.idleTimeout e.settings.sweepInterval = agenda
  rfl

theorem extends_step (builtIn : e.BuiltIn) {house later : House σ} (hstep : e.Step house later) :
    later.callbacks.Extends house.callbacks := by
  cases hstep with
  | event bound house event =>
      have hrouted := e.extends_lasting.route builtIn bound event.payload
        (e.checkOut house event.sessionId).2 (e.received house event)
      rw [callbacks_received] at hrouted
      rw [handle_eq, callbacks_checkIn, callbacks_touch]
      exact hrouted
  | watch house =>
      rw [callbacks_watchIdle]
      exact .refl _
  | _ => exact .refl _

/-- Along a run an identifier that was given out leads to the same callback, or to none. -/
theorem Reaches.extends (builtIn : e.BuiltIn) {house later : House σ}
    (h : e.Reaches house later) : later.callbacks.Extends house.callbacks := by
  induction h with
  | refl => exact .refl _
  | tail _ hlast ih => exact (extends_step builtIn hlast).trans ih

/-! ## Presses -/

/-- The variables that a press brings along. -/
def pressLocals (message : Option MessageId) : Fields :=
  match message with
  | some message => [("messageId", .string message)]
  | none => []

/-- The press of a button asks whose callback it is. -/
theorem on_routeCallback_of_get? (bound : Nat) (id : String) (message : Option MessageId)
    {ctx : Context σ} {entry : Callback} (hentry : ctx.callbacks.get? id = some entry) :
    (e.routeCallback bound id message).on ctx =
      (if entry.sessionId != ctx.session.id then return ()
      else Eval.withParams entry.params (Eval.withLocals (pressLocals message)
        (e.runGraph bound entry.graph)) : Eval σ Unit).on ctx := by
  have hcallback : (Eval.ask fun ctx : Context σ => ctx.callbacks.get? id).on ctx =
      (.ok (some entry), ctx) := by
    rw [Eval.on_ask, hentry]
  have hsession : (Eval.ask fun ctx : Context σ => ctx.session.id).on ctx =
      (.ok ctx.session.id, ctx) := rfl
  unfold routeCallback
  rw [Eval.on_bind_ok hcallback, Eval.on_bind_ok hsession]
  cases message <;> rfl

/-- The press of a button runs the graph of its callback, with the parameters of the callback. -/
theorem on_routeCallback (bound : Nat) (id : String) (message : Option MessageId)
    {ctx : Context σ} {entry : Callback} (hentry : ctx.callbacks.get? id = some entry)
    (howner : entry.sessionId = ctx.session.id) :
    (e.routeCallback bound id message).on ctx = (Eval.withParams entry.params
      (Eval.withLocals (pressLocals message) (e.runGraph bound entry.graph))).on ctx := by
  rw [on_routeCallback_of_get? bound id message hentry, howner, if_neg (by simp)]

/-- A press of what is not there runs nothing. -/
theorem on_routeCallback_none (bound : Nat) (id : String) (message : Option MessageId)
    {ctx : Context σ} (hnone : ctx.callbacks.get? id = none) :
    (e.routeCallback bound id message).on ctx = (.ok (), ctx) := by
  have hcallback : (Eval.ask fun ctx : Context σ => ctx.callbacks.get? id).on ctx =
      (.ok none, ctx) := by
    rw [Eval.on_ask, hnone]
  unfold routeCallback
  rw [Eval.on_bind_ok hcallback]
  rfl

/-- Nor does the press of a button that belongs to another session. -/
theorem on_routeCallback_foreign (bound : Nat) (id : String) (message : Option MessageId)
    {ctx : Context σ} {entry : Callback} (hentry : ctx.callbacks.get? id = some entry)
    (howner : entry.sessionId ≠ ctx.session.id) :
    (e.routeCallback bound id message).on ctx = (.ok (), ctx) := by
  rw [on_routeCallback_of_get? bound id message hentry, if_pos (bne_iff_ne.2 howner)]
  rfl

end Engine
end Dialogue
