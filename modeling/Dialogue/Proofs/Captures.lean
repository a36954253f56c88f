import Dialogue.Proofs.Paths
import Dialogue.Proofs.Timeouts

/-!
# Answers that cannot be stored

A wait that takes an event is over before anything of the answer is stored.  What is to be stored
is the value of the answer and, beside it, a document if the wait allows attachments.  There may
be no room for either in the session's data, and then the graph that follows the answer is not
run.

* `Fields.writeAll`: what is stored, up to the first obstacle.
* `PendingInput.stored_iff`: which answers there is room for.
* `Engine.capture_stores_or_forfeits`: an answer is stored and completed, or it is refused, and
  the wait is over all the same.
* `Engine.unstored_answers_are_forfeited`: two answers that are refused.
-/

namespace Dialogue

variable {σ : Type}

namespace Fields

/-- Writes values at dotted paths one after the other, up to the first obstacle.  The answer is
the obstacle with its path, if there was one, and the fields with what was written before. -/
def writeAll (fields : Fields) :
    List (String × Value) → Option (String × Path.Obstacle) × Fields
  | [] => (none, fields)
  | (key, v) :: rest =>
    match fields.write (Path.parse key) v with
    | .ok fields => writeAll fields rest
    | .error obstacle => (some (key, obstacle), fields)

theorem writeAll_of_ok {fields after : Fields} {key : String} {v : Value}
    (h : fields.write (Path.parse key) v = .ok after) (rest : List (String × Value)) :
    fields.writeAll ((key, v) :: rest) = after.writeAll rest := by
  rw [writeAll, h]

theorem writeAll_of_error {fields : Fields} {key : String} {v : Value} {obstacle : Path.Obstacle}
    (h : fields.write (Path.parse key) v = .error obstacle) (rest : List (String × Value)) :
    fields.writeAll ((key, v) :: rest) = (some (key, obstacle), fields) := by
  rw [writeAll, h]

end Fields

/-- The same context with other data in its session. -/
def Context.withData (ctx : Context σ) (data : Fields) : Context σ :=
  { ctx with session := { ctx.session with data } }

/-- The place of the document is beside that of the value, or below it if the key ends in a
point. -/
theorem Engine.parse_attachmentsKey (key : String) :
    ∃ front other, Path.parse (attachmentsKey key) = front ++ [other] ∧
      ((Path.EndsInName key ∧ ∃ name, Path.parse key = front ++ [name]) ∨
        (¬ Path.EndsInName key ∧ Path.parse key = front)) := by
  have hletters : "_attachments".toList =
      ['_', 'a', 't', 't', 'a', 'c', 'h', 'm', 'e', 'n', 't', 's'] := by cbv
  have hdots : ∀ c ∈ "_attachments".toList, (c == '.') = false := by
    simp [hletters]
  have hmore : ∃ c ∈ "_attachments".toList, Text.isBlank c = false := by
    rw [hletters]
    exact ⟨'_', List.mem_cons_self, rfl⟩
  exact Path.parse_append hdots hmore key

namespace PendingInput

/-- The document of an answer, where the wait allows attachments. -/
def attached (p : PendingInput) (payload : Payload) : List (String × Value) :=
  match payload.attachment? with
  | some file =>
    if p.request.allowAttachments then [(Engine.attachmentsKey p.key, .array [file.view])] else []
  | none => []

/-- What an answer leaves in the session's data: its value, and then its document. -/
def entries (p : PendingInput) (payload : Payload) : List (String × Value) :=
  (p.key, payload.captured) :: p.attached payload

/-- A document is stored under one name, and its value is a text. -/
theorem attached_cases (p : PendingInput) (payload : Payload) :
    p.attached payload = [] ∨
    ∃ v text, p.attached payload = [(Engine.attachmentsKey p.key, v)] ∧
      payload.captured = .string text := by
  cases payload with
  | document file caption =>
      by_cases hallowed : p.request.allowAttachments
      · exact .inr ⟨_, _, if_pos hallowed, rfl⟩
      · exact .inl (if_neg hallowed)
  | text | contact | callback => exact .inl rfl

/-- Beside a stored value there is room for the document exactly if the key ends in a name.  A key
that ends in a point names the same place as without it, and its document would be below. -/
theorem attachments_fit_iff {key text : String} {v : Value} {data after : Fields}
    (h : data.write (Path.parse key) (.string text) = .ok after) :
    (∃ final, after.write (Path.parse (Engine.attachmentsKey key)) v = .ok final) ↔
      Path.EndsInName key := by
  obtain ⟨front, other, hother, hkey⟩ := Engine.parse_attachmentsKey key
  rw [hother]
  rcases hkey with ⟨hends, name, hname⟩ | ⟨hends, hname⟩
  · rw [hname] at h
    exact iff_of_true (Fields.write_beside h other v) hends
  · rw [hname] at h
    obtain ⟨obstacle, hobstacle⟩ := Fields.write_below h other v
    rw [hobstacle]
    exact iff_of_false (by rintro ⟨_, ⟨⟩⟩) hends

/-- There is room for an answer exactly if there is room for its value, and its key ends in a name
if a document comes with it. -/
theorem stored_iff (p : PendingInput) (payload : Payload) (data : Fields) :
    (data.writeAll (p.entries payload)).1 = none ↔
      (∃ after, data.write (Path.parse p.key) payload.captured = .ok after) ∧
      (p.attached payload ≠ [] → Path.EndsInName p.key) := by
  cases hwrite : data.write (Path.parse p.key) payload.captured with
  | error obstacle => simp [entries, Fields.writeAll_of_error hwrite]
  | ok after =>
      rw [entries, Fields.writeAll_of_ok hwrite]
      rcases p.attached_cases payload with hnone | ⟨v, text, hsome, htext⟩
      · simp [hnone, Fields.writeAll]
      · rw [htext] at hwrite
        rw [hsome, ← attachments_fit_iff (v := v) hwrite]
        cases hdocument : after.write (Path.parse (Engine.attachmentsKey p.key)) v with
        | ok final =>
            rw [Fields.writeAll_of_ok hdocument]
            simp [Fields.writeAll]
        | error obstacle =>
            rw [Fields.writeAll_of_error hdocument]
            simp

/-- Where there is no room for an answer, either nothing was stored, or the value was stored and
the document was not. -/
theorem unstored_cases {p : PendingInput} {payload : Payload} {data : Fields} {key : String}
    {obstacle : Path.Obstacle}
    (h : (data.writeAll (p.entries payload)).1 = some (key, obstacle)) :
    key = p.key ∧ (data.writeAll (p.entries payload)).2 = data ∨
    key = Engine.attachmentsKey p.key ∧ ¬ Path.EndsInName p.key ∧
      data.write (Path.parse p.key) payload.captured =
        .ok (data.writeAll (p.entries payload)).2 := by
  cases hwrite : data.write (Path.parse p.key) payload.captured with
  | error other =>
      rw [entries, Fields.writeAll_of_error hwrite] at h ⊢
      cases h
      exact .inl ⟨rfl, rfl⟩
  | ok after =>
      rw [entries, Fields.writeAll_of_ok hwrite] at h ⊢
      rcases p.attached_cases payload with hnone | ⟨v, text, hsome, htext⟩
      · rw [hnone] at h
        cases h
      · rw [htext] at hwrite
        rw [hsome] at h ⊢
        rw [← attachments_fit_iff (v := v) hwrite]
        cases hdocument : after.write (Path.parse (Engine.attachmentsKey p.key)) v with
        | ok final =>
            rw [Fields.writeAll_of_ok hdocument] at h
            cases h
        | error other =>
            rw [Fields.writeAll_of_error hdocument] at h ⊢
            cases h
            exact .inr ⟨rfl, (by rintro ⟨_, ⟨⟩⟩), rfl⟩

end PendingInput

namespace Engine

variable {e : Engine σ}

/-- Runs the graph that follows a stored answer. -/
def conclude (e : Engine σ) (bound : Nat) (p : PendingInput) (payload : Payload) : Eval σ Unit :=
  (Eval.withLocals [("value", payload.captured)] (e.runGraph bound p.request.onDone)).thenAlways
    fun outcome => do
      if p.request.clearAfter then
        Eval.updateSession fun session => (session.removeData p.request.key).2
        Eval.updateSession fun session => (session.removeData (attachmentsKey p.request.key)).2
      Eval.ofOutcome outcome

/-- An answer is stored before the graph that follows it is run. -/
theorem completeInput_eq (bound : Nat) (p : PendingInput) (payload : Payload) :
    e.completeInput bound p payload =
      (p.entries payload).forM (fun entry => storeInput entry.1 entry.2) >>= fun _ =>
        e.conclude bound p payload := by
  cases payload with
  | document file caption =>
      by_cases hallowed : p.request.allowAttachments
      · simp [completeInput, conclude, PendingInput.entries, PendingInput.attached,
          Payload.attachment?, hallowed, PendingInput.key]
      · simp [completeInput, conclude, PendingInput.entries, PendingInput.attached,
          Payload.attachment?, hallowed, PendingInput.key]
  | text | contact | callback =>
      simp [completeInput, conclude, PendingInput.entries, PendingInput.attached,
        Payload.attachment?, PendingInput.key]

/-- Storing entries writes them up to the first obstacle, with which it fails. -/
theorem on_storeInputs (entries : List (String × Value)) (ctx : Context σ) :
    (entries.forM fun entry => (storeInput entry.1 entry.2 : Eval σ Unit)).on ctx =
      (match (ctx.session.data.writeAll entries).1 with
        | none => .ok ()
        | some (key, obstacle) => .error (.failed (.unsavedInput key obstacle)),
        ctx.withData (ctx.session.data.writeAll entries).2) := by
  induction entries generalizing ctx with
  | nil => rfl
  | cons entry rest ih =>
      obtain ⟨key, v⟩ := entry
      change (storeInput key v >>= fun _ => rest.forM fun entry => storeInput entry.1 entry.2).on
        ctx = _
      cases hwrite : ctx.session.data.write (Path.parse key) v with
      | error obstacle =>
          have hstore : (storeInput key v : Eval σ Unit).on ctx =
              (.error (.failed (.unsavedInput key obstacle)), ctx) := by
            simp only [storeInput, Eval.saveData, Eval.on_make, Session.setData, hwrite,
              Except.map]
          rw [Eval.on_bind_error hstore, Fields.writeAll_of_error hwrite]
          rfl
      | ok data =>
          have hstore : (storeInput key v : Eval σ Unit).on ctx = (.ok (), ctx.withData data) := by
            simp only [storeInput, Eval.saveData, Eval.on_make, Session.setData, hwrite,
              Except.map]
            rfl
          rw [Eval.on_bind_ok hstore, Fields.writeAll_of_ok hwrite]
          exact ih (ctx.withData data)

/-- The outcome of an event is what routing it came to. -/
theorem fst_handle (bound : Nat) (house : House σ) (event : Event) :
    (e.handle bound house event).1 =
      ((e.route bound event.payload (e.checkOut house event.sessionId).2).on
        (e.received house event)).1 := by
  unfold handle received
  rcases e.checkOut house event.sessionId with ⟨ctx, created⟩
  dsimp only

/-- A wait that accepts an event takes it. -/
theorem matched_of_accepts {a : Awaiting} {kind : EventKind} {p : PendingInput}
    (hpending : a.pending = some p)
    (haccepts : p.request.inputKind.accepts kind p.request.allowAttachments) :
    (a.offer kind).1 = .matched p := by
  simp only [Awaiting.offer, hpending]
  rw [if_pos haccepts]

/-- An event that is accepted by the wait that it finds, with what there is room for. -/
theorem exists_matched {ctx : Context σ} {payload : Payload} {key : String}
    {obstacle? : Option (String × Path.Obstacle)}
    (h : (ctx.session.awaiting.pending.map fun p =>
      (p.key, p.request.inputKind.accepts payload.kind p.request.allowAttachments,
        (ctx.session.data.writeAll (p.entries payload)).1)) = some (key, true, obstacle?)) :
    ∃ p, ctx.session.awaiting.pending = some p ∧ p.key = key ∧
      (ctx.session.awaiting.offer payload.kind).1 = .matched p ∧
      (ctx.session.data.writeAll (p.entries payload)).1 = obstacle? := by
  obtain ⟨p, hpending, hfacts⟩ := Option.map_eq_some_iff.1 h
  simp only [Prod.mk.injEq] at hfacts
  obtain ⟨hkey, haccepts, hstored⟩ := hfacts
  exact ⟨p, hpending, hkey, matched_of_accepts hpending haccepts, hstored⟩

/-- No wait takes the press of a button. -/
theorem ne_callback_of_matched {a : Awaiting} {payload : Payload} {p : PendingInput}
    (h : (a.offer payload.kind).1 = .matched p) (data : String) (message : Option MessageId) :
    payload ≠ .callback data message := by
  rintro rfl
  unfold Awaiting.offer at h
  split at h
  · cases h
  · rename_i q hq
    cases hinput : q.request.inputKind <;> simp [hinput, InputKind.accepts, Payload.kind] at h

/-- What an event that a wait takes leads to: the wait is over, what there is room for is stored,
and if this is everything, the graph that follows the answer is run. -/
theorem on_route_of_matched (bound : Nat) (payload : Payload) (created : Bool) (ctx : Context σ)
    {p : PendingInput} (hstart : payload.command? ≠ some Event.startCommand)
    (hmatched : (ctx.session.awaiting.offer payload.kind).1 = .matched p) :
    (e.route bound payload created).on ctx =
      let stored := ctx.session.data.writeAll (p.entries payload)
      let taken := (ctx.withAwaiting ctx.session.awaiting.take).withData stored.2
      match stored.1 with
      | none => (e.conclude bound p payload).on taken
      | some (key, obstacle) => (.error (.failed (.unsavedInput key obstacle)), taken) := by
  rw [route_of_matched bound payload created ctx (ne_callback_of_matched hmatched) hstart hmatched,
    Awaiting.offer_of_matched hmatched, completeInput_eq, Eval.on_bind, on_storeInputs]
  have hdata : (ctx.withAwaiting ctx.session.awaiting.take).session.data = ctx.session.data := rfl
  rw [hdata]
  dsimp only
  cases (ctx.session.data.writeAll (p.entries payload)).1 <;> rfl

/-- Where there is no room for an answer, handling the event fails with the first obstacle, and
the wait is over. -/
theorem forfeit_of_unstored (bound : Nat) {house : House σ} {event : Event} {p : PendingInput}
    (hstart : event.payload.command? ≠ some Event.startCommand)
    (hmatched : ((e.received house event).session.awaiting.offer event.payload.kind).1 =
      .matched p) {key : String} {obstacle : Path.Obstacle} {data : Fields}
    (hstored : (e.received house event).session.data.writeAll (p.entries event.payload) =
      (some (key, obstacle), data)) :
    (e.handle bound house event).1 = .error (.failed (.unsavedInput key obstacle)) ∧
    e.routed bound house event = ((e.received house event).withAwaiting
      (e.received house event).session.awaiting.take).withData data := by
  have hroute := on_route_of_matched (e := e) bound event.payload
    (e.checkOut house event.sessionId).2 (e.received house event) hstart hmatched
  simp only [hstored] at hroute
  rw [fst_handle]
  exact ⟨congrArg Prod.fst hroute, congrArg Prod.snd hroute⟩

/-- An event that a wait takes ends the wait.  Where there is room for the answer it is stored,
and the graph that follows it is run.  Where there is none, handling the event fails with the
first obstacle, and that graph is not run, but the wait is over all the same.  The data is then
as it was, unless the value was stored and its document was not, which takes a key that ends in a
point. -/
theorem capture_stores_or_forfeits (bound : Nat) (house : House σ) (event : Event)
    (p : PendingInput) (hstart : event.payload.command? ≠ some Event.startCommand)
    (hmatched : ((e.received house event).session.awaiting.offer event.payload.kind).1 =
      .matched p) :
    let before := e.received house event
    let stored := before.session.data.writeAll (p.entries event.payload)
    let taken := (before.withAwaiting before.session.awaiting.take).withData stored.2
    (stored.1 = none ↔
      (∃ after, before.session.data.write (Path.parse p.key) event.payload.captured = .ok after) ∧
      (p.attached event.payload ≠ [] → Path.EndsInName p.key)) ∧
    (stored.1 = none →
      (e.handle bound house event).1 = ((e.conclude bound p event.payload).on taken).1 ∧
      e.routed bound house event = ((e.conclude bound p event.payload).on taken).2) ∧
    ∀ key obstacle, stored.1 = some (key, obstacle) →
      (e.handle bound house event).1 = .error (.failed (.unsavedInput key obstacle)) ∧
      e.routed bound house event = taken ∧
      (e.routed bound house event).session.awaiting.pending = none ∧
      (key = p.key ∧ (e.routed bound house event).session.data = before.session.data ∨
        key = attachmentsKey p.key ∧ ¬ Path.EndsInName p.key ∧
        before.session.data.write (Path.parse p.key) event.payload.captured =
          .ok (e.routed bound house event).session.data) := by
  intro before stored taken
  refine ⟨p.stored_iff event.payload before.session.data, fun hstored => ?_,
    fun key obstacle hstored => ?_⟩
  · have hroute := on_route_of_matched (e := e) bound event.payload
      (e.checkOut house event.sessionId).2 before hstart hmatched
    replace hstored : (before.session.data.writeAll (p.entries event.payload)).1 = none := hstored
    simp only [hstored] at hroute
    rw [fst_handle]
    exact ⟨congrArg Prod.fst hroute, congrArg Prod.snd hroute⟩
  · obtain ⟨houtcome, hrouted⟩ := forfeit_of_unstored bound hstart hmatched
      (Prod.ext hstored rfl)
    rw [hrouted]
    exact ⟨houtcome, rfl, rfl, PendingInput.unstored_cases hstored⟩

/-- A scenario that asks for a value, and then for another one below it. -/
def nesting : Scenario where
  startActions := .object
    [("action", .string "RequestInput"), ("key", .string "profile"),
      ("onDone", .object [("action", .string "RequestInput"), ("key", .string "profile.name")])]

/-- After the start: the session waits for the first answer. -/
def inquiring : House Unit :=
  let e := solitary nesting
  (e.handle 5 (e.newHouse ()) (.ofText "s" Event.startCommand)).2

/-- After the first answer: the session waits for the second one. -/
def halfway : House Unit := ((solitary nesting).handle 5 inquiring (.ofText "s" "Ada")).2

/-- The first answer is stored, and the graph that follows it asks for the second one. -/
theorem first_answer_is_stored :
    let e := solitary nesting
    let answer := Event.ofText "s" "Ada"
    let before := e.received inquiring answer
    answer.payload.command? ≠ some Event.startCommand ∧
      ∃ p, (before.session.awaiting.offer answer.payload.kind).1 = .matched p ∧
        p.key = "profile" ∧
        (∃ after, before.session.data.write (Path.parse p.key) answer.payload.captured =
          .ok after) ∧
        e.routed 5 inquiring answer = ((e.conclude 5 p answer.payload).on
          ((before.withAwaiting before.session.awaiting.take).withData
            (before.session.data.writeAll (p.entries answer.payload)).2)).2 := by
  intro e answer before
  have hstart : answer.payload.command? ≠ some Event.startCommand := by decide +kernel
  obtain ⟨p, -, hkey, hmatched, hstored⟩ : ∃ p, before.session.awaiting.pending = some p ∧
      p.key = "profile" ∧ (before.session.awaiting.offer answer.payload.kind).1 = .matched p ∧
      (before.session.data.writeAll (p.entries answer.payload)).1 = none :=
    exists_matched (by decide +kernel)
  obtain ⟨hroom, hcompleted, -⟩ := capture_stores_or_forfeits 5 inquiring answer p hstart hmatched
  exact ⟨hstart, p, hmatched, hkey, (hroom.1 hstored).1, (hcompleted hstored).2⟩

/-- A scenario that asks for a document, under a key that ends in a point. -/
def filing : Scenario where
  startActions := .object
    [("action", .string "RequestInput"), ("key", .string "file."),
      ("inputType", .string "document"), ("allowAttachments", .bool true)]

/-- After the start: the session waits for the document. -/
def desk : House Unit :=
  let e := solitary filing
  (e.handle 5 (e.newHouse ()) (.ofText "s" Event.startCommand)).2

/-- Two answers that are refused, one because there is a text where an object would have to be, and
one because its document has no place beside its value.  In both cases the wait is over; and in
the second the value has been stored. -/
theorem unstored_answers_are_forfeited :
    let answer := Event.ofText "s" "Lovelace"
    let upload : Event := ⟨"s", .document { kind := "photo", fileId := "f1" } none⟩
    ((solitary nesting).Reachable halfway ∧
      ((solitary nesting).received halfway answer).session.awaiting.pending.map
        PendingInput.key = some "profile.name" ∧
      ((solitary nesting).handle 5 halfway answer).1 =
        .error (.failed (.unsavedInput "profile.name" (.notAnObject "profile"))) ∧
      ((solitary nesting).routed 5 halfway answer).session.awaiting.pending = none) ∧
    (solitary filing).Reachable desk ∧
      ((solitary filing).received desk upload).session.awaiting.pending.map
        PendingInput.key = some "file." ∧
      ((solitary filing).received desk upload).session.data.length = 0 ∧
      ((solitary filing).handle 5 desk upload).1 =
        .error (.failed (.unsavedInput "file._attachments" (.notAnObject "file"))) ∧
      ((solitary filing).routed 5 desk upload).session.awaiting.pending = none ∧
      (((solitary filing).routed 5 desk upload).session.data.get? "file").map Value.toText =
        some "f1" := by
  intro answer upload
  obtain ⟨p, hp, hkey, hmatched, hstored⟩ :
      let before := (solitary nesting).received halfway answer
      ∃ p, before.session.awaiting.pending = some p ∧ p.key = "profile.name" ∧
        (before.session.awaiting.offer answer.payload.kind).1 = .matched p ∧
        (before.session.data.writeAll (p.entries answer.payload)).1 =
          some ("profile.name", .notAnObject "profile") :=
    exists_matched (by decide +kernel)
  obtain ⟨hfails, hrouted⟩ := forfeit_of_unstored (e := solitary nesting) 5 (by decide +kernel)
    hmatched (Prod.ext hstored rfl)
  obtain ⟨q, hq, hfile, hopen, hblocked⟩ :
      let before := (solitary filing).received desk upload
      ∃ q, before.session.awaiting.pending = some q ∧ q.key = "file." ∧
        (before.session.awaiting.offer upload.payload.kind).1 = .matched q ∧
        (before.session.data.writeAll (q.entries upload.payload)).1 =
          some ("file._attachments", .notAnObject "file") :=
    exists_matched (by decide +kernel)
  obtain ⟨hrefused, hover⟩ := forfeit_of_unstored (e := solitary filing) 5 (by decide +kernel)
    hopen (Prod.ext hblocked rfl)
  have hhalfway : (solitary nesting).Reachable halfway :=
    ((reachable_newHouse ()).step (.event 5 _ _)).step (.event 5 _ _)
  have hdesk : (solitary filing).Reachable desk := (reachable_newHouse ()).step (.event 5 _ _)
  refine ⟨⟨hhalfway, ?_, hfails, ?_⟩, hdesk, ?_, ?_, hrefused, ?_, ?_⟩
  · rw [hp, Option.map_some, hkey]
  · rw [hrouted]
    rfl
  · rw [hq, Option.map_some, hfile]
  · decide +kernel
  · rw [hover]
    rfl
  · decide +kernel

end Engine
end Dialogue
