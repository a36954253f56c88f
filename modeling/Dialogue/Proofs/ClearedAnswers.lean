import Dialogue.Proofs.Captures
import Dialogue.Proofs.PathLaws
import Dialogue.Proofs.Remaining

/-!
# Answers that are cleared

A wait may ask for its answer to be cleared: the value and the document are there while the graph
that follows the answer runs, and are removed when it has ended, however it ended.  In between
that graph may do anything: write the same key again, or something above or below it, ask for the
next answer, or fail.

* `Engine.conclusion`: how the graph that follows an answer ends, and what it leaves.
* `Engine.on_conclude_of_clearAfter`: what it leaves is cleared, and its outcome is handed on.
* `Engine.cleared_answers_are_gone`: after the event neither the value nor the document is found
  in the session's data.
-/

namespace Dialogue

variable {σ : Type}

/-- The data without an answer and its document. -/
def Fields.withoutAnswer (data : Fields) (key : String) : Fields :=
  ((data.remove (Path.parse key)).2.remove (Path.parse (Engine.attachmentsKey key))).2

namespace Fields

variable {data : Fields} {key : String}

/-- The value is gone; to remove the document does not bring it back. -/
theorem at?_withoutAnswer_key (h : data.Unlisted (Path.parse key)) :
    (data.withoutAnswer key).at? (Path.parse key) = none :=
  at?_remove_eq_none h.at?_remove _

/-- The document is gone as well. -/
theorem at?_withoutAnswer_attachments (h : data.Unlisted (Path.parse (Engine.attachmentsKey key))) :
    (data.withoutAnswer key).at? (Path.parse (Engine.attachmentsKey key)) = none :=
  (h.remove _).at?_remove

/-- Everything else is still there. -/
theorem at?_withoutAnswer_of_apart {other : Path} (hkey : Path.Apart (Path.parse key) other)
    (hattachments : Path.Apart (Path.parse (Engine.attachmentsKey key)) other) :
    (data.withoutAnswer key).at? other = data.at? other := by
  rw [withoutAnswer, at?_remove_of_apart hattachments, at?_remove_of_apart hkey]

end Fields

namespace Engine

variable {e : Engine σ}

/-- How the graph that follows an answer ends, and what it leaves. -/
def conclusion (e : Engine σ) (bound : Nat) (p : PendingInput) (payload : Payload)
    (ctx : Context σ) : Except Stop Unit × Context σ :=
  (Eval.withLocals [("value", payload.captured)] (e.runGraph bound p.request.onDone)).on ctx

/-- What the graph leaves is cleared, and its outcome is handed on, whatever it is. -/
theorem on_conclude_of_clearAfter (bound : Nat) {p : PendingInput} (payload : Payload)
    (ctx : Context σ) (hclear : p.request.clearAfter = true) :
    (e.conclude bound p payload).on ctx =
      let left := e.conclusion bound p payload ctx
      (left.1, left.2.withData (left.2.session.data.withoutAnswer p.key)) := by
  unfold conclude conclusion
  rw [Eval.on_thenAlways, if_pos hclear]
  generalize (Eval.withLocals [("value", payload.captured)]
    (e.runGraph bound p.request.onDone)).on ctx = left
  obtain ⟨outcome, after⟩ := left
  cases outcome <;> rfl

/-- What an answer that is stored and then cleared leads to. -/
theorem routed_of_clearAfter (bound : Nat) {house : House σ} {event : Event} {p : PendingInput}
    (hstart : event.payload.command? ≠ some Event.startCommand)
    (hmatched : ((e.received house event).session.awaiting.offer event.payload.kind).1 =
      .matched p) (hclear : p.request.clearAfter = true) {data : Fields}
    (hstored : (e.received house event).session.data.writeAll (p.entries event.payload) =
      (none, data)) :
    let before := e.received house event
    let taken := (before.withAwaiting before.session.awaiting.take).withData data
    let left := e.conclusion bound p event.payload taken
    (e.handle bound house event).1 = left.1 ∧
    e.routed bound house event = left.2.withData (left.2.session.data.withoutAnswer p.key) := by
  intro before taken left
  have hroute := on_route_of_matched (e := e) bound event.payload
    (e.checkOut house event.sessionId).2 before hstart hmatched
  simp only [before, hstored] at hroute
  rw [on_conclude_of_clearAfter bound event.payload _ hclear] at hroute
  rw [fst_handle]
  exact Prod.ext_iff.1 hroute

/-- An answer that was stored and is to be cleared is gone when its event was handled, whatever
the graph that follows it did and however it ended: the outcome of that graph is the outcome of
the event, and in the session that is stored then neither the value nor the document is found,
unless the graph left a list on the way there, through which nothing is removed.  What parts from
both is as the graph left it. -/
theorem cleared_answers_are_gone (builtIn : e.BuiltIn) (bound : Nat) (house : House σ)
    (htidy : house.agenda.store.Tidy) (event : Event) (p : PendingInput)
    (hstart : event.payload.command? ≠ some Event.startCommand)
    (hmatched : ((e.received house event).session.awaiting.offer event.payload.kind).1 =
      .matched p)
    (hclear : p.request.clearAfter = true)
    (hstored : ((e.received house event).session.data.writeAll (p.entries event.payload)).1 =
      none) :
    let before := e.received house event
    let taken := (before.withAwaiting before.session.awaiting.take).withData
      (before.session.data.writeAll (p.entries event.payload)).2
    let left := e.conclusion bound p event.payload taken
    let later := e.handle bound house event
    later.1 = left.1 ∧
    ∀ stored, later.2.agenda.store.get? event.sessionId = some stored →
      (left.2.session.data.Unlisted (Path.parse p.key) →
        stored.session.getData? p.key = none) ∧
      (left.2.session.data.Unlisted (Path.parse (attachmentsKey p.key)) →
        stored.session.getData? (attachmentsKey p.key) = none) ∧
      ∀ other, Path.Apart (Path.parse p.key) other →
        Path.Apart (Path.parse (attachmentsKey p.key)) other →
        stored.session.data.at? other = left.2.session.data.at? other := by
  intro before taken left later
  obtain ⟨houtcome, hrouted⟩ := routed_of_clearAfter bound hstart hmatched hclear
    (Prod.ext hstored rfl)
  refine ⟨houtcome, fun stored hget => ?_⟩
  obtain ⟨-, hkept⟩ := session_of_handle builtIn bound event htidy
  have hdata : stored.session.data = left.2.session.data.withoutAnswer p.key := by
    rw [(hkept stored hget).data_eq, hrouted]
    rfl
  unfold Session.getData?
  rw [hdata]
  exact ⟨Fields.at?_withoutAnswer_key, Fields.at?_withoutAnswer_attachments,
    fun other hkey hattachments => Fields.at?_withoutAnswer_of_apart hkey hattachments⟩

/-- A scenario that asks for a document, which is to be cleared, and then copies its name, writes
the key once more, and fails. -/
def collecting : Scenario where
  startActions := .object
    [("action", .string "RequestInput"), ("key", .string "id"),
      ("inputType", .string "document"), ("allowAttachments", .bool true),
      ("clearAfter", .bool true),
      ("onDone", .array
        [.object [("action", .string "ReadStorage"), ("fallback", .string "{{value}}"),
            ("key", .string "k"), ("saveTo", .string "copy")],
          .object [("action", .string "ReadStorage"), ("fallback", .string "again"),
            ("key", .string "k"), ("saveTo", .string "id")],
          .object [("function", .string "Missing")]])]

/-- After the start: the session waits for the document. -/
def counter : House Unit :=
  let e := solitary collecting
  (e.handle 5 (e.newHouse ()) (.ofText "s" Event.startCommand)).2

/-- The document is handed in. -/
def handedIn : Event := ⟨"s", .document { kind := "photo", fileId := "f1" } none⟩

/-- Of the document that was handed in only the copy of its name is left, although the graph wrote
the key once more and failed then. -/
theorem handed_in_document_is_gone :
    let e := solitary collecting
    let later := e.handle 5 counter handedIn
    e.Reachable counter ∧ later.1.toOption = none ∧
      ∃ stored, later.2.agenda.store.get? "s" = some stored ∧
        stored.session.getData? "id" = none ∧
        stored.session.getData? (attachmentsKey "id") = none ∧
        (stored.session.getData? "copy").map Value.toText = some "f1" := by
  intro e later
  have builtIn : e.BuiltIn := solitary_builtIn collecting
  have hcounter : e.Reachable counter := (reachable_newHouse ()).step (.event 5 _ _)
  obtain ⟨p, hp, hkey, hmatched, hstored⟩ :
      let before := e.received counter handedIn
      ∃ p, before.session.awaiting.pending = some p ∧ p.key = "id" ∧
        (before.session.awaiting.offer handedIn.payload.kind).1 = .matched p ∧
        (before.session.data.writeAll (p.entries handedIn.payload)).1 = none :=
    exists_matched (by decide +kernel)
  have hclear : (e.received counter handedIn).session.awaiting.pending.map
      (fun p => p.request.clearAfter) = some true := by
    decide +kernel
  rw [hp, Option.map_some, Option.some.injEq] at hclear
  obtain ⟨-, hgone⟩ := cleared_answers_are_gone builtIn 5 counter (hcounter.chronicle builtIn).1
    handedIn p (by decide +kernel) hmatched hclear hstored
  rw [hkey] at hgone
  have hcopied : (later.2.agenda.store.get? "s").map (fun stored =>
      (stored.session.getData? "copy").map Value.toText) = some (some "f1") := by
    decide +kernel
  obtain ⟨stored, hget, hcopy⟩ := Option.map_eq_some_iff.1 hcopied
  obtain ⟨hvalue, hdocument, -⟩ := hgone stored hget
  have hpath : Path.parse "id" = ["id"] := by decide +kernel
  have hpath' : Path.parse (attachmentsKey "id") = ["id_attachments"] := by decide +kernel
  rw [hpath] at hvalue
  rw [hpath'] at hdocument
  exact ⟨hcounter, by decide +kernel, stored, hget, hvalue (Fields.unlisted_singleton _ _),
    hdocument (Fields.unlisted_singleton _ _), hcopy⟩

end Engine
end Dialogue
