import Mathlib
import Dialogue.Host
import Dialogue.Outbox
import Dialogue.Proofs.Keyed
import Dialogue.Session.Basic

/-!
# Live messages

An outbox keeps the messages that still exist, and a record of everything that was done.  The
two agree (`Outbox.Tallies`): a message is live if and only if it was sent and was not deleted
since.  Sending, editing and deleting keep them in agreement.

`Host.KeepsIn` is a host whose messages are in an outbox.  Its sends may be refused at any time;
otherwise it does with messages what the outbox does.
-/

namespace Dialogue

namespace Outbox

/-- By the records, the message was sent and was not deleted since. -/
def Stands (records : List OutboundRecord) (message : MessageId) : Prop :=
  ∃ past id text options since, records = past ++ .sent id message text options :: since ∧
    ∀ owner, .deleted owner message ∉ since

/-- The messages that exist are those that stand. -/
def Tallies (o : Outbox) : Prop := ∀ message, message ∈ o.live ↔ Stands o.records message

/-- A message stands as long as it is not deleted. -/
theorem Stands.append {past later : List OutboundRecord} {message : MessageId}
    (h : Stands past message) (hlater : ∀ owner, .deleted owner message ∉ later) :
    Stands (past ++ later) message := by
  obtain ⟨before, id, text, options, since, rfl, hsince⟩ := h
  refine ⟨before, id, text, options, since ++ later, by simp, fun owner hmem => ?_⟩
  rcases List.mem_append.1 hmem with hold | hnew
  · exact hsince owner hold
  · exact hlater owner hnew

/-- A message stands if the last record sent it, or did not delete it and it stood before. -/
theorem stands_concat_iff {records : List OutboundRecord} {last : OutboundRecord}
    {message : MessageId} :
    Stands (records ++ [last]) message ↔
      (∃ id text options, last = .sent id message text options) ∨
      Stands records message ∧ ∀ owner, last ≠ .deleted owner message := by
  constructor
  · rintro ⟨past, id, text, options, since, hrecords, hsince⟩
    rcases List.eq_nil_or_concat since with rfl | ⟨earlier, latest, rfl⟩
    · -- the message was sent last
      obtain ⟨-, hlast⟩ := List.append_inj' hrecords rfl
      exact .inl ⟨id, text, options, (List.cons.inj hlast).1⟩
    · rw [List.concat_eq_append, ← List.cons_append, ← List.append_assoc] at hrecords
      obtain ⟨hbefore, hlast⟩ := List.append_inj' hrecords rfl
      obtain rfl : last = latest := (List.cons.inj hlast).1
      simp only [List.concat_eq_append, List.mem_append, List.mem_singleton, not_or] at hsince
      exact .inr ⟨⟨past, id, text, options, earlier, hbefore, fun owner => (hsince owner).1⟩,
        fun owner heq => (hsince owner).2 heq.symm⟩
  · rintro (⟨id, text, options, rfl⟩ | ⟨hstood, hlast⟩)
    · exact ⟨records, id, text, options, [], rfl, fun _ => List.not_mem_nil⟩
    · exact hstood.append fun owner hmem => hlast owner (List.mem_singleton.1 hmem).symm

/-- A message that stood and no longer stands was deleted in the meantime. -/
theorem exists_deleted_of_not_stands {past later : List OutboundRecord} {message : MessageId}
    (h : Stands past message) (hgone : ¬ Stands (past ++ later) message) :
    ∃ owner, .deleted owner message ∈ later := by
  by_contra hnever
  exact hgone (h.append fun owner hmem => hnever ⟨owner, hmem⟩)

variable {o : Outbox}

theorem tallies_empty (failSends : Bool) : Tallies { failSends } := by
  intro message
  constructor
  · rintro ⟨⟩
  · rintro ⟨past, id, text, options, since, hrecords, -⟩
    exact absurd hrecords.symm (by simp)

/-! ## Sending, editing and deleting -/

theorem send_cases (o : Outbox) (id text : String) (options : OutputOptions) :
    (o.send id text options = (.error .sendRejected, o)) ∨
    ∃ message, (o.send id text options).1 = .ok message ∧
      (o.send id text options).2.live = message :: o.live ∧
      (o.send id text options).2.records = o.records ++ [.sent id message text options] := by
  unfold send
  split
  · exact .inl rfl
  · exact .inr ⟨_, rfl, rfl, rfl⟩

theorem edit_of_mem {message : MessageId} (h : message ∈ o.live) (id text : String)
    (options : OutputOptions) :
    o.edit id message text options =
      (.ok (), { o with records := o.records ++ [.edited id message text options] }) := by
  simp [edit, h]

theorem edit_of_not_mem {message : MessageId} (h : message ∉ o.live) (id text : String)
    (options : OutputOptions) : o.edit id message text options = (.error (gone message), o) := by
  simp [edit, h]

theorem delete_of_mem {message : MessageId} (h : message ∈ o.live) (id : String) :
    o.delete id message =
      (.ok (), { o with
        live := o.live.filter (· != message)
        records := o.records ++ [.deleted id message] }) := by
  simp [delete, h]

theorem delete_of_not_mem {message : MessageId} (h : message ∉ o.live) (id : String) :
    o.delete id message = (.error (gone message), o) := by
  simp [delete, h]

@[simp] theorem live_edit (o : Outbox) (id : String) (message : MessageId) (text : String)
    (options : OutputOptions) : (o.edit id message text options).2.live = o.live := by
  by_cases h : message ∈ o.live
  · rw [edit_of_mem h]
  · rw [edit_of_not_mem h]

@[simp] theorem mem_live_delete {id : String} {message other : MessageId} :
    other ∈ (o.delete id message).2.live ↔ other ∈ o.live ∧ other ≠ message := by
  by_cases h : message ∈ o.live
  · simp [delete_of_mem h]
  · rw [delete_of_not_mem h, iff_self_and]
    rintro hother rfl
    exact h hother

/-- The record of an outbox goes on, and agrees with the live messages if it did before. -/
structure Continues (before after : Outbox) : Prop where
  records : before.records <+: after.records
  tallies : before.Tallies → after.Tallies

theorem Continues.refl (o : Outbox) : o.Continues o := ⟨List.prefix_refl _, id⟩

theorem Continues.trans {before between after : Outbox} (hfirst : before.Continues between)
    (hsecond : between.Continues after) : before.Continues after :=
  ⟨hfirst.records.trans hsecond.records, fun h => hsecond.tallies (hfirst.tallies h)⟩

theorem continues_send (o : Outbox) (id text : String) (options : OutputOptions) :
    o.Continues (o.send id text options).2 := by
  rcases o.send_cases id text options with hrejected | ⟨message, -, hlive, hrecords⟩
  · rw [hrejected]
    exact .refl o
  · refine ⟨by simp [hrecords], fun h other => ?_⟩
    rw [hlive, hrecords, stands_concat_iff, List.mem_cons, h other]
    simp [@eq_comm _ other message]

theorem continues_edit (o : Outbox) (id : String) (message : MessageId) (text : String)
    (options : OutputOptions) : o.Continues (o.edit id message text options).2 := by
  by_cases hmem : message ∈ o.live
  · rw [edit_of_mem hmem]
    refine ⟨List.prefix_append _ _, fun h other => ?_⟩
    rw [stands_concat_iff, ← h other]
    simp
  · rw [edit_of_not_mem hmem]
    exact .refl o

theorem continues_delete (o : Outbox) (id : String) (message : MessageId) :
    o.Continues (o.delete id message).2 := by
  by_cases hmem : message ∈ o.live
  · rw [delete_of_mem hmem]
    refine ⟨List.prefix_append _ _, fun h other => ?_⟩
    rw [stands_concat_iff, ← h other]
    simp [@eq_comm _ other message]
  · rw [delete_of_not_mem hmem]
    exact .refl o

end Outbox

/-! ## Hosts -/

/-- A host whose messages are in an outbox.  It may refuse to send a message; apart from that it
does what the outbox does.  Endpoints are somewhere else. -/
structure Host.KeepsIn {σ : Type} (host : Host σ) (outbox : σ → Outbox) : Prop where
  send : ∀ outside id text options,
    let result := host.send outside id text options
    let expected := (outbox outside).send id text options
    result.1 = expected.1 ∧ outbox result.2 = expected.2 ∨
      result.1 = .error .sendRejected ∧ outbox result.2 = outbox outside
  edit : ∀ outside id message text options,
    let result := host.edit outside id message text options
    let expected := (outbox outside).edit id message text options
    result.1 = expected.1 ∧ outbox result.2 = expected.2
  delete : ∀ outside id message,
    let result := host.delete outside id message
    let expected := (outbox outside).delete id message
    result.1 = expected.1 ∧ outbox result.2 = expected.2
  call : ∀ outside request, outbox (host.call outside request).2 = outbox outside

/-- A message that was sent is live, and so are those that were. -/
theorem Host.KeepsIn.sent {σ : Type} {host : Host σ} {outbox : σ → Outbox}
    (keeps : host.KeepsIn outbox) (outside : σ) (id text : String) (options : OutputOptions) :
    let result := host.send outside id text options
    (outbox outside).Continues (outbox result.2) ∧
      (∀ message ∈ (outbox outside).live, message ∈ (outbox result.2).live) ∧
      ∀ message, result.1 = .ok message → message ∈ (outbox result.2).live := by
  intro result
  rcases keeps.send outside id text options with ⟨hresult, houtbox⟩ | ⟨hrefused, hsame⟩
  · rw [houtbox, hresult]
    refine ⟨Outbox.continues_send _ id text options, ?_⟩
    rcases (outbox outside).send_cases id text options with hrejected | ⟨sent, hsent, hlive, -⟩
    · rw [hrejected]
      exact ⟨fun _ hmem => hmem, fun _ hok => nomatch hok⟩
    · rw [hsent, hlive]
      refine ⟨fun _ hmem => List.mem_cons_of_mem _ hmem, ?_⟩
      rintro _ ⟨⟩
      exact List.mem_cons_self
  · rw [hsame, hrefused]
    exact ⟨.refl _, fun _ hmem => hmem, fun _ hok => nomatch hok⟩

/-! ## Sessions -/

namespace Session

/-- The message is the last one of the session, or the session has a name for it. -/
def RefersTo (s : Session) (message : MessageId) : Prop :=
  s.lastMessage = some message ∨ ∃ name, (name, message) ∈ s.messages

/-- Every message that the session refers to is live. -/
def Anchored (s : Session) (o : Outbox) : Prop := ∀ message, s.RefersTo message → message ∈ o.live

variable {s : Session} {message other : MessageId}

theorem refersTo_of_rememberMessage {name : Option String}
    (h : (s.rememberMessage name message).RefersTo other) : other = message ∨ s.RefersTo other := by
  rcases h with hlast | ⟨named, hmem⟩
  · exact .inl (Option.some.inj hlast).symm
  · cases name with
    | none => exact .inr (.inr ⟨named, hmem⟩)
    | some name =>
        rcases Keyed.mem_of_mem_put hmem with hnew | hold
        · exact .inl (Prod.mk.inj hnew).2
        · exact .inr (.inr ⟨named, hold⟩)

theorem refersTo_of_forgetMessage (h : (s.forgetMessage message).RefersTo other) :
    other ≠ message ∧ s.RefersTo other := by
  rcases h with hlast | ⟨name, hmem⟩
  · simp only [forgetMessage] at hlast
    split at hlast
    · cases hlast
    · rename_i hne
      exact ⟨fun heq => hne (hlast.trans (congrArg some heq)), .inl hlast⟩
  · obtain ⟨hold, hne⟩ := List.mem_filter.1 hmem
    exact ⟨by simpa using hne, .inr ⟨name, hold⟩⟩

end Session
end Dialogue
