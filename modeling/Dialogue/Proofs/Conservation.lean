import Mathlib
import Dialogue.Session.Awaiting

/-!
# Conservation of waits

The machine that holds the wait of a session has five operations.  Each of them can take the
wait away: `arm` replaces it, `offer` may match it, `cancel` drops it, and it can expire by its
generation or by its deadline.  What follows a wait, the graph of its answer, that of its
cancellation or the report of its timeout, is started from what the operation hands back, so a
wait that came out twice would be followed twice, and one that got lost not at all.

A `Ledger` lists what a course of operations puts in and what comes out:

* `Ledger.Balances` — the account of a ledger between two states of the machine: what was
  pending before and what was armed is what left and what is pending after, and the waits that
  were armed got the next generations, one after the other.
* `Operation.balances` — every operation balances.
* `Ledger.Balances.append` — accounts of consecutive courses add up.
* `run_balances` — so does every course, from every state.

`waits_conserved` is what this means for a machine that starts out empty.
-/

namespace Dialogue

/-- The record that a match hands over. -/
def InputMatch.record? : InputMatch → Option PendingInput
  | .matched p => some p
  | .idle | .mismatch => none

namespace Awaiting

/-- A call of the machine, with its arguments. -/
inductive Operation where
  | arm (request : InputRequest) (now : Nanos)
  | offer (kind : EventKind)
  | cancel
  | expire (generation : Nat)
  | expireIfDue (now : Nanos)

/-- How a wait leaves the machine. -/
inductive Exit where
  /-- A later wait was armed in its place. -/
  | abandoned
  /-- It accepted an event. -/
  | matched
  | cancelled
  /-- Its timer ended it, or it was found overdue. -/
  | expired
deriving DecidableEq, Repr

/-- What operations put into the machine and what they hand back. -/
structure Ledger where
  /-- The generations that `arm` answered with. -/
  handedOut : List Nat := []
  /-- The records that were armed. -/
  armed : List PendingInput := []
  /-- The records that came out, and through which exit. -/
  left : List (Exit × PendingInput) := []

namespace Ledger

/-- One ledger after another. -/
def append (first second : Ledger) : Ledger where
  handedOut := first.handedOut ++ second.handedOut
  armed := first.armed ++ second.armed
  left := first.left ++ second.left

/-- The records that came out. -/
def records (ledger : Ledger) : List PendingInput := ledger.left.map Prod.snd

/-- The entry for an operation that may have handed a record back. -/
def ofExit (exit : Exit) (record? : Option PendingInput) : Ledger where
  left := record?.toList.map fun p => (exit, p)

@[simp] theorem records_append (first second : Ledger) :
    (first.append second).records = first.records ++ second.records :=
  List.map_append

@[simp] theorem records_ofExit (exit : Exit) (record? : Option PendingInput) :
    (ofExit exit record?).records = record?.toList := by
  cases record? <;> rfl

end Ledger

namespace Operation

/-- An operation on the machine, and what is written into the ledger: the answer of `arm` and
the record that its request makes with this generation, and what comes out. -/
def perform (a : Awaiting) : Operation → Ledger × Awaiting
  | arm request now =>
    let ((generation, replaced?), after) := a.arm request now
    let record : PendingInput :=
      { request, generation, deadline := request.timeout.map (now + ·) }
    ({ Ledger.ofExit .abandoned replaced? with handedOut := [generation], armed := [record] },
      after)
  | offer kind =>
    let (found, after) := a.offer kind
    (.ofExit .matched found.record?, after)
  | cancel =>
    let (record?, after) := a.cancel
    (.ofExit .cancelled record?, after)
  | expire generation =>
    let (record?, after) := a.expire generation
    (.ofExit .expired record?, after)
  | expireIfDue now =>
    let (record?, after) := a.expireIfDue now
    (.ofExit .expired record?, after)

end Operation

/-- A course of operations. -/
def run (a : Awaiting) : List Operation → Ledger × Awaiting
  | [] => ({}, a)
  | operation :: rest =>
    let (entry, next) := operation.perform a
    let (ledger, final) := next.run rest
    (entry.append ledger, final)

/-- The ledger is an account of how the machine got from one state to another. -/
structure Ledger.Balances (before : Awaiting) (ledger : Ledger) (after : Awaiting) : Prop where
  /-- Nothing is lost and nothing is duplicated. -/
  balance : (before.pending.toList : Multiset PendingInput) + ledger.armed =
    ledger.records + after.pending.toList
  /-- A record that is armed bears the generation that is handed out for it. -/
  named : ledger.armed.map PendingInput.generation = ledger.handedOut
  /-- Generations are handed out one after the other. -/
  numbered : ledger.handedOut =
    List.range' (before.generation + 1) (after.generation - before.generation)
  /-- The last one handed out is kept. -/
  grows : before.generation ≤ after.generation

namespace Ledger.Balances

variable {before next after : Awaiting} {first second : Ledger}

theorem append (hfirst : Balances before first next) (hsecond : Balances next second after) :
    Balances before (first.append second) after where
  balance := by
    have harmed : ((first.append second).armed : Multiset PendingInput) =
        first.armed + second.armed := rfl
    have hrecords : ((first.append second).records : Multiset PendingInput) =
        first.records + second.records := by
      rw [records_append, Multiset.coe_add]
    -- what is pending in between is an exit side of the first and an entry side of the second
    calc (before.pending.toList : Multiset PendingInput) + (first.append second).armed
        = (before.pending.toList + first.armed) + second.armed := by rw [harmed, add_assoc]
      _ = first.records + (next.pending.toList + second.armed) := by
          rw [hfirst.balance, add_assoc]
      _ = (first.append second).records + after.pending.toList := by
          rw [hsecond.balance, hrecords, add_assoc]
  named := by
    have harmed := congrArg₂ (· ++ ·) hfirst.named hsecond.named
    simpa [Ledger.append] using harmed
  numbered := by
    have hle := hfirst.grows
    have hle' := hsecond.grows
    have hstart : next.generation + 1 =
        before.generation + 1 + (next.generation - before.generation) := by omega
    have hcount : after.generation - before.generation =
        (next.generation - before.generation) + (after.generation - next.generation) := by omega
    calc (first.append second).handedOut
        = List.range' (before.generation + 1) (next.generation - before.generation) ++
            List.range' (next.generation + 1) (after.generation - next.generation) := by
          rw [← hfirst.numbered, ← hsecond.numbered]
          rfl
      _ = List.range' (before.generation + 1) (after.generation - before.generation) := by
          rw [hstart, hcount, ← List.range'_append_1]
  grows := hfirst.grows.trans hsecond.grows

/-- An operation that arms nothing balances if what comes out is what was pending and no
longer is. -/
theorem ofExit (exit : Exit) {record? : Option PendingInput}
    (hgeneration : after.generation = before.generation)
    (hout : before.pending.toList = record?.toList ++ after.pending.toList) :
    Balances before (.ofExit exit record?) after where
  balance := by
    rw [records_ofExit, hout, ← Multiset.coe_add]
    exact add_zero _
  named := rfl
  numbered := by
    rw [hgeneration, Nat.sub_self]
    rfl
  grows := hgeneration.ge

end Ledger.Balances

/-- A wait that ends on a condition is handed back, and one that does not stays. -/
theorem pending_endIf (a : Awaiting) (condition : PendingInput → Bool) :
    (a.endIf condition).2.generation = a.generation ∧
    a.pending.toList =
      (a.endIf condition).1.toList ++ (a.endIf condition).2.pending.toList := by
  unfold endIf
  cases hpending : a.pending with
  | none => simp [hpending]
  | some p =>
      dsimp only
      split
      · exact ⟨rfl, (List.append_nil [p]).symm⟩
      · simp [hpending]

/-- A match hands the wait over, and everything else leaves the machine as it is. -/
theorem pending_offer (a : Awaiting) (kind : EventKind) :
    (a.offer kind).2.generation = a.generation ∧
    a.pending.toList =
      (a.offer kind).1.record?.toList ++ (a.offer kind).2.pending.toList := by
  unfold offer
  cases hpending : a.pending with
  | none => simp [hpending, InputMatch.record?]
  | some p =>
      dsimp only
      split
      · exact ⟨rfl, (List.append_nil [p]).symm⟩
      · simp [hpending, InputMatch.record?]

/-- Every operation balances. -/
theorem Operation.balances (a : Awaiting) (operation : Operation) :
    Ledger.Balances a (operation.perform a).1 (operation.perform a).2 := by
  cases operation with
  | arm request now =>
      refine ⟨?_, rfl, ?_, Nat.le_succ _⟩
      · -- the record that was pending comes out, and the new one is pending
        have hrecords : (perform a (arm request now)).1.records = a.pending.toList :=
          Ledger.records_ofExit .abandoned a.pending
        rw [hrecords]
        rfl
      · change [a.generation + 1] = List.range' (a.generation + 1) (a.generation + 1 - a.generation)
        rw [Nat.add_sub_cancel_left]
        rfl
  | offer kind =>
      obtain ⟨hgeneration, hout⟩ := a.pending_offer kind
      exact .ofExit .matched hgeneration hout
  | cancel => exact .ofExit .cancelled rfl (List.append_nil _).symm
  | expire generation =>
      obtain ⟨hgeneration, hout⟩ := a.pending_endIf fun p => p.generation == generation
      exact .ofExit .expired hgeneration hout
  | expireIfDue now =>
      obtain ⟨hgeneration, hout⟩ := a.pending_endIf fun p => p.isDue now
      exact .ofExit .expired hgeneration hout

/-- Every course of operations balances, from whatever state it starts. -/
theorem run_balances (operations : List Operation) : ∀ a : Awaiting,
    Ledger.Balances a (a.run operations).1 (a.run operations).2 := by
  induction operations with
  | nil => exact fun a => ⟨add_comm _ _, rfl, by simp [run], le_rfl⟩
  | cons operation rest ih => exact fun a => (operation.balances a).append (ih _)

/-- Only the wait of a generation expires by this generation. -/
theorem generation_eq_of_expire (a : Awaiting) {generation : Nat} {p : PendingInput}
    (h : (a.expire generation).1 = some p) : p.generation = generation := by
  unfold expire endIf at h
  split at h
  · split at h
    · rename_i hgeneration
      cases h
      exact eq_of_beq hgeneration
    · cases h
  · cases h

/-- An event that the wait does not accept leaves the machine as it is. -/
theorem offer_of_mismatch (a : Awaiting) {kind : EventKind}
    (h : (a.offer kind).1 = .mismatch) : (a.offer kind).2 = a := by
  unfold offer at h ⊢
  split
  · rfl
  · split
    · simp_all
    · rfl

/-- Whatever is called on a machine that starts out empty: the generations it hands out
increase, what it armed is what came out, through whichever exit, and what is pending, no wait
comes out twice or comes out while it is still pending.  No machine ends a wait by the
generation of another, and an event that does not match changes nothing. -/
theorem waits_conserved (operations : List Operation) :
    let ledger := (run {} operations).1
    let final := (run {} operations).2
    ledger.handedOut.Pairwise (· < ·) ∧
    ledger.armed.map PendingInput.generation = ledger.handedOut ∧
    (ledger.armed : Multiset PendingInput) =
      (ledger.left.map Prod.snd : Multiset PendingInput) + final.pending.toList ∧
    ((ledger.left.map Prod.snd ++ final.pending.toList).map PendingInput.generation).Nodup ∧
    (∀ (a : Awaiting) generation p, (a.expire generation).1 = some p →
      p.generation = generation) ∧
    ∀ (a : Awaiting) kind, (a.offer kind).1 = .mismatch → (a.offer kind).2 = a := by
  intro ledger final
  have hbalances : Ledger.Balances {} ledger final := run_balances operations {}
  have hincreasing : ledger.handedOut.Pairwise (· < ·) := by
    rw [hbalances.numbered]
    exact List.pairwise_lt_range'
  have hbalance : (ledger.armed : Multiset PendingInput) =
      ledger.records + final.pending.toList := by
    rw [← hbalances.balance]
    exact (zero_add _).symm
  have hperm : ledger.armed.Perm (ledger.records ++ final.pending.toList) := by
    rw [Multiset.coe_add] at hbalance
    exact Multiset.coe_eq_coe.1 hbalance
  have honce : ((ledger.records ++ final.pending.toList).map PendingInput.generation).Nodup := by
    -- what came out or is pending are the waits that were armed, and these have their own numbers
    apply (hperm.map PendingInput.generation).nodup_iff.1
    rw [hbalances.named]
    exact hincreasing.imp Nat.ne_of_lt
  exact ⟨hincreasing, hbalances.named, hbalance, honce,
    fun a _ _ => a.generation_eq_of_expire, fun a _ => a.offer_of_mismatch⟩

end Awaiting
end Dialogue
