import Dialogue.Decimal.Count
import Dialogue.Decimal.Layout
import Dialogue.Json.Value

/-!
# Callbacks

A button carries the identifier of a callback: the graph to run when it is pressed, the
session it belongs to and the parameters it passes.  Identifiers count up from zero.
When the table is full, the older half of its entries is dropped in one go, so a button
of an old message may stop working once enough newer ones were shown.

Since only the oldest entries are ever dropped, the numbers of the others need not be
stored: the newest entry has the last number given out, and each further one the number
before.
-/

namespace Dialogue

/-- What the press of a button runs. -/
structure Callback where
  sessionId : String
  graph : Value
  params : Fields

/-- Callbacks, newest first, their number, and the number that the next one gets. -/
structure CallbackTable where
  capacity : Nat
  nextNumber : Nat := 0
  entries : List Callback := []
  size : Nat := entries.length
  size_eq : size = entries.length := by rfl

namespace CallbackTable

/-- An empty table; it holds at least two entries. -/
def empty (capacity : Nat) : CallbackTable := { capacity := max capacity 2 }

/-- The identifier of a number. -/
def identifier (n : Nat) : String := "cb:" ++ Decimal.ofInt n

/-- The number behind an identifier. -/
def number? (id : String) : Option Nat :=
  match id.toList with
  | 'c' :: 'b' :: ':' :: digits => Decimal.count? Decimal.wordLimit (String.ofList digits)
  | _ => none

/-- The table without the older half of its entries; of an odd number the one in the
middle is kept. -/
def halve (t : CallbackTable) : CallbackTable where
  capacity := t.capacity
  nextNumber := t.nextNumber
  entries := t.entries.take (t.size - t.size / 2)
  size := t.size - t.size / 2
  size_eq := by
    have := t.size_eq
    rw [List.length_take]
    omega

/-- The table with room for one more entry. -/
def makeRoom (t : CallbackTable) : CallbackTable :=
  if t.capacity ≤ t.size then t.halve else t

/-- The table with a new entry, whether there is room or not. -/
def push (t : CallbackTable) (entry : Callback) : CallbackTable where
  capacity := t.capacity
  nextNumber := t.nextNumber + 1
  entries := entry :: t.entries
  size := t.size + 1
  size_eq := by rw [List.length_cons, t.size_eq]

/-- Adds an entry and returns its identifier. -/
def insert (t : CallbackTable) (entry : Callback) : String × CallbackTable :=
  (identifier t.nextNumber, t.makeRoom.push entry)

/-- The entry with a number. -/
def numbered? (t : CallbackTable) (n : Nat) : Option Callback :=
  if n < t.nextNumber then t.entries[t.nextNumber - 1 - n]? else none

/-- The entry under an identifier. -/
def get? (t : CallbackTable) (id : String) : Option Callback :=
  (number? id).bind t.numbered?

@[simp] theorem capacity_makeRoom (t : CallbackTable) : t.makeRoom.capacity = t.capacity := by
  unfold makeRoom
  split <;> rfl

@[simp] theorem nextNumber_makeRoom (t : CallbackTable) :
    t.makeRoom.nextNumber = t.nextNumber := by
  unfold makeRoom
  split <;> rfl

theorem capacity_insert (t : CallbackTable) (entry : Callback) :
    (t.insert entry).2.capacity = t.capacity :=
  capacity_makeRoom t

theorem nextNumber_insert (t : CallbackTable) (entry : Callback) :
    (t.insert entry).2.nextNumber = t.nextNumber + 1 :=
  congrArg (· + 1) (nextNumber_makeRoom t)

/-- Making room in a table of capacity at least two leaves it below its capacity. -/
theorem size_makeRoom_lt (t : CallbackTable) (two : 2 ≤ t.capacity) (le : t.size ≤ t.capacity) :
    t.makeRoom.size < t.capacity := by
  unfold makeRoom
  split
  · simp only [halve]
    omega
  · omega

/-- A table of capacity at least two never grows beyond it. -/
theorem size_insert_le (t : CallbackTable) (entry : Callback) (two : 2 ≤ t.capacity)
    (le : t.size ≤ t.capacity) : (t.insert entry).2.size ≤ t.capacity :=
  size_makeRoom_lt t two le

/-- The entry pushed last has the number that was next. -/
theorem numbered?_push_self (t : CallbackTable) (entry : Callback) :
    (t.push entry).numbered? t.nextNumber = some entry := by
  simp [numbered?, push]

/-- Pushing an entry leaves the others under their numbers. -/
theorem numbered?_push_of_lt (t : CallbackTable) (entry : Callback) {n : Nat}
    (h : n < t.nextNumber) : (t.push entry).numbered? n = t.numbered? n := by
  have later : n < t.nextNumber + 1 := Nat.lt_succ_of_lt h
  have place : t.nextNumber + 1 - 1 - n = (t.nextNumber - 1 - n) + 1 := by omega
  simp only [numbered?, push, if_pos later, if_pos h, place, List.getElem?_cons_succ]

end CallbackTable
end Dialogue
