import Dialogue.Proofs.Keyed
import Dialogue.Proofs.Templates
import Dialogue.Value.Path

/-!
# Writing at paths

Writing descends through objects and creates those that are missing, so a place beside one that
was written is free, and a place below a text is not.

* `Fields.write_cons`: one step of the descent.
* `Fields.write_beside`, `Fields.write_below`: what a value that was written means for the next.
* `Path.parse_append`: the path of a text that is continued.
-/

namespace Dialogue

namespace Value

/-- The object that a write goes on in; nothing and null make room for a new one. -/
def room? : Option Value → Option Fields
  | none | some .null => some []
  | some (.object inner) => some inner
  | some _ => none

end Value

namespace Fields

/-- A write below a name goes on in the object under that name. -/
theorem write_cons (fields : Fields) (segment : String) {path : Path} (hpath : path ≠ [])
    (v : Value) :
    fields.write (segment :: path) v =
      match Value.room? (fields.get? segment) with
      | some inner => (write inner path v).map fun inner => fields.put segment (.object inner)
      | none => .error (.notAnObject segment) := by
  cases path with
  | nil => exact absurd rfl hpath
  | cons next rest =>
      rw [write]
      rcases fields.get? segment with _ | _ | _ | _ | _ | _ | _ <;> rfl

/-- A write below a name succeeds if there is an object to go on in and the write succeeds there. -/
theorem write_cons_eq_ok_iff {fields after : Fields} {segment : String} {path : Path}
    (hpath : path ≠ []) {v : Value} :
    fields.write (segment :: path) v = .ok after ↔
      ∃ inner written, Value.room? (fields.get? segment) = some inner ∧
        inner.write path v = .ok written ∧ after = fields.put segment (.object written) := by
  rw [write_cons fields segment hpath]
  cases Value.room? (fields.get? segment) with
  | none => simp
  | some inner =>
      simp only [Option.some.injEq, exists_and_left, exists_eq_left']
      cases inner.write path v with
      | error obstacle => simp [Except.map]
      | ok written => simp [Except.map, eq_comm]

/-- The object that was written is there afterwards. -/
@[simp] theorem room?_put (fields : Fields) (segment : String) (written : Fields) :
    Value.room? ((fields.put segment (.object written)).get? segment) = some written := by
  rw [Keyed.get?_put_self]
  rfl

/-- Beside a value that was written there is room for another one. -/
theorem write_beside {front : Path} {name : String} {fields after : Fields} {v : Value}
    (h : fields.write (front ++ [name]) v = .ok after) (other : String) (w : Value) :
    ∃ final, after.write (front ++ [other]) w = .ok final := by
  induction front generalizing fields after with
  | nil => exact ⟨_, rfl⟩
  | cons segment rest ih =>
      obtain ⟨inner, written, -, hwritten, rfl⟩ := (write_cons_eq_ok_iff (by simp)).1 h
      obtain ⟨final, hfinal⟩ := ih hwritten
      exact ⟨_, (write_cons_eq_ok_iff (by simp)).2 ⟨_, final, room?_put _ _ _, hfinal, rfl⟩⟩

/-- Below a text that was written there is no room. -/
theorem write_below {path : Path} {text : String} {fields after : Fields}
    (h : fields.write path (.string text) = .ok after) (name : String) (w : Value) :
    ∃ obstacle, after.write (path ++ [name]) w = .error obstacle := by
  induction path generalizing fields after with
  | nil => cases h
  | cons segment rest ih =>
      rw [List.cons_append, write_cons after segment (by simp)]
      cases rest with
      | nil =>
          cases h
          rw [Keyed.get?_put_self]
          exact ⟨_, rfl⟩
      | cons next rest =>
          obtain ⟨inner, written, -, hwritten, rfl⟩ := (write_cons_eq_ok_iff (by simp)).1 h
          obtain ⟨obstacle, hobstacle⟩ := ih hwritten
          rw [room?_put]
          exact ⟨obstacle, by simp only [hobstacle, Except.map]⟩

end Fields

namespace Path

/-- The text ends in a name: what follows its last point is not blank. -/
def EndsInName (s : String) : Prop :=
  ∃ last, (Text.pieces '.' s).getLast? = some last ∧ (Text.trim last).isEmpty = false

/-- The segments of some pieces: those that are left when they are trimmed. -/
def named (pieces : List (List Char)) : Path :=
  ((pieces.map String.ofList).map Text.trim).filter fun segment => !segment.isEmpty

theorem named_append (first second : List (List Char)) :
    named (first ++ second) = named first ++ named second := by
  simp only [named, List.map_append, List.filter_append]

theorem endsInName_iff {s : String} {front : List (List Char)} {last : List Char}
    (h : Text.cutAt (· == '.') s.toList = front ++ [last]) :
    EndsInName s ↔ (Text.trim (String.ofList last)).isEmpty = false := by
  simp [EndsInName, Text.pieces, h]

/-- The path of a text that is continued by something that is neither blank nor dotted ends in
another name: in place of the last one, or, if the text ends in a point, behind it. -/
theorem parse_append {more : String} (hdots : ∀ c ∈ more.toList, (c == '.') = false)
    (hmore : ∃ c ∈ more.toList, Text.isBlank c = false) (s : String) :
    ∃ front other, parse (s ++ more) = front ++ [other] ∧
      ((EndsInName s ∧ ∃ name, parse s = front ++ [name]) ∨
        (¬ EndsInName s ∧ parse s = front)) := by
  obtain ⟨front, last, hs, hlonger⟩ := Text.exists_last_cutAt hdots s.toList
  obtain ⟨c, hc, hblank⟩ := hmore
  have hparse : parse s = named front ++ named [last] := by
    rw [← named_append, ← hs]
    rfl
  have hother : (Text.trim (String.ofList (last ++ more.toList))).isEmpty = false := by
    have htrimmed := Text.trimmed_ne_nil (List.mem_append_right last hc) hblank
    simpa [Text.trim] using htrimmed
  have happended : parse (s ++ more) =
      named front ++ [Text.trim (String.ofList (last ++ more.toList))] := by
    have hnamed : named [last ++ more.toList] =
        [Text.trim (String.ofList (last ++ more.toList))] := by
      simp only [named, List.map_cons, List.map_nil, List.filter_cons, hother, Bool.not_false,
        if_true, List.filter_nil]
    rw [← hnamed, ← named_append, ← hlonger, ← String.toList_append]
    rfl
  refine ⟨named front, _, happended, ?_⟩
  rw [endsInName_iff hs, hparse]
  cases hlast : (Text.trim (String.ofList last)).isEmpty with
  | false => exact .inl ⟨rfl, Text.trim (String.ofList last), by simp [named, hlast]⟩
  | true => exact .inr ⟨by simp, by simp [named, hlast]⟩

end Path
end Dialogue
