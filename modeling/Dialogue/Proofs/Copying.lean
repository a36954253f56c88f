import Dialogue.Proofs.Reading

/-!
# Copies that fail

`ReadStorage` reads its fields, takes the value of an entry from the storage, and writes it into
the session's data.  The data may not have the shape that the place asks for, and then the value
has been taken already.

* `Keeping.read_eq`, `Keeping.on_deliver`: the two parts of the action, and what the second does.
* `Keeping.failed_copy_is_atomic_unless_taken`: a copy that fails leaves everything as it was,
  except for an entry that the read takes out.
* `Keeping.unsaved_entry_is_lost`: such an entry is lost.
-/

namespace Dialogue

variable {σ : Type}

namespace Keeping

/-- What the fields of a copy ask for. -/
structure Query where
  ns : String
  key : String
  saveTo : String
  consume : Bool
  fallback : Value

/-- Reads the fields of a copy. -/
def query (f : ActionFields σ) : Eval σ Query := do
  let ns ← entryNamespace f
  let key ← f.requiredText "key"
  let saveTo ← f.requiredText "saveTo"
  let consume ← f.flag "consume" false
  let fallback ← f.value "fallback"
  return { ns, key, saveTo, consume, fallback }

namespace Query

/-- The value that is copied. -/
def value (q : Query) (storage : SessionStorage) : Value :=
  (storage.read q.ns q.key q.consume).1.getD q.fallback

/-- The storage once the entry was read. -/
def left (q : Query) (storage : SessionStorage) : SessionStorage :=
  (storage.read q.ns q.key q.consume).2

/-- Whether the entry is gone once it was read. -/
def takes (q : Query) (storage : SessionStorage) : Bool :=
  storage.takesOut q.ns q.key q.consume

/-- The data with the value at its place. -/
def written (q : Query) (session : Session) : Except Path.Obstacle Fields :=
  Fields.write session.data (Path.parse q.saveTo) (q.value session.storage)

end Query

/-- Copies the value; null removes what is at its place. -/
def deliver (q : Query) : Eval σ Unit := do
  let stored ← Eval.changeSession fun session =>
    let (value, storage) := session.storage.read q.ns q.key q.consume
    (value, { session with storage })
  let value := stored.getD q.fallback
  if value.isNull then
    Eval.updateSession fun session => (session.removeData q.saveTo).2
  else Eval.saveData q.saveTo value (.unsavedEntry q.saveTo)

/-- A copy asks and delivers. -/
theorem read_eq (f : ActionFields σ) : read f = query f >>= deliver := by
  simp only [read, query, deliver, bind_assoc, pure_bind]

theorem query_composed {d : Director σ} {atom : ∀ α : Type, (Crew σ → Eval σ α) → Prop}
    (action : String) (fields : Fields) [ReadingSteps fields atom] :
    Composed atom fun crew => query ⟨action, d.withCrew crew, fields⟩ := by
  refine .bind (entryNamespace_composed _ fields) fun ns => ?_
  refine .bind (ActionFields.requiredText_composed _ fields _ (by decide)) fun key => ?_
  refine .bind (ActionFields.requiredText_composed _ fields _ (by decide)) fun saveTo => ?_
  refine .bind (ActionFields.flag_composed _ fields _ _ (by decide)) fun consume => ?_
  exact .bind (ActionFields.value_composed _ fields _ (by decide)) fun fallback => .done _

/-- The entry is read first, and stays read if its value cannot be written. -/
theorem on_deliver (q : Query) (ctx : Context σ) :
    (deliver q).on ctx =
      let storage := q.left ctx.session.storage
      if (q.value ctx.session.storage).isNull then
        (.ok (), { ctx with
          session := { ctx.session with
            data := (Fields.remove ctx.session.data (Path.parse q.saveTo)).2, storage } })
      else
        match q.written ctx.session with
        | .ok data => (.ok (), { ctx with session := { ctx.session with data, storage } })
        | .error obstacle =>
          (.error (.failed (.unsavedEntry q.saveTo obstacle)),
            { ctx with session := { ctx.session with storage } }) := by
  refine (Eval.on_bind_ok (Eval.on_changeSession _ ctx)).trans ?_
  change (if (q.value ctx.session.storage).isNull then _
    else Eval.saveData q.saveTo (q.value ctx.session.storage) _ : Eval σ Unit).on _ = _
  by_cases hnull : (q.value ctx.session.storage).isNull
  · rw [if_pos hnull]
    simp only [hnull, if_true]
    rfl
  · rw [if_neg hnull]
    simp only [hnull, if_false, Bool.false_eq_true, Eval.saveData, Eval.on_make, Session.setData,
      Query.written]
    cases Fields.write ctx.session.data (Path.parse q.saveTo) (q.value ctx.session.storage) <;> rfl

/-- A copy fails exactly if there is something to write and an obstacle in its way. -/
theorem deliver_fails_iff (q : Query) (ctx : Context σ) (stop : Stop) :
    ((deliver q).on ctx).1 = .error stop ↔
      (q.value ctx.session.storage).isNull = false ∧
      ∃ obstacle, q.written ctx.session = .error obstacle ∧
        stop = .failed (.unsavedEntry q.saveTo obstacle) := by
  rw [on_deliver]
  by_cases hnull : (q.value ctx.session.storage).isNull
  · simp [hnull]
  · cases q.written ctx.session with
    | ok data => simp [hnull]
    | error obstacle => simp [hnull, eq_comm]

/-- A copy that fails has read its entry, and that is all. -/
theorem snd_deliver_of_failed {q : Query} {ctx : Context σ} {stop : Stop}
    (h : ((deliver q).on ctx).1 = .error stop) :
    ((deliver q).on ctx).2 =
      { ctx with session := { ctx.session with storage := q.left ctx.session.storage } } := by
  obtain ⟨hnull, obstacle, hobstacle, -⟩ := (deliver_fails_iff q ctx stop).1 h
  simp only [on_deliver, hnull, hobstacle, if_false, Bool.false_eq_true]

variable {e : Engine σ} {bound : Nat} {fields : Fields} {ctx : Context σ}

/-- Fields that queue no effects and consume no storage are read without a trace. -/
theorem snd_query (builtIn : e.BuiltIn) (heffects : ctx.effects = [])
    (hquiet : e.QueuesNothing bound (fun d => query ⟨"ReadStorage", d, fields⟩) ctx)
    (hkept : ((query ⟨"ReadStorage", e.director bound, fields⟩).on ctx).2.session.storage =
      ctx.session.storage) :
    ((query ⟨"ReadStorage", e.director bound, fields⟩).on ctx).2 = ctx := by
  obtain ⟨storage, -, hafter⟩ :=
    hquiet.onlyTakes builtIn (query_composed "ReadStorage" fields) heffects
  rw [hafter] at hkept ⊢
  rw [show storage = ctx.session.storage from hkept]

/-- A copy whose fields queue no effects and consume no storage, and which fails, leaves the data
and everything else as it was, and the storage as well unless the read takes the entry out.  It
fails when its fields are refused, before anything is read, or because the value of the entry
cannot be written; in the latter case an entry that is consumed, or marked to be cleared, is
gone. -/
theorem failed_copy_is_atomic_unless_taken (builtIn : e.BuiltIn) (bound : Nat) (fields : Fields)
    (ctx : Context σ) (heffects : ctx.effects = [])
    (hquiet : e.QueuesNothing bound (fun d => read ⟨"ReadStorage", d, fields⟩) ctx)
    (hkept : ((query ⟨"ReadStorage", e.director bound, fields⟩).on ctx).2.session.storage =
      ctx.session.storage) :
    let f : ActionFields σ := ⟨"ReadStorage", e.director bound, fields⟩
    let asked := (query f).on ctx
    let result := (read f).on ctx
    (∀ failure, asked.1 = .error (.failed failure) →
      result = (.error (.failed failure), ctx)) ∧
    (∀ q, asked.1 = .ok q → ∀ failure, result.1 = .error (.failed failure) ↔
      (q.value ctx.session.storage).isNull = false ∧
      ∃ obstacle, q.written ctx.session = .error obstacle ∧
        failure = .unsavedEntry q.saveTo obstacle) ∧
    ∀ failure, result.1 = .error (.failed failure) →
      result.2 = { ctx with
        session := { ctx.session with storage := result.2.session.storage } } ∧
      (∀ q, asked.1 = .ok q → result.2.session.storage = q.left ctx.session.storage) ∧
      (result.2 = ctx ↔ ∀ q, asked.1 = .ok q → q.takes ctx.session.storage = false) := by
  intro f asked result
  have hparts : e.QueuesNothing bound (fun d => query ⟨"ReadStorage", d, fields⟩ >>= fun q =>
      deliver q) ctx := by
    simpa only [read_eq] using hquiet
  have hsame : asked.2 = ctx := snd_query builtIn heffects hparts.of_bind hkept
  have hresult : result = (query f >>= deliver).on ctx := by
    rw [← read_eq]
  rcases hasked : asked with ⟨stop | q, after⟩
  · replace hsame : after = ctx := by
      rw [← hsame, hasked]
    subst hsame
    rw [Eval.on_bind_error hasked] at hresult
    rw [hresult]
    refine ⟨?_, ?_, ?_⟩
    · rintro failure ⟨⟩
      rfl
    · rintro _ ⟨⟩
    · exact fun failure _ => ⟨rfl, (by rintro _ ⟨⟩), fun _ => by rintro _ ⟨⟩, fun _ => rfl⟩
  · replace hsame : after = ctx := by
      rw [← hsame, hasked]
    subst hsame
    rw [Eval.on_bind_ok hasked] at hresult
    rw [hresult]
    refine ⟨(by rintro _ ⟨⟩), ?_, fun failure hfailure => ?_⟩
    · rintro _ ⟨⟩ failure
      simpa only [Stop.failed.injEq] using deliver_fails_iff q after (.failed failure)
    · rw [snd_deliver_of_failed hfailure]
      refine ⟨rfl, ?_, ?_⟩
      · rintro _ ⟨⟩
        rfl
      · have hleft := after.session.storage.read_eq_self_iff q.ns q.key q.consume
        constructor
        · rintro h _ ⟨⟩
          exact hleft.1 (congrArg (·.session.storage) h)
        · intro h
          have hstorage : q.left after.session.storage = after.session.storage :=
            hleft.2 (h q rfl)
          rw [hstorage]

/-- A copy to a place below a number. -/
def misplaced : Fields :=
  [("action", .string "ReadStorage"), ("key", .string "code"), ("saveTo", .string "a.b")]

/-- A session with a number in its data and an entry in its storage. -/
def keeper (clearAfterRead : Bool) : Context Unit :=
  Context.solitary [("a", .ofInt 1)]
    (SessionStorage.write {} "default" "code" (.string "4711") clearAfterRead)

/-- An entry that is not marked is still there when its value could not be saved. -/
theorem unsaved_entry_stays :
    let refused : Failure := .unsavedEntry "a.b" (.notAnObject "a")
    let result := (read ⟨"ReadStorage", (Engine.solitary {}).director 2, misplaced⟩).on
      (keeper false)
    (Engine.solitary {}).BuiltIn ∧ (keeper false).effects = [] ∧
      (Engine.solitary {}).QueuesNothing 2 (fun d => read ⟨"ReadStorage", d, misplaced⟩)
        (keeper false) ∧
      ((query ⟨"ReadStorage", (Engine.solitary {}).director 2, misplaced⟩).on
        (keeper false)).2.session.storage = (keeper false).session.storage ∧
      result = (.error (.failed refused), keeper false) := by
  intro refused result
  have hquiet : (Engine.solitary {}).QueuesNothing 2
      (fun d => read ⟨"ReadStorage", d, misplaced⟩) (keeper false) := .of_failed refused (by cbv)
  have hasked : (query ⟨"ReadStorage", (Engine.solitary {}).director 2, misplaced⟩).on
      (keeper false) = (.ok ⟨"default", "code", "a.b", false, .null⟩, keeper false) := by
    cbv
  have hkept := congrArg (·.2.session.storage) hasked
  obtain ⟨-, hfails, hatomic⟩ := failed_copy_is_atomic_unless_taken (Engine.solitary_builtIn {}) 2
    misplaced (keeper false) rfl hquiet hkept
  have hfailed := (hfails _ (congrArg Prod.fst hasked) refused).2
    ⟨by cbv, .notAnObject "a", by cbv, rfl⟩
  obtain ⟨-, -, hsame⟩ := hatomic refused hfailed
  have hall := hsame.2 fun q hq => by
    cases (congrArg Prod.fst hasked).symm.trans hq
    cbv
  exact ⟨Engine.solitary_builtIn {}, rfl, hquiet, hkept, Prod.ext hfailed hall⟩

/-- An entry that is cleared after it was read is gone when its value could not be saved: it is
neither in the data nor in the storage. -/
theorem unsaved_entry_is_lost :
    let refused : Failure := .unsavedEntry "a.b" (.notAnObject "a")
    let result := ((Engine.solitary {}).runAction 3 (.object misplaced)).on (keeper true)
    (keeper true).effects = [] ∧
      (Engine.solitary {}).QueuesNothing 2 (fun d => read ⟨"ReadStorage", d, misplaced⟩)
        (keeper true) ∧
      ((query ⟨"ReadStorage", (Engine.solitary {}).director 2, misplaced⟩).on
        (keeper true)).2.session.storage = (keeper true).session.storage ∧
      result.1 = .error (.failed refused) ∧
      result.2.session.data = (keeper true).session.data ∧
      ((keeper true).session.storage.get? "default" "code").map StoredEntry.value =
        some (.string "4711") ∧
      result.2.session.storage.size = 0 := by
  intro refused result
  have hrun : ((Engine.solitary {}).runAction 3 (.object misplaced)).on (keeper true) =
      (.error (.failed refused), Context.solitary [("a", .ofInt 1)]) := by
    cbv
  have hasked : (query ⟨"ReadStorage", (Engine.solitary {}).director 2, misplaced⟩).on
      (keeper true) = (.ok ⟨"default", "code", "a.b", false, .null⟩, keeper true) := by
    cbv
  exact ⟨rfl, .of_failed refused (by cbv), congrArg (·.2.session.storage) hasked,
    congrArg Prod.fst hrun, congrArg (·.2.session.data) hrun, by cbv,
    congrArg (·.2.session.storage.size) hrun⟩

end Keeping
end Dialogue
