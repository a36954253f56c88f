import Dialogue.Proofs.Copying
import Dialogue.Proofs.PathLaws

/-!
# Slots of the storage

`Store` writes a slot of the storage, which is named by a namespace and a key, and two readers find
it again: the action `ReadStorage` and the function of that name.  All three get the slot from the
values of the same two fields.  The actions take an empty namespace for none
(`Keeping.namespaceOf`), and the function takes it as it stands (`FunctionLibrary.namespaceOf`).
`Keeping.readers_find_the_slot_unless_unnamed` says that everywhere else they agree.
-/

namespace Dialogue

variable {σ : Type}

namespace SessionStorage

theorem get?_write (s : SessionStorage) (ns key : String) (v : Value) (clearAfterRead : Bool)
    (ns' key' : String) :
    (s.write ns key v clearAfterRead).get? ns' key' =
      if ns' = ns ∧ key' = key then some { value := v, clearAfterRead } else s.get? ns' key' := by
  by_cases hns : ns' = ns
  · subst hns
    simp [write, get?, entries, Keyed.get?_put]
  · simp [write, get?, entries, Keyed.get?_put, hns]

/-- What is read is the value of the entry, whether it is taken out or not. -/
theorem fst_read (s : SessionStorage) (ns key : String) (consume : Bool) :
    (s.read ns key consume).1 = (s.get? ns key).map StoredEntry.value := by
  rw [read]
  cases hentry : s.get? ns key with
  | none => rfl
  | some entry =>
      simp only
      split <;> rfl

end SessionStorage

/-- Null has no text. -/
theorem Value.toText_of_isNull {v : Value} (h : v.isNull) : v.toText = "" := by
  cases v with
  | null => rfl
  | bool | number | string | array | object => cases h

namespace ActionFields

variable {f : ActionFields σ} {name : String} {v : Value} {ctx ready : Context σ}

/-- Some fields, read one after another, have these values. -/
def Reads (f : ActionFields σ) : List (String × Value) → Context σ → Context σ → Prop
  | [], ctx, after => after = ctx
  | (name, v) :: more, ctx, after =>
    ∃ between, (f.value name).on ctx = (.ok v, between) ∧ Reads f more between after

theorem on_text? (h : (f.value name).on ctx = (.ok v, ready)) :
    (f.text? name).on ctx = (.ok (if v.isNull then none else some v.toText), ready) :=
  Eval.on_bind_ok h

/-- A required text is that of the value, if it has one. -/
theorem on_requiredText (h : (f.value name).on ctx = (.ok v, ready)) :
    (f.requiredText name).on ctx =
      (if v.toText = "" then .error (.failed (.missingField f.action name)) else .ok v.toText,
        ready) := by
  refine (Eval.on_bind_ok (on_text? h)).trans ?_
  by_cases hnull : v.isNull
  · simp only [hnull, if_true, Value.toText_of_isNull hnull]
    rfl
  · by_cases htext : v.toText = ""
    · simp only [hnull, htext, if_true, if_false, Bool.false_eq_true]
      rfl
    · simp only [hnull, htext, if_false, Bool.false_eq_true, String.isEmpty_iff]
      rfl

theorem on_flag (default : Bool) (h : (f.value name).on ctx = (.ok v, ready)) :
    (f.flag name default).on ctx = (.ok (if v.isNull then default else v.toBool), ready) :=
  Eval.on_bind_ok h

end ActionFields

namespace Keeping

/-- The namespace that an action takes from the value of its field. -/
def namespaceOf (ns : Value) : String :=
  if ns.toText = "" then SessionStorage.defaultNamespace else ns.toText

variable {f g : ActionFields σ} {ctx ready after asked : Context σ}
  {ns key v mark saveTo consume fallback : Value}

theorem on_entryNamespace (h : (f.value "namespace").on ctx = (.ok ns, ready)) :
    (entryNamespace f).on ctx = (.ok (namespaceOf ns), ready) := by
  refine (Eval.on_bind_ok (ActionFields.on_text? h)).trans ?_
  change (Except.ok _, ready) = _
  rw [namespaceOf]
  by_cases hnull : ns.isNull
  · simp [hnull, Value.toText_of_isNull hnull]
  · by_cases htext : ns.toText = ""
    · simp [hnull, htext, Option.filter]
    · simp [hnull, htext, Option.filter]

/-- A value that was stored is in the slot that its fields name. -/
theorem get?_of_stored
    (hfields : f.Reads
      [("namespace", ns), ("key", key), ("value", v), ("clearAfterRead", mark)] ctx ready)
    (hstored : (store f).on ctx = (.ok (), after)) :
    key.toText ≠ "" ∧
      (after.session.storage.get? (namespaceOf ns) key.toText).map StoredEntry.value = some v := by
  obtain ⟨named, hns, keyed, hkey, valued, hvalue, marked, hmark, rfl⟩ := hfields
  rw [store, Eval.on_bind_ok (on_entryNamespace hns)] at hstored
  have hkeyed := ActionFields.on_requiredText hkey
  split at hkeyed
  · rw [Eval.on_bind_error hkeyed] at hstored
    cases hstored
  · rename_i hgiven
    rw [Eval.on_bind_ok hkeyed, Eval.on_bind_ok hvalue,
      Eval.on_bind_ok (ActionFields.on_flag false hmark)] at hstored
    obtain ⟨-, rfl⟩ := Prod.ext_iff.1 hstored
    refine ⟨hgiven, ?_⟩
    change (SessionStorage.get? (SessionStorage.write _ _ _ _ _) _ _).map _ = _
    rw [SessionStorage.get?_write, if_pos ⟨rfl, rfl⟩]
    rfl

/-- A copy asks for the slot that its fields name. -/
theorem on_query (hkey : key.toText ≠ "") (hsaveTo : saveTo.toText ≠ "")
    (hfields : g.Reads
      [("namespace", ns), ("key", key), ("saveTo", saveTo), ("consume", consume),
        ("fallback", fallback)] ctx asked) :
    (query g).on ctx = (.ok
      { ns := namespaceOf ns, key := key.toText, saveTo := saveTo.toText
        consume := if consume.isNull then false else consume.toBool, fallback }, asked) := by
  obtain ⟨named, hns, keyed, hkeyed, placed, hplaced, flagged, hflagged, last, hlast, rfl⟩ :=
    hfields
  have hkeyText := ActionFields.on_requiredText hkeyed
  have hplace := ActionFields.on_requiredText hplaced
  rw [if_neg hkey] at hkeyText
  rw [if_neg hsaveTo] at hplace
  rw [query, Eval.on_bind_ok (on_entryNamespace hns), Eval.on_bind_ok hkeyText,
    Eval.on_bind_ok hplace, Eval.on_bind_ok (ActionFields.on_flag false hflagged),
    Eval.on_bind_ok hlast]
  rfl

/-- A copy from a slot that holds a value, to a place that can be written. -/
theorem on_read_of_slot (hkey : key.toText ≠ "")
    (hfields : g.Reads
      [("namespace", ns), ("key", key), ("saveTo", saveTo), ("consume", consume),
        ("fallback", fallback)] ctx asked)
    (hslot : (asked.session.storage.get? (namespaceOf ns) key.toText).map StoredEntry.value =
      some v)
    {data : Fields}
    (hdata : Fields.write asked.session.data (Path.parse saveTo.toText) v = .ok data) :
    ((read g).on ctx).1 = .ok () ∧
      ((read g).on ctx).2.session.data =
        if v.isNull then (Fields.remove asked.session.data (Path.parse saveTo.toText)).2
        else data := by
  have hsaveTo : saveTo.toText ≠ "" := by
    intro hempty
    rw [hempty] at hdata
    cases hdata
  have hvalue : Query.value
      { ns := namespaceOf ns, key := key.toText, saveTo := saveTo.toText
        consume := if consume.isNull then false else consume.toBool, fallback }
      asked.session.storage = v := by
    rw [Query.value, SessionStorage.fst_read, hslot]
    rfl
  rw [read_eq, Eval.on_bind_ok (on_query hkey hsaveTo hfields), on_deliver]
  simp only [hvalue, Query.written, hdata]
  split <;> exact ⟨rfl, rfl⟩

end Keeping

namespace FunctionLibrary

/-- The namespace that the function takes from the value of its parameter. -/
def namespaceOf (ns : Value) : String :=
  if ns.isNull then SessionStorage.defaultNamespace else ns.toText

/-- The function and the actions take the same namespace from all values but the empty text. -/
theorem namespaceOf_eq_iff {ns : Value} :
    namespaceOf ns = Keeping.namespaceOf ns ↔ ns.isNull ∨ ns.toText ≠ "" := by
  rw [namespaceOf, Keeping.namespaceOf]
  by_cases hnull : ns.isNull
  · simp [hnull, Value.toText_of_isNull hnull]
  · by_cases htext : ns.toText = ""
    · simp [hnull, htext, SessionStorage.defaultNamespace]
    · simp [hnull, htext]

/-- The function reads the slot that its parameters name. -/
theorem on_readStorage (self : Interpolation σ) {params : Fields} {key : Value}
    (hparam : params.get? "key" = some key) (hkey : key.toText ≠ "") (ctx : Context σ) :
    ((readStorage.execute self params).on ctx).1 =
      .ok ((((ctx.session.storage.get? (namespaceOf ((params.get? "namespace").getD .null))
        key.toText).map StoredEntry.value).or (params.get? "fallback")).getD .null) := by
  have hgiven : Parameters.required "ReadStorage" params "key" = .ok key := by
    have hnull : key.isNull = false := Bool.eq_false_iff.2 (mt Value.toText_of_isNull hkey)
    simp [Parameters.required, Parameters.given?, hparam, hnull, Option.filter]
  have hns : (Parameters.text? params "namespace").getD SessionStorage.defaultNamespace =
      namespaceOf ((params.get? "namespace").getD .null) := by
    rw [Parameters.text?, Parameters.given?, namespaceOf]
    cases params.get? "namespace" with
    | none => rfl
    | some ns => by_cases hnull : ns.isNull <;> simp [hnull, Option.filter]
  have hkeyed : (Eval.ofExcept (Parameters.required "ReadStorage" params "key") :
      Eval σ Value).on ctx = (.ok key, ctx) := by
    rw [hgiven]
    rfl
  refine (congrArg Prod.fst (Eval.on_bind_ok hkeyed)).trans ?_
  rw [← hns, ← SessionStorage.fst_read _ _ _
    (((params.get? "consume").map Value.toBool).getD false)]
  rfl

end FunctionLibrary

namespace Keeping

/-- What was stored is found again by both readers, if their fields name the same slot, which
they leave alone while they are read.  The action copies it to a place that can be written, where
null leaves nothing.  The function yields it unless the namespace is given and empty; then it
reads what is there under the empty namespace, and not under the one that the actions take. -/
theorem readers_find_the_slot_unless_unnamed {e : Engine σ} (builtIn : e.BuiltIn)
    {f : ActionFields σ} {ctx ready after : Context σ} {ns key v mark : Value}
    (hfields : f.Reads
      [("namespace", ns), ("key", key), ("value", v), ("clearAfterRead", mark)] ctx ready)
    (hstored : (store f).on ctx = (.ok (), after)) :
    (∀ (g : ActionFields σ) (saveTo consume fallback : Value) (asked : Context σ) (data : Fields),
      g.Reads
        [("namespace", ns), ("key", key), ("saveTo", saveTo), ("consume", consume),
          ("fallback", fallback)] after asked →
      asked.session.storage.get? (namespaceOf ns) key.toText =
        after.session.storage.get? (namespaceOf ns) key.toText →
      Fields.write asked.session.data (Path.parse saveTo.toText) v = .ok data →
      ((read g).on after).1 = .ok () ∧
      ((read g).on after).2.session.data.at? (Path.parse saveTo.toText) =
        if v.isNull then none else some v) ∧
    ∀ (bound : Nat) (descriptor params : Fields) (asked : Context σ),
      Value.nameUnder Value.functionKey descriptor = some "ReadStorage" →
      (Engine.eagerWith (e.interpolate bound) [] (descriptor.drop Value.functionKey)).on after =
        (.ok params, asked) →
      params.get? "key" = some key → (params.get? "namespace").getD .null = ns →
      asked.session.storage.get? (namespaceOf ns) key.toText =
        after.session.storage.get? (namespaceOf ns) key.toText →
      ((e.evaluate bound (.object descriptor)).on after).1 =
        if ns.isNull ∨ ns.toText ≠ "" then .ok v
        else .ok ((((asked.session.storage.get? "" key.toText).map StoredEntry.value).or
          (params.get? "fallback")).getD .null) := by
  obtain ⟨hkey, hslot⟩ := get?_of_stored hfields hstored
  refine ⟨?_, ?_⟩
  · intro g saveTo consume fallback asked data hasked hsame hdata
    obtain ⟨hdone, hleft⟩ := on_read_of_slot hkey hasked (hsame ▸ hslot) hdata
    refine ⟨hdone, ?_⟩
    rw [hleft]
    -- null is not written but removes what is there
    split
    · exact Fields.at?_remove_of_write hdata
    · exact (Fields.leads_write hdata).at?
  · intro bound descriptor params asked hname hparams hgiven hns hsame
    -- the parameters are evaluated first, and then the function of the library reads
    have hreader : e.functions.get? "ReadStorage" = some FunctionLibrary.readStorage := by
      rw [builtIn.functions]
      exact FunctionLibrary.get?_readerName
    have hevaluate : (e.evaluate bound (.object descriptor)).on after =
        (FunctionLibrary.readStorage.execute (e.interpolate bound) params).on asked := by
      rw [Engine.evaluate, Engine.evaluateWith, Engine.evaluateFieldsWith, hname]
      simp only [hreader]
      exact Eval.on_bind_ok hparams
    rw [hevaluate, FunctionLibrary.on_readStorage _ hgiven hkey, hns]
    split
    · rename_i hagree
      rw [FunctionLibrary.namespaceOf_eq_iff.2 hagree, hsame, hslot]
      rfl
    · rename_i hdiffer
      obtain ⟨hnull, htext⟩ := not_or.1 hdiffer
      rw [FunctionLibrary.namespaceOf, if_neg hnull, not_ne_iff.1 htext]

/-- Stores a code in a namespace. -/
def storing (ns : String) : Fields :=
  [("action", .string "Store"), ("key", .string "code"), ("namespace", .string ns),
    ("value", .string "4711")]

/-- Copies the code from a namespace. -/
def copying (ns : String) : Fields :=
  [("action", .string "ReadStorage"), ("key", .string "code"), ("namespace", .string ns),
    ("saveTo", .string "found.code")]

/-- Reads the code in a namespace. -/
def asking (ns : String) : Fields :=
  [("function", .string "ReadStorage"), ("key", .string "code"), ("namespace", .string ns)]

/-- A session with the code in a namespace. -/
def holding (ns : String) : Context Unit :=
  Context.solitary [] (SessionStorage.write {} ns "code" (.string "4711") false)

/-- Both readers find a code that was stored in a namespace with a name. -/
theorem a_named_slot_is_found :
    let e := Engine.solitary {}
    (store ⟨"Store", e.director 2, storing "games"⟩).on (Context.solitary []) =
      (.ok (), holding "games") ∧
    ((read ⟨"ReadStorage", e.director 2, copying "games"⟩).on (holding "games")).2.session.data.at?
      ["found", "code"] = some (.string "4711") ∧
    ((e.evaluate 2 (.object (asking "games"))).on (holding "games")).1 = .ok (.string "4711") := by
  intro e
  have hstored : (store ⟨"Store", e.director 2, storing "games"⟩).on (Context.solitary []) =
      (.ok (), holding "games") := by
    cbv
  have hfields : (⟨"Store", e.director 2, storing "games"⟩ : ActionFields Unit).Reads
      [("namespace", .string "games"), ("key", .string "code"), ("value", .string "4711"),
        ("clearAfterRead", .null)] (Context.solitary []) (Context.solitary []) :=
    ⟨_, by cbv, _, by cbv, _, by cbv, _, by cbv, rfl⟩
  obtain ⟨hcopied, hread⟩ :=
    readers_find_the_slot_unless_unnamed (Engine.solitary_builtIn {}) hfields hstored
  have hcopy := hcopied ⟨"ReadStorage", e.director 2, copying "games"⟩ (.string "found.code") .null
    .null (holding "games") [("found", .object [("code", .string "4711")])]
    ⟨_, by cbv, _, by cbv, _, by cbv, _, by cbv, _, by cbv, rfl⟩ rfl (by cbv)
  have hasked := hread 2 (asking "games") [("key", .string "code"), ("namespace", .string "games")]
    (holding "games") (by cbv) (by cbv) (by cbv) (by cbv) rfl
  refine ⟨hstored, hcopy.2, hasked.trans ?_⟩
  rw [if_pos (.inr (by decide))]

/-- A code that was stored under an empty namespace is copied from there, and not found by the
function. -/
theorem an_unnamed_slot_is_found_by_one_reader :
    let e := Engine.solitary {}
    (e.runAction 3 (.object (storing ""))).on (Context.solitary []) =
      (.ok (), holding SessionStorage.defaultNamespace) ∧
    (((e.runAction 3 (.object (copying ""))).on
      (holding SessionStorage.defaultNamespace)).2.session.data.at? ["found", "code"] =
        some (.string "4711")) ∧
    ((e.evaluate 2 (.object (asking ""))).on (holding SessionStorage.defaultNamespace)).1 =
      .ok .null := by
  refine ⟨by cbv, by cbv, by cbv⟩

end Keeping
end Dialogue
