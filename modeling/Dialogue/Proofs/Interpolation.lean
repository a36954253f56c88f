import Dialogue.Proofs.Functions

/-!
# What interpolation does

The interpolation of one value, given how to interpolate others, is assembled from
interpolations, failures of evaluation, reading, queueing actions, and the reader: this
is `interpolateWith_assembled`.  Everything that is known about interpolation by
induction on the nesting follows from it.

The limit of an assembly says how heavy the values are whose interpolation it asks for.
Without a limit the statement holds of every value.  With one, it holds where only parts
of the value are interpolated: functions of the scenario have templates of their own, and
an argument of a call may stand for the value of a variable.
-/

namespace Dialogue

/-- The name of the function that reads the storage. -/
def FunctionLibrary.readerName : String := "ReadStorage"

namespace Engine

variable {σ : Type}

/-- An engine with the functions of the library, and a reader in place of the one that
reads the storage. -/
structure Equipped (e : Engine σ) (reader : Executor σ) : Prop where
  functions : ∀ name, e.functions.get? name =
    if name = FunctionLibrary.readerName then some reader
    else FunctionLibrary.standard.get? name

/-- An engine with the functions and actions of the library and no others. -/
structure BuiltIn (e : Engine σ) : Prop where
  functions : e.functions = FunctionLibrary.standard
  actions : e.actions = { library := ActionLibrary.standard }

end Engine

/-- The context of a session with some data and storage and nothing else. -/
def Context.solitary (data : Fields) (storage : SessionStorage := {}) : Context Unit where
  session := { id := "session", data, storage }
  env := []
  agenda := {}
  callbacks := .empty 2
  outside := ()

namespace FunctionLibrary

variable {σ : Type}

theorem get?_readerName :
    (standard : Keyed (Executor σ)).get? readerName = some readStorage :=
  Keyed.get?_ofEntries_concat _ _ _

/-- Every function but `ReadStorage` is assembled from interpolations. -/
theorem assembles_of_get? {name : String} {x : Executor σ}
    (h : standard.get? name = some x) (hname : name ≠ readerName) : x.Assembles := by
  rcases List.mem_append.1 (Keyed.mem_of_get?_ofEntries h) with hmem | hmem
  · exact assembles_of_mem hmem
  · simp only [List.mem_singleton, Prod.mk.injEq] at hmem
    exact absurd hmem.1 hname

end FunctionLibrary

namespace Engine

variable {σ : Type} {e : Engine σ} {limit : Option Nat} {reader : Executor σ}

theorem BuiltIn.equipped (builtIn : e.BuiltIn) : e.Equipped FunctionLibrary.readStorage where
  functions name := by
    rw [builtIn.functions]
    split
    · rename_i h
      rw [h, FunctionLibrary.get?_readerName]
    · rfl

/-- Checking an engine does not change it. -/
theorem eq_of_checked {unchecked : Engine σ} (h : unchecked.checked = .ok e) :
    unchecked = e := by
  unfold checked at h
  split at h
  · cases h
  · exact Except.ok.inj h

/-- The engine of a scenario has the functions and actions of the library. -/
theorem builtIn_of_standard {scenario : Scenario} {settings : Settings} {host : Host σ}
    {wallClock : WallClock} (h : standard scenario settings host wallClock = .ok e) :
    e.BuiltIn := by
  unfold standard at h
  have he := eq_of_checked h
  constructor
  · rw [← he]
  · rw [← he]

/-- The engine of a scenario whose messages nobody receives. -/
def solitary (scenario : Scenario) : Engine Unit where
  scenario
  functions := FunctionLibrary.standard
  actions := { library := ActionLibrary.standard }
  host :=
    { send := fun _ _ _ _ => (.error .sendRejected, ())
      edit := fun _ _ message _ _ => (.error (.messageGone message), ())
      delete := fun _ _ message => (.error (.messageGone message), ())
      call := fun _ _ => ({ outcome := .error (.endpointRequest "refused") }, ()) }

theorem solitary_builtIn (scenario : Scenario) : (solitary scenario).BuiltIn := ⟨rfl, rfl⟩

/-- With another reader, an engine knows the other functions as before. -/
theorem BuiltIn.equipped_put (builtIn : e.BuiltIn) (reader : Executor σ) :
    { e with functions := e.functions.put FunctionLibrary.readerName reader }.Equipped reader where
  functions name := by rw [← builtIn.functions, ← Keyed.get?_put]

/-! ## Fields -/

/-- The deferred fields are as before. -/
def LeavesDeferred (deferred : List String) (fields evaluated : Fields) : Prop :=
  ∀ name ∈ deferred, evaluated.get? name = fields.get? name

theorem LeavesDeferred.cons {deferred : List String} {fields evaluated : Fields}
    (h : LeavesDeferred deferred fields evaluated) {key : String} {before after : Value}
    (hkey : key ∈ deferred → after = before) :
    LeavesDeferred deferred ((key, before) :: fields) ((key, after) :: evaluated) := by
  intro name hname
  rw [Keyed.get?_cons, Keyed.get?_cons, h name hname]
  by_cases hk : name = key
  · rw [if_pos hk, if_pos hk, hkey (hk ▸ hname)]
  · rw [if_neg hk, if_neg hk]

/-- Interpolating the fields that are not deferred, and going on with what that gives. -/
theorem eagerWith_bind_assembled {α : Type} (deferred : List String) (fields : Fields)
    (hfields : ∀ entry ∈ fields, entry.2.Within limit)
    (K : Fields → Interpolation σ → Eval σ α)
    (hK : ∀ evaluated, LeavesDeferred deferred fields evaluated →
      Assembled (Interpolating limit reader) (K evaluated)) :
    Assembled (Interpolating limit reader) fun interpolate =>
      eagerWith interpolate deferred fields >>= fun evaluated => K evaluated interpolate := by
  induction fields generalizing K with
  | nil =>
      simp only [eagerWith, List.mapM_nil, pure_bind]
      exact hK [] fun _ _ => rfl
  | cons entry rest ih =>
      obtain ⟨key, value⟩ := entry
      have hrest := ih fun other hother => hfields other (List.mem_cons_of_mem _ hother)
      have hvalue : value.Within limit := hfields (key, value) List.mem_cons_self
      simp only [eagerWith, List.mapM_cons, bind_assoc, pure_bind] at hrest ⊢
      by_cases hdeferred : deferred.contains key
      · simp only [hdeferred, if_true, pure_bind]
        exact hrest (fun evaluated => K ((key, value) :: evaluated)) fun evaluated h =>
          hK _ (h.cons fun _ => rfl)
      · simp only [hdeferred, if_false, bind_assoc, pure_bind, Bool.false_eq_true]
        refine .bind (.atom (.value value hvalue)) fun result => ?_
        exact hrest (fun evaluated => K ((key, result) :: evaluated)) fun evaluated h =>
          hK _ (h.cons fun hkey => absurd (List.contains_iff_mem.2 hkey) hdeferred)

theorem fieldsWith_assembled (fields : Fields)
    (hfields : ∀ entry ∈ fields, entry.2.Within limit) :
    Assembled (Interpolating limit reader) fun interpolate => fieldsWith interpolate fields := by
  refine .mapM fields fun entry hentry => ?_
  exact .bind (.atom (.value _ (hfields entry hentry))) fun value => .done (entry.1, value)

/-! ## Functions -/

theorem nameUnder_put (fields : Fields) (name : String) :
    Value.nameUnder Value.functionKey (fields.put Value.functionKey (.string name)) =
      some name := by
  simp [Value.nameUnder, Value.text?]

theorem resultWith_assembled (result : Value) :
    Assembled (Interpolating none reader) fun interpolate => resultWith interpolate result := by
  have hplain : Assembled (Interpolating none reader) fun interpolate => interpolate result :=
    .atom (.value result result.within_none)
  match result with
  | .object fields =>
      refine .ite _ ?_ hplain
      exact .bind (fieldsWith_assembled fields fun _ _ => Value.within_none _) fun fields =>
        .done (Value.object fields)
  | .null | .bool _ | .number _ | .string _ | .array _ => exact hplain

theorem callWith_assembled (function : ScenarioFunction) (given : Fields) :
    Assembled (Interpolating none reader) fun interpolate =>
      callWith interpolate function given := by
  refine .bind (fieldsWith_assembled _ fun _ _ => Value.within_none _) fun arguments => ?_
  refine .bind (.params arguments (.locals arguments (resultWith_assembled _))) fun result => ?_
  by_cases haction : result.isAction
  · simp only [haction, if_true]
    exact .bind (.atom (.queue result haction)) fun _ => .done result
  · simp only [haction, if_false, Bool.false_eq_true]
    exact .bind (.done PUnit.unit) fun _ => .done result

/-- Evaluating the fields of a descriptor is assembled from interpolations, unless the
function is unknown.  Under a limit the scenario must not have functions. -/
theorem evaluateFieldsWith_assembled (equipped : e.Equipped reader) (fields : Fields)
    (hscenario : limit = none ∨ e.scenario.functions = [])
    (hnull : Value.null.Within limit)
    (hfields : ∀ entry ∈ fields.drop Value.functionKey, entry.2.Within limit) :
    (Assembled (Interpolating limit reader) fun interpolate =>
        e.evaluateFieldsWith interpolate fields) ∨
      ∃ name, Value.nameUnder Value.functionKey fields = some name ∧ e.keywords? name = none ∧
        ∀ interpolate,
          e.evaluateFieldsWith interpolate fields = Eval.fail (.unknownFunction name) := by
  simp only [evaluateFieldsWith]
  cases hname : Value.nameUnder Value.functionKey fields with
  | none => exact .inl (.atom (.fail _ rfl))
  | some name =>
      simp only
      cases hfunction : e.functions.get? name with
      | some x =>
          left
          refine eagerWith_bind_assembled _ _ hfields _ fun evaluated hevaluated => ?_
          rw [equipped.functions] at hfunction
          split at hfunction
          · cases hfunction
            exact .atom (.read evaluated)
          · rename_i hreader
            have hassembles := FunctionLibrary.assembles_of_get? hfunction hreader
            refine (hassembles limit evaluated hnull ?_).mono Computing.interpolating
            intro key hkey w hw
            rw [hevaluated key hkey] at hw
            exact hfields (key, w) (Keyed.mem_of_get? hw)
      | none =>
          simp only
          cases hdeclared : e.scenario.functions.get? name with
          | none =>
              have hunknown : e.keywords? name = none := by simp [keywords?, hfunction, hdeclared]
              exact .inr ⟨name, rfl, hunknown, fun _ => rfl⟩
          | some function =>
              left
              rcases hscenario with rfl | hempty
              · exact callWith_assembled function _
              · simp [hempty] at hdeclared

/-- An unknown function is recovered from, so evaluating a descriptor with a recovery from
unknown names is assembled in any case. -/
theorem recover_evaluateFieldsWith_assembled {α : Type} (equipped : e.Equipped reader)
    (fields : Fields) (hscenario : limit = none ∨ e.scenario.functions = [])
    (hnull : Value.null.Within limit)
    (hfields : ∀ entry ∈ fields.drop Value.functionKey, entry.2.Within limit)
    (f : Value → α) (otherwise : α) :
    Assembled (Interpolating limit reader) fun interpolate =>
      (e.evaluateFieldsWith interpolate fields >>= fun value => pure (f value)).recover isUnknown
        fun _ => pure otherwise := by
  rcases evaluateFieldsWith_assembled equipped fields hscenario hnull hfields with
    h | ⟨name, -, -, h⟩
  · exact .recover isUnknown (.bind h fun value => .done (f value)) fun _ => .done otherwise
  · simp only [h]
    exact .done otherwise

/-! ## Texts and values -/

/-- The value of a token, read against a context that is known beforehand. -/
def tokenAt (e : Engine σ) (known : Context σ) (self : Interpolation σ) (inner : List Char) :
    Eval σ (Option Value) :=
  let expression := Template.expression inner
  match Template.call? expression with
  | some (name, args) =>
    match e.keywords? name with
    | none => return none
    | some keywords =>
      (do
        let value ← e.evaluateFieldsWith self (e.descriptor known name keywords args)
        return some value).recover isUnknown fun _ => return none
  | none => return e.lookup known expression

/-- A token is read against the context in which it is met. -/
theorem tokenWith_eq_tokenAt (self : Interpolation σ) (inner : List Char) :
    e.tokenWith self inner = Eval.ask id >>= fun known => e.tokenAt known self inner := by
  refine Eval.ext fun ctx => ?_
  rw [Eval.on_bind_ok (Eval.on_ask id ctx)]
  simp only [tokenWith, tokenAt, id_eq]
  cases Template.call? (Template.expression inner) with
  | none => rfl
  | some call =>
      simp only
      cases e.keywords? call.1 with
      | none => rfl
      | some keywords => exact Eval.on_bind_ok (Eval.on_ask _ ctx)

theorem tokenAt_assembled (equipped : e.Equipped reader) (known : Context σ)
    (inner : List Char) (hscenario : limit = none ∨ e.scenario.functions = [])
    (hnull : Value.null.Within limit)
    (hcall : ∀ name args keywords,
      Template.call? (Template.expression inner) = some (name, args) →
      e.keywords? name = some keywords →
      ∀ entry ∈ (e.descriptor known name keywords args).drop Value.functionKey,
        entry.2.Within limit) :
    Assembled (Interpolating limit reader) fun interpolate =>
      e.tokenAt known interpolate inner := by
  simp only [tokenAt]
  split
  · rename_i name args hname
    split
    · exact .done none
    · rename_i keywords hkeywords
      exact recover_evaluateFieldsWith_assembled equipped _ hscenario hnull
        (hcall name args keywords hname hkeywords) some none
  · exact .done _

theorem tokenWith_assembled (equipped : e.Equipped reader) (inner : List Char) :
    Assembled (Asking reader) fun interpolate => e.tokenWith interpolate inner := by
  simp only [tokenWith_eq_tokenAt]
  refine .bind (.atom (.ask id)) fun known => ?_
  exact (tokenAt_assembled equipped known inner (.inl rfl) (Value.within_none _)
    fun _ _ _ _ _ _ _ => Value.within_none _).mono fun _ _ => .step

/-- The text that replaces a segment, given how tokens are read. -/
def segmentBy (token : List Char → Eval σ (Option Value)) (segment : Template.Segment) :
    Eval σ (List Char) :=
  match segment with
  | .char c => return [c]
  | .token inner => do
    match ← token inner with
    | some value => return value.toText.toList
    | none => return segment.source

/-- The value of a text, given how tokens are read. -/
def textBy (token : List Char → Eval σ (Option Value)) (text : String) : Eval σ Value :=
  match Template.segments text.toList with
  | [.token inner] => do
    let value ← token inner
    return value.getD (.string text)
  | segments => do
    let pieces ← segments.mapM (segmentBy token)
    return .string (String.ofList pieces.flatten)

theorem textWith_eq_textBy (self : Interpolation σ) (text : String) :
    e.textWith self text = textBy (e.tokenWith self) text := rfl

theorem textWith_of_token {text : String} {inner : List Char}
    (h : Template.segments text.toList = [.token inner]) (self : Interpolation σ) :
    e.textWith self text =
      e.tokenWith self inner >>= fun value => pure (value.getD (.string text)) := by
  rw [textWith, h]

theorem textBy_assembled {atom : ∀ α : Type, (Interpolation σ → Eval σ α) → Prop}
    {token : Interpolation σ → List Char → Eval σ (Option Value)} (text : String)
    (htoken : ∀ inner, .token inner ∈ Template.segments text.toList →
      Assembled atom fun interpolate => token interpolate inner) :
    Assembled atom fun interpolate => textBy (token interpolate) text := by
  simp only [textBy]
  split
  · rename_i inner hsegments
    refine .bind (htoken inner ?_) fun value? => .done _
    rw [hsegments]
    exact List.mem_singleton.2 rfl
  · refine .bind (.mapM _ fun segment hsegment => ?_) fun pieces => .done _
    cases segment with
    | char c => exact .done [c]
    | token inner =>
        refine .bind (htoken inner hsegment) fun value? => ?_
        cases value? with
        | none => exact .done _
        | some value => exact .done _

/-- Lists and objects are interpolated part by part, so a limit above the weight of the
whole is a limit for the parts. -/
theorem interpolateWith_assembled_of_parts (equipped : e.Equipped reader) (v : Value)
    (hscenario : limit = none ∨ e.scenario.functions = [])
    (hlimit : ∀ n ∈ limit, v.weight ≤ n) (htext : ∀ text, v ≠ .string text) :
    Assembled (Interpolating limit reader) fun interpolate => e.interpolateWith interpolate v := by
  match v with
  | .null | .bool _ | .number _ => exact .done _
  | .string text => exact absurd rfl (htext text)
  | .array items =>
      have hitems : ∀ item ∈ items, item.Within limit := fun item hitem n hn =>
        Nat.lt_of_lt_of_le (Value.weight_lt_array hitem) (hlimit n hn)
      exact .bind (.mapM items fun item hitem => .atom (.value item (hitems item hitem)))
        fun items => .done (Value.array items)
  | .object fields =>
      have hfields : ∀ entry ∈ fields, entry.2.Within limit := fun entry hentry n hn =>
        Nat.lt_of_lt_of_le (Value.weight_lt_object hentry) (hlimit n hn)
      have hnull : Value.null.Within limit := fun n hn =>
        Nat.lt_of_lt_of_le (by simp [Value.weight]) (hlimit n hn)
      have hdropped : ∀ entry ∈ Keyed.drop Value.functionKey fields, entry.2.Within limit :=
        fun entry hentry => hfields entry (List.mem_filter.1 hentry).1
      simp only [interpolateWith]
      refine .ite _ (.done _) (.ite _ ?_ ?_)
      · simpa using recover_evaluateFieldsWith_assembled equipped fields hscenario hnull
          hdropped id (Value.object fields)
      · exact .bind (fieldsWith_assembled fields hfields) fun fields =>
          .done (Value.object fields)

/-- Interpolating a value, given how to interpolate others, is assembled from
interpolations; for a text the variables of the context are read as well. -/
theorem interpolateWith_assembled (equipped : e.Equipped reader) (v : Value) :
    Assembled (Asking reader) fun interpolate => e.interpolateWith interpolate v := by
  by_cases htext : ∃ text, v = .string text
  · obtain ⟨text, rfl⟩ := htext
    simp only [interpolateWith, textWith_eq_textBy]
    exact textBy_assembled text fun inner _ => tokenWith_assembled equipped inner
  · have hparts := interpolateWith_assembled_of_parts equipped v (.inl rfl)
      (fun _ h => by cases h) fun text h => htext ⟨text, h⟩
    exact hparts.mono fun _ _ => .step

end Engine
end Dialogue
