import Dialogue.Proofs.Variables

/-!
# What scenario functions ask for

A function of the scenario that results in an action queues this action.  To tell what the
queue holds in the end, the same interpolation is looked at with another way of telling:
`Engine.interpolateTelling` hands each action in which a function of the scenario results to
`tell`, at the moment when the function has its result.

* `Engine.interpolateTelling_queueEffect`: with queueing as the way of telling it is
  interpolation.
* `Engine.interpolateTelling_follows`: two ways of telling that keep two runs side by side do so
  for the whole interpolation, because nothing else looks at what was told.
* `Engine.on_of_follows_writtenDown`: so whoever writes down what is told has written down what
  the queue holds, in the same order.
-/

namespace Dialogue

variable {σ : Type}

/-- Never gives up. -/
abbrev Stop.Never (_ : Stop) : Prop := False

/-- Two evaluations of which the first never gives up have the same outcome. -/
theorem Eval.Follows.outcome {α : Type} {R : Context σ → Context σ → Prop} {x y : Eval σ α}
    (hxy : x.Follows Stop.Never R y) {c d : Context σ} (h : R c d) :
    (x.on c).1 = (y.on d).1 ∧ R (x.on c).2 (y.on d).2 := by
  rcases hxy c d h with ⟨_, -, hnever⟩ | hsame
  · exact hnever.elim
  · exact hsame

namespace Engine

variable {e : Engine σ}

/-- A call of a function of the scenario that tells of the action in which it results. -/
def callTelling (tell : Value → Eval σ Unit) (self : Interpolation σ)
    (function : ScenarioFunction) (given : Fields) : Eval σ Value := do
  let arguments ← fieldsWith self (function.params.overlay given)
  let result ← Eval.withParams arguments
    (Eval.withLocals arguments (resultWith self function.result))
  if result.isAction then tell result
  return result

/-- Evaluates the fields of a function descriptor; functions of the scenario tell. -/
def evaluateTelling (e : Engine σ) (tell : Value → Eval σ Unit) (self : Interpolation σ)
    (fields : Fields) : Eval σ Value :=
  match Value.nameUnder Value.functionKey fields with
  | none => Eval.fail .descriptorUnnamed
  | some name =>
    let params := fields.drop Value.functionKey
    match e.functions.get? name with
    | some executor => do
      let params ← eagerWith self executor.deferred params
      executor.execute self params
    | none =>
      match e.scenario.functions.get? name with
      | some function => callTelling tell self function params
      | none => Eval.fail (.unknownFunction name)

/-- The value of a token, given how descriptors are evaluated. -/
def tokenBy (e : Engine σ) (evaluate : Fields → Eval σ Value) (inner : List Char) :
    Eval σ (Option Value) :=
  let expression := Template.expression inner
  match Template.call? expression with
  | some (name, args) =>
    match e.keywords? name with
    | none => return none
    | some keywords => do
      let fields ← Eval.ask fun ctx => e.descriptor ctx name keywords args
      (do
        let value ← evaluate fields
        return some value).recover isUnknown fun _ => return none
  | none => Eval.ask fun ctx => e.lookup ctx expression

/-- Interpolates a value, given how descriptors are evaluated and parts are interpolated. -/
def interpolateBy (e : Engine σ) (evaluate : Fields → Eval σ Value) (self : Interpolation σ)
    (value : Value) : Eval σ Value :=
  match value with
  | .string text => textBy (e.tokenBy evaluate) text
  | .array items => do
    let items ← items.mapM self
    return .array items
  | .object fields =>
    if value.isAction then return value
    else if value.isFunction then
      (evaluate fields).recover isUnknown fun _ => return value
    else do
      let fields ← fieldsWith self fields
      return .object fields
  | _ => return value

/-- Interpolates a value; functions of the scenario tell of the actions in which they result. -/
def interpolateTelling (e : Engine σ) (tell : Value → Eval σ Unit) : Nat → Interpolation σ
  | 0, _ => Eval.exhausted
  | bound + 1, value =>
    e.interpolateBy (e.evaluateTelling tell (e.interpolateTelling tell bound))
      (e.interpolateTelling tell bound) value

/-- Interpolation tells by queueing. -/
theorem interpolateTelling_queueEffect (bound : Nat) :
    e.interpolateTelling Eval.queueEffect bound = e.interpolate bound := by
  induction bound with
  | zero => rfl
  | succ bound ih =>
      funext v
      simp only [interpolateTelling, interpolate, ih]
      cases v <;> rfl

/-! ## Two ways of telling, side by side -/

/-- Contexts of two interpolations side by side that tell in different ways: what is told is
no variable and not in the storage. -/
structure SideBySide (R : Context σ → Context σ → Prop) (first second : Value → Eval σ Unit) :
    Prop where
  twinning : Twinning R
  sameVariables : ∀ {c d}, R c d → c.SameVariables d
  tell : ∀ effect, (first effect).Follows Stop.Never R (second effect)
  storage : ∀ (self other : Interpolation σ) params,
    (FunctionLibrary.readStorage.execute self params).Follows Stop.Never R
      (FunctionLibrary.readStorage.execute other params)

namespace SideBySide

variable {R : Context σ → Context σ → Prop} {first second : Value → Eval σ Unit}
  {self other : Interpolation σ}

theorem fieldsWith (hself : ∀ v, (self v).Follows Stop.Never R (other v)) (fields : Fields) :
    (Engine.fieldsWith self fields).Follows Stop.Never R (Engine.fieldsWith other fields) :=
  .mapM fields fun entry => .bind (hself entry.2) fun value => .pure (entry.1, value)

theorem eagerWith (hself : ∀ v, (self v).Follows Stop.Never R (other v))
    (deferred : List String) (fields : Fields) :
    (Engine.eagerWith self deferred fields).Follows Stop.Never R
      (Engine.eagerWith other deferred fields) := by
  refine .mapM fields fun entry => ?_
  obtain ⟨key, value⟩ := entry
  dsimp only
  split
  · exact .pure (key, value)
  · exact .bind (hself value) fun result => .pure (key, result)

theorem resultWith (hself : ∀ v, (self v).Follows Stop.Never R (other v)) (result : Value) :
    (Engine.resultWith self result).Follows Stop.Never R (Engine.resultWith other result) := by
  cases result with
  | object fields =>
      simp only [Engine.resultWith]
      split
      · exact .bind (fieldsWith hself fields) fun fields => .pure (Value.object fields)
      · exact hself _
  | _ => exact hself _

theorem ask {α : Type} (h : SideBySide R first second) {f : Context σ → α}
    (hf : ∀ {c d : Context σ}, c.SameVariables d → f d = f c) :
    (Eval.ask f).Follows Stop.Never R (Eval.ask f) :=
  fun _ _ hcd => .inr ⟨congrArg Except.ok (hf (h.sameVariables hcd)).symm, hcd⟩

variable (h : SideBySide R first second) (hself : ∀ v, (self v).Follows Stop.Never R (other v))
include h hself

theorem callTelling (function : ScenarioFunction) (given : Fields) :
    (Engine.callTelling first self function given).Follows Stop.Never R
      (Engine.callTelling second other function given) := by
  refine .bind (fieldsWith hself _) fun arguments => ?_
  have hresult := resultWith hself function.result
  refine .bind (.withParams h.twinning _ (.withLocals h.twinning _ hresult)) fun result => ?_
  dsimp only
  split
  · exact .bind (h.tell result) fun _ => .pure result
  · exact .pure result

/-- A function of the library does not look at what was told. -/
theorem execute (equipped : e.Equipped FunctionLibrary.readStorage) {name : String}
    {x : Executor σ} (hfunction : e.functions.get? name = some x) (params : Fields) :
    (x.execute self params).Follows Stop.Never R (x.execute other params) := by
  rw [equipped.functions] at hfunction
  split at hfunction
  · cases hfunction
    exact h.storage self other params
  · rename_i hreader
    have hassembled := FunctionLibrary.assembles_of_get? hfunction hreader none params
      (Value.within_none _) fun _ _ _ _ => Value.within_none _
    refine hassembled.follows h.twinning (fun _ => id) fun α X hatom => ?_
    cases hatom with
    | value v _ => exact hself v
    | fail failure _ => exact .fail failure

theorem evaluateTelling (equipped : e.Equipped FunctionLibrary.readStorage) (fields : Fields) :
    (e.evaluateTelling first self fields).Follows Stop.Never R
      (e.evaluateTelling second other fields) := by
  unfold Engine.evaluateTelling
  split
  · exact .fail _
  · rename_i name hname
    dsimp only
    split
    · rename_i x hfunction
      refine .bind (eagerWith hself x.deferred _) fun params => ?_
      exact h.execute hself equipped hfunction params
    · split
      · exact h.callTelling hself _ _
      · exact .fail _

omit hself in
/-- A token is read alike if descriptors are evaluated alike. -/
theorem tokenBy {evaluate again : Fields → Eval σ Value}
    (heval : ∀ fields, (evaluate fields).Follows Stop.Never R (again fields))
    (inner : List Char) :
    (e.tokenBy evaluate inner).Follows Stop.Never R (e.tokenBy again inner) := by
  unfold Engine.tokenBy
  dsimp only
  split
  · split
    · exact .pure none
    · rename_i keywords _
      refine .bind (h.ask fun hvars => descriptor_congr hvars _ keywords _) fun fields => ?_
      exact .recover (fun _ => False.elim) (.bind (heval fields) fun value => .pure (some value))
        fun _ => .pure none
  · exact h.ask fun hvars => lookup_congr hvars _

omit hself in
theorem textBy {evaluate again : Fields → Eval σ Value}
    (heval : ∀ fields, (evaluate fields).Follows Stop.Never R (again fields)) (text : String) :
    (Engine.textBy (e.tokenBy evaluate) text).Follows Stop.Never R
      (Engine.textBy (e.tokenBy again) text) := by
  unfold Engine.textBy
  split
  · exact .bind (h.tokenBy heval _) fun _ => .pure _
  · refine .bind (.mapM _ fun segment => ?_) fun _ => .pure _
    cases segment with
    | char c => exact .pure [c]
    | token inner =>
        refine .bind (h.tokenBy heval inner) fun value? => ?_
        cases value? with
        | none => exact .pure _
        | some value => exact .pure _

theorem interpolateBy {evaluate again : Fields → Eval σ Value}
    (heval : ∀ fields, (evaluate fields).Follows Stop.Never R (again fields)) (v : Value) :
    (e.interpolateBy evaluate self v).Follows Stop.Never R (e.interpolateBy again other v) := by
  cases v with
  | string text => exact h.textBy heval text
  | array items => exact .bind (.mapM items hself) fun items => .pure (Value.array items)
  | object fields =>
      simp only [Engine.interpolateBy]
      split
      · exact .pure _
      · split
        · exact .recover (fun _ => False.elim) (heval fields) fun _ => .pure _
        · exact .bind (fieldsWith hself fields) fun fields => .pure (Value.object fields)
  | _ => exact .pure _

end SideBySide

section

variable {R : Context σ → Context σ → Prop} {first second : Value → Eval σ Unit}

/-- Ways of telling that keep two runs side by side keep interpolations side by side. -/
theorem interpolateTelling_follows (equipped : e.Equipped FunctionLibrary.readStorage)
    (h : SideBySide R first second) (bound : Nat) (v : Value) :
    (e.interpolateTelling first bound v).Follows Stop.Never R
      (e.interpolateTelling second bound v) := by
  -- the nesting of both is the same, so the induction is on the bound
  induction bound generalizing v with
  | zero => exact fun _ _ hcd => .inr ⟨rfl, hcd⟩
  | succ bound ih => exact h.interpolateBy ih (h.evaluateTelling ih equipped) v

/-- And so do they keep the evaluations of descriptors. -/
theorem evaluateTelling_follows (equipped : e.Equipped FunctionLibrary.readStorage)
    (h : SideBySide R first second) (bound : Nat) (fields : Fields) :
    (e.evaluateTelling first (e.interpolateTelling first bound) fields).Follows Stop.Never R
      (e.evaluateTelling second (e.interpolateTelling second bound) fields) :=
  h.evaluateTelling (interpolateTelling_follows equipped h bound) equipped fields

end

/-! ## Writing down what is told -/

/-- Tells by writing down, outside. -/
def writeDown (note : σ → Value → σ) (effect : Value) : Eval σ Unit :=
  Eval.update fun ctx => { ctx with outside := note ctx.outside effect }

/-- In the second context is written down what the first has in its queue. -/
def WrittenDown (note : σ → Value → σ) (c d : Context σ) : Prop :=
  d = { c with effects := [], outside := c.effects.foldl note c.outside }

theorem sideBySide_writeDown (note : σ → Value → σ) :
    SideBySide (WrittenDown note) Eval.queueEffect (writeDown note) where
  twinning :=
    { enter := by
        rintro c _ frame rfl
        rfl
      leave := by
        rintro c _ c' _ rfl rfl
        rfl
      params := by
        rintro c _ params rfl
        rfl
      back := by
        rintro c _ c' _ rfl rfl
        rfl }
  sameVariables := by
    rintro c _ rfl
    exact ⟨rfl, rfl, rfl, rfl⟩
  tell effect := by
    rintro c _ rfl
    refine .inr ⟨rfl, ?_⟩
    simp [WrittenDown, writeDown, List.foldl_append]
  storage self other params := by
    rintro c _ rfl
    right
    simp only [FunctionLibrary.readStorage]
    cases Parameters.required "ReadStorage" params "key" <;> exact ⟨rfl, rfl⟩

/-- Whoever writes down what the other evaluation queues ends with the same outcome in the same
context, with the queue written down from front to back. -/
theorem on_of_follows_writtenDown {note : σ → Value → σ} {x y : Eval σ Value}
    (hfollows : x.Follows Stop.Never (WrittenDown note) y) (hx : x.Keeps Context.Advances)
    {ctx : Context σ} (hqueue : ctx.effects = []) :
    y.on ctx = ((x.on ctx).1,
      { (x.on ctx).2 with
        effects := []
        outside := (x.on ctx).2.effects.foldl note ctx.outside }) := by
  have hstart : WrittenDown note ctx ctx := by
    obtain ⟨session, env, params, scope, effects, agenda, callbacks, outside⟩ := ctx
    cases hqueue
    rfl
  obtain ⟨houtcome, hafter⟩ := hfollows.outcome hstart
  obtain ⟨storage, effects, -, -, hadvanced⟩ := hx ctx
  have houtside : (x.on ctx).2.outside = ctx.outside := by rw [hadvanced]
  refine Prod.ext houtcome.symm (hafter.trans ?_)
  rw [houtside]

end Engine
end Dialogue
