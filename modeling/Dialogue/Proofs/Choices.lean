import Dialogue.Proofs.Effects
import Dialogue.Proofs.Keyboards

/-!
# Choices

`Switch` and `Equals` evaluate no more than they need.  A call of `Switch` first finds the case to
take, by evaluating its value and then match expressions one after the other, and afterwards
evaluates the result of that case or the default (`Engine.on_evaluate_switch`).  Which case is
taken is settled by the match expressions up to and including the one that matches
(`Logic.on_firstMatch_of_take`); a call of `Equals` chooses by its values alone
(`Engine.on_evaluate_equals`).

So two calls that agree so far do the same to every context, whatever else stands in them.  This is
`Engine.choices_are_lazy`, which also covers calls that are met while a value is interpolated: no
unknown name comes out of an interpolation (`Engine.interpolate_knows`), so that such a call is
never left unevaluated.
-/

namespace Dialogue

namespace Keyed

variable {α : Type}

/-- The entries under other keys than the given ones. -/
def without (names : List String) (m : Keyed α) : Keyed α :=
  m.filter fun entry => !names.contains entry.1

theorem get?_without {names : List String} {key : String} (h : key ∉ names) (m : Keyed α) :
    get? (without names m) key = get? m key := by
  induction m with
  | nil => rfl
  | cons entry rest ih =>
      obtain ⟨k, v⟩ := entry
      rw [get?_cons, ← ih]
      by_cases hk : k ∈ names
      · have hne : key ≠ k := fun heq => h (heq ▸ hk)
        simp [without, hk, hne]
      · simp [without, hk, get?_cons]

theorem get?_eq_of_without {names : List String} {m n : Keyed α}
    (h : without names m = without names n) {key : String} (hkey : key ∉ names) :
    get? m key = get? n key := by
  rw [← get?_without hkey m, h, get?_without hkey n]

theorem without_drop (names : List String) (key : String) (m : Keyed α) :
    without names (drop key m) = drop key (without names m) := by
  simp only [without, drop, List.filter_filter, Bool.and_comm]

end Keyed

namespace Logic

variable {σ : Type} {self : Interpolation σ}

/-- The match expression and the result of each case, in order.  What is no object is no case. -/
def arms (cases : List Value) : List (Value × Value) :=
  cases.filterMap fun entry => entry.fields?.map fun fields =>
    ((Keyed.get? fields "match").getD .null, (Keyed.get? fields "result").getD .null)

/-- The number of the first match expression whose value is like a given one. -/
def firstMatch (self : Interpolation σ) (value : Value) : List Value → Eval σ (Option Nat)
  | [] => return none
  | expression :: rest => do
    let candidate ← self expression
    if candidate.alike value then return some 0
    else do
      let found ← firstMatch self value rest
      return found.map (· + 1)

/-- The result of the case with a number, or else the default. -/
def resultOf (self : Interpolation σ) (default? : Option Value) (results : List Value) :
    Option Nat → Eval σ Value
  | some i => self (results[i]?.getD .null)
  | none => branch self .null default?

theorem resultOf_cons (default? : Option Value) (result : Value) (results : List Value)
    (found : Option Nat) :
    resultOf self default? (result :: results) (found.map (· + 1)) =
      resultOf self default? results found := by
  cases found <;> rfl

/-- Choosing is finding the case that matches, and then evaluating its result. -/
theorem choose_eq (value : Value) (default? : Option Value) (cases : List Value) :
    choose self value default? cases =
      firstMatch self value ((arms cases).map Prod.fst) >>=
        resultOf self default? ((arms cases).map Prod.snd) := by
  induction cases with
  | nil => rfl
  | cons entry rest ih =>
      cases entry with
      | object fields =>
          have harms : arms (.object fields :: rest) =
              ((Keyed.get? fields "match").getD .null,
                (Keyed.get? fields "result").getD .null) :: arms rest := rfl
          simp only [choose, harms, List.map_cons, firstMatch, bind_assoc]
          congr 1
          funext candidate
          split
          · rfl
          · simp only [ih, bind_assoc, pure_bind, resultOf_cons]
      | null | bool | number | string | array => exact ih

/-- Which case matches first is settled by the match expressions up to its own. -/
theorem on_firstMatch_of_take {value : Value} {expressions others : List Value}
    {ctx after : Context σ} {i : Nat}
    (h : (firstMatch self value expressions).on ctx = (.ok (some i), after))
    (htake : expressions.take (i + 1) = others.take (i + 1)) :
    (firstMatch self value others).on ctx = (.ok (some i), after) := by
  induction expressions generalizing others ctx i with
  | nil => cases h
  | cons expression rest ih =>
      cases others with
      | nil => cases htake
      | cons other others =>
          obtain ⟨rfl, hrest⟩ := List.cons.inj htake
          obtain ⟨candidate, between, hcandidate, hnext⟩ := Eval.exists_of_on_bind h
          rw [firstMatch, Eval.on_bind_ok hcandidate]
          split at hnext
          · rw [if_pos ‹_›]
            exact hnext
          · obtain ⟨found, _, hfound, hlast⟩ := Eval.exists_of_on_bind hnext
            cases found with
            | none => cases hlast
            | some j =>
                cases hlast
                rw [if_neg ‹_›, Eval.on_bind_ok (ih hfound hrest)]
                rfl

end Logic

namespace Engine

variable {σ : Type} {e : Engine σ} {self : Interpolation σ}

/-! ## Parameters that are not deferred -/

theorem eagerWith_without (self : Interpolation σ) (deferred : List String) (fields : Fields) :
    (eagerWith self deferred fields >>= fun params => pure (Keyed.without deferred params)) =
      fieldsWith self (Keyed.without deferred fields) := by
  induction fields with
  | nil => rfl
  | cons entry rest ih =>
      obtain ⟨key, value⟩ := entry
      simp only [eagerWith, fieldsWith] at ih ⊢
      rw [List.mapM_cons]
      by_cases hdeferred : key ∈ deferred
      · have hparams : ∀ params : Fields, Keyed.without deferred ((key, value) :: params) =
            Keyed.without deferred params := fun params => by simp [Keyed.without, hdeferred]
        simp only [List.contains_iff_mem.2 hdeferred, if_true, bind_assoc, pure_bind, hparams]
        exact ih
      · have hparams : ∀ (v : Value) (params : Fields),
            Keyed.without deferred ((key, v) :: params) =
              (key, v) :: Keyed.without deferred params :=
          fun v params => by simp [Keyed.without, hdeferred]
        have hcontains : deferred.contains key = false := by simpa using hdeferred
        simp only [hcontains, Bool.false_eq_true, if_false, bind_assoc, pure_bind, hparams,
          List.mapM_cons, ← ih]

/-- The parameters that are evaluated for a call do not depend on the deferred ones. -/
theorem on_eagerWith_of_without (self : Interpolation σ) {deferred : List String}
    {fields others : Fields}
    (h : Keyed.without deferred fields = Keyed.without deferred others) (ctx : Context σ) :
    (∃ stop after,
      (eagerWith self deferred (Keyed.drop Value.functionKey fields)).on ctx =
        (.error stop, after) ∧
      (eagerWith self deferred (Keyed.drop Value.functionKey others)).on ctx =
        (.error stop, after)) ∨
    ∃ params params' after,
      (eagerWith self deferred (Keyed.drop Value.functionKey fields)).on ctx =
        (.ok params, after) ∧
      (eagerWith self deferred (Keyed.drop Value.functionKey others)).on ctx =
        (.ok params', after) ∧
      Keyed.without deferred params = Keyed.without deferred params' := by
  have hdrop : Keyed.without deferred (Keyed.drop Value.functionKey fields) =
      Keyed.without deferred (Keyed.drop Value.functionKey others) := by
    rw [Keyed.without_drop, Keyed.without_drop, h]
  generalize Keyed.drop Value.functionKey fields = fields at hdrop
  generalize Keyed.drop Value.functionKey others = others at hdrop
  have hsame := congrArg (Eval.on · ctx)
    ((eagerWith_without self deferred fields).trans
      (hdrop ▸ (eagerWith_without self deferred others).symm))
  simp only [Eval.on_bind] at hsame
  rcases hfields : (eagerWith self deferred fields).on ctx with ⟨stop | params, after⟩ <;>
    rcases hothers : (eagerWith self deferred others).on ctx with ⟨stop' | params', after'⟩ <;>
    simp only [hfields, hothers, Eval.on_pure, Prod.mk.injEq, reduceCtorEq, false_and,
      Except.error.injEq, Except.ok.injEq] at hsame
  · obtain ⟨rfl, rfl⟩ := hsame
    exact .inl ⟨stop, after, rfl, rfl⟩
  · obtain ⟨hparams, rfl⟩ := hsame
    exact .inr ⟨params, params', after, rfl, rfl, hparams⟩

theorem on_eagerWith_bind {β : Type} {deferred : List String} {fields others : Fields}
    {k k' : Fields → Eval σ β}
    (h : Keyed.without deferred fields = Keyed.without deferred others)
    (hk : ∀ params params', Keyed.without deferred params = Keyed.without deferred params' →
      k params = k' params') (ctx : Context σ) :
    (eagerWith self deferred (Keyed.drop Value.functionKey fields) >>= k).on ctx =
      (eagerWith self deferred (Keyed.drop Value.functionKey others) >>= k').on ctx := by
  rcases on_eagerWith_of_without self h ctx with
    ⟨stop, after, hfields, hothers⟩ | ⟨params, params', after, hfields, hothers, hsame⟩
  · rw [Eval.on_bind_error hfields, Eval.on_bind_error hothers]
  · rw [Eval.on_bind_ok hfields, Eval.on_bind_ok hothers, hk params params' hsame]

/-! ## Calls -/

/-- The descriptor calls a function of the registry. -/
def Calls (e : Engine σ) (fields : Fields) (x : Executor σ) : Prop :=
  ∃ name, Value.nameUnder Value.functionKey fields = some name ∧ e.functions.get? name = some x

/-- The cases of a call, before anything in them is evaluated. -/
def cases (fields : Fields) : List (Value × Value) :=
  Logic.arms (Parameters.list fields "cases")

/-- The number of the case that a call of `Switch` takes: its value is evaluated, and then the
match expressions in order up to the first that matches. -/
def caseTaken (self : Interpolation σ) (fields : Fields) : Eval σ (Option Nat) := do
  let params ← eagerWith self (Logic.switch : Executor σ).deferred
    (Keyed.drop Value.functionKey fields)
  Logic.firstMatch self ((params.get? "value").getD .null) ((cases fields).map Prod.fst)

/-- Whether the values of a call of `Equals` are alike. -/
def valuesAlike (self : Interpolation σ) (fields : Fields) : Eval σ Bool := do
  let params ← eagerWith self (Logic.equals : Executor σ).deferred
    (Keyed.drop Value.functionKey fields)
  return Logic.allAlike (Parameters.list params "values")

/-- The parameter that holds a branch of `Equals`. -/
def branchName (outcome : Bool) : String := if outcome then "trueResult" else "falseResult"

theorem evaluateFieldsWith_of_calls {fields : Fields} {x : Executor σ} (h : e.Calls fields x) :
    e.evaluateFieldsWith self fields =
      eagerWith self x.deferred (Keyed.drop Value.functionKey fields) >>= x.execute self := by
  obtain ⟨name, hname, hx⟩ := h
  simp only [evaluateFieldsWith, hname, hx]

/-- A deferred parameter reaches the function as it stands in the call. -/
theorem get?_deferred {deferred : List String} {fields params : Fields} {ctx after : Context σ}
    (h : (eagerWith self deferred (Keyed.drop Value.functionKey fields)).on ctx =
      (.ok params, after)) {key : String} (hkey : key ∈ deferred)
    (hfunction : key ≠ Value.functionKey) : params.get? key = Keyed.get? fields key := by
  rw [get?_of_eagerWith h hkey, Keyed.get?_drop_of_ne _ hfunction]

/-- A call of `Switch` finds the case to take, and then evaluates its result or the default. -/
theorem on_evaluate_switch {fields : Fields} (h : e.Calls fields Logic.switch)
    (ctx : Context σ) :
    (e.evaluateFieldsWith self fields).on ctx =
      (caseTaken self fields >>= Logic.resultOf self (Keyed.get? fields "defaultResult")
        ((cases fields).map Prod.snd)).on ctx := by
  rw [evaluateFieldsWith_of_calls h, caseTaken, bind_assoc]
  rcases hparams : (eagerWith self (Logic.switch : Executor σ).deferred
    (Keyed.drop Value.functionKey fields)).on ctx with ⟨stop | params, after⟩
  · rw [Eval.on_bind_error hparams, Eval.on_bind_error hparams]
  · have hcases : params.get? "cases" = Keyed.get? fields "cases" :=
      get?_deferred hparams (by simp [Logic.switch]) (by decide)
    have hdefault : params.get? "defaultResult" = Keyed.get? fields "defaultResult" :=
      get?_deferred hparams (by simp [Logic.switch]) (by decide)
    rw [Eval.on_bind_ok hparams, Eval.on_bind_ok hparams, cases, ← Logic.choose_eq]
    simp only [Logic.switch, Parameters.list, Parameters.given?, hcases, hdefault]

/-- A call of `Equals` compares its values, and then evaluates the branch of the outcome. -/
theorem on_evaluate_equals {fields : Fields} (h : e.Calls fields Logic.equals)
    (ctx : Context σ) :
    (e.evaluateFieldsWith self fields).on ctx =
      (valuesAlike self fields >>= fun outcome => Logic.branch self (.bool outcome)
        (Keyed.get? fields (branchName outcome))).on ctx := by
  rw [evaluateFieldsWith_of_calls h, valuesAlike, bind_assoc]
  rcases hparams : (eagerWith self (Logic.equals : Executor σ).deferred
    (Keyed.drop Value.functionKey fields)).on ctx with ⟨stop | params, after⟩
  · rw [Eval.on_bind_error hparams, Eval.on_bind_error hparams]
  · have hbranch : ∀ outcome, params.get? (branchName outcome) =
        Keyed.get? fields (branchName outcome) := by
      rintro (_ | _) <;>
        exact get?_deferred hparams (by simp [branchName, Logic.equals]) (by decide)
    rw [Eval.on_bind_ok hparams, Eval.on_bind_ok hparams, pure_bind, ← hbranch]
    rfl

theorem Calls.of_without {names : List String} {fields others : Fields} {x : Executor σ}
    (h : e.Calls fields x) (hnames : Value.functionKey ∉ names)
    (hothers : Keyed.without names fields = Keyed.without names others) : e.Calls others x := by
  obtain ⟨name, hname, hx⟩ := h
  refine ⟨name, ?_, hx⟩
  rw [Value.nameUnder, ← Keyed.get?_eq_of_without hothers hnames]
  exact hname

/-! ## Calls inside of values -/

/-- A stop that is not about an unknown name. -/
def Known (stop : Stop) : Prop := ∀ failure, stop = .failed failure → isUnknown failure = false

theorem recover_knows {α : Type} (x : Eval σ α) (a : α) :
    (x.recover isUnknown fun _ => pure a).StopsOnly Known := by
  refine .recover_of_condition (fun ctx stop _ => ?_) fun _ => .pure a
  by_cases hknown : Known stop
  · exact .inl hknown
  · simp only [Known, not_forall, Bool.not_eq_false] at hknown
    obtain ⟨failure, hfailure, hunknown⟩ := hknown
    exact .inr ⟨failure, hfailure, hunknown⟩

theorem fieldsWith_knows (hself : ∀ v, (self v).StopsOnly Known) (fields : Fields) :
    (fieldsWith self fields).StopsOnly Known :=
  .mapM fields fun entry => .bind (hself entry.2) fun _ => .pure _

theorem tokenWith_knows (inner : List Char) : (e.tokenWith self inner).StopsOnly Known := by
  unfold tokenWith
  dsimp only
  split
  · split
    · exact .pure none
    · refine .bind (fun ctx stop hstop => nomatch hstop) fun fields => ?_
      exact recover_knows _ none
  · exact fun ctx stop hstop => nomatch hstop

theorem textWith_knows (text : String) : (e.textWith self text).StopsOnly Known := by
  unfold textWith
  split
  · exact .bind (tokenWith_knows _) fun _ => .pure _
  · refine .bind (.mapM _ fun segment => ?_) fun _ => .pure _
    cases segment with
    | char c => exact .pure [c]
    | token inner =>
        refine .bind (tokenWith_knows inner) fun value? => ?_
        cases value? with
        | none => exact .pure _
        | some value => exact .pure _

/-- No interpolation stops at an unknown name, whatever the functions of the host do. -/
theorem interpolate_knows (bound : Nat) (v : Value) :
    (e.interpolate bound v).StopsOnly Known := by
  induction bound generalizing v with
  | zero =>
      intro ctx stop hstop failure hfailure
      cases hstop
      cases hfailure
  | succ bound ih =>
      rw [interpolate]
      cases v with
      | null | bool | number => exact .pure _
      | string text => exact textWith_knows text
      | array items => exact .bind (.mapM items ih) fun _ => .pure _
      | object fields =>
          simp only [interpolateWith]
          split
          · exact .pure _
          · split
            · exact recover_knows _ _
            · exact .bind (fieldsWith_knows ih fields) fun _ => .pure _

theorem branch_knows (hself : ∀ v, (self v).StopsOnly Known) (otherwise : Value)
    (branch? : Option Value) : (Logic.branch self otherwise branch?).StopsOnly Known := by
  cases branch? with
  | none => exact .pure otherwise
  | some expression => exact hself expression

theorem choose_knows (hself : ∀ v, (self v).StopsOnly Known) (value : Value)
    (default? : Option Value) (cases : List Value) :
    (Logic.choose self value default? cases).StopsOnly Known := by
  induction cases with
  | nil => exact branch_knows hself .null default?
  | cons entry rest ih =>
      cases entry with
      | object fields =>
          refine .bind (hself _) fun candidate => ?_
          split
          · exact hself _
          · exact ih
      | null | bool | number | string | array => exact ih

/-- A call that finds its function in the registry, and fails for no unknown name, is evaluated
where a value is interpolated as it is on its own. -/
theorem on_interpolate_call {fields : Fields} {x : Executor σ} {bound : Nat}
    (h : e.Calls fields x) (haction : (Value.object fields).isAction = false)
    (hx : ∀ params, (x.execute (e.interpolate bound) params).StopsOnly Known) (ctx : Context σ) :
    (e.interpolate (bound + 1) (.object fields)).on ctx =
      (e.evaluate bound (.object fields)).on ctx := by
  have hfunction : (Value.object fields).isFunction = true := by
    obtain ⟨name, hname, -⟩ := h
    simp [Value.isFunction, Value.fields?, hname]
  have hknown : (e.evaluateFieldsWith (e.interpolate bound) fields).StopsOnly Known := by
    rw [evaluateFieldsWith_of_calls h]
    refine .bind (.mapM _ fun entry => ?_) hx
    obtain ⟨key, value⟩ := entry
    dsimp only
    split
    · exact .pure _
    · exact .bind (interpolate_knows bound value) fun _ => .pure _
  rw [interpolate, interpolateWith, haction, hfunction]
  simp only [Bool.false_eq_true, if_false, if_true, evaluate, evaluateWith]
  rw [Eval.on_recover]
  split
  · rename_i failure hfailure
    rw [hknown ctx _ hfailure failure rfl]
    rfl
  · rfl

/-! ## Laziness -/

/-- The case that is taken does not depend on the results of the cases, on the cases behind it and
on the default. -/
theorem on_caseTaken_of_take {fields others : Fields} {ctx after : Context σ} {i : Nat}
    (hothers : Keyed.without (Logic.switch : Executor σ).deferred fields =
      Keyed.without (Logic.switch : Executor σ).deferred others)
    (h : (caseTaken self fields).on ctx = (.ok (some i), after))
    (htake : ((cases fields).map Prod.fst).take (i + 1) =
      ((cases others).map Prod.fst).take (i + 1)) :
    (caseTaken self others).on ctx = (.ok (some i), after) := by
  obtain ⟨params, between, hparams, hfound⟩ := Eval.exists_of_on_bind h
  rcases on_eagerWith_of_without self hothers ctx with
    ⟨stop, _, hstop, -⟩ | ⟨_, params', _, hfields, hparams', hsame⟩
  · rw [hparams] at hstop
    cases hstop
  · rw [hparams] at hfields
    cases hfields
    have hvalue : params.get? "value" = params'.get? "value" :=
      Keyed.get?_eq_of_without hsame (by simp [Logic.switch])
    rw [caseTaken, Eval.on_bind_ok hparams', ← hvalue]
    exact Logic.on_firstMatch_of_take hfound htake

/-- The case that is taken depends on the value and the match expressions alone, also if there is
none or an evaluation on the way fails. -/
theorem on_caseTaken_of_matches (self : Interpolation σ) {fields others : Fields}
    (hothers : Keyed.without (Logic.switch : Executor σ).deferred fields =
      Keyed.without (Logic.switch : Executor σ).deferred others)
    (hmatches : (cases fields).map Prod.fst = (cases others).map Prod.fst) (ctx : Context σ) :
    (caseTaken self fields).on ctx = (caseTaken self others).on ctx := by
  refine on_eagerWith_bind hothers (fun params params' hsame => ?_) ctx
  have hvalue : params.get? "value" = params'.get? "value" :=
    Keyed.get?_eq_of_without hsame (by simp [Logic.switch])
  rw [hvalue, hmatches]

/-- What the values come to does not depend on the branches. -/
theorem on_valuesAlike {fields others : Fields}
    (hothers : Keyed.without (Logic.equals : Executor σ).deferred fields =
      Keyed.without (Logic.equals : Executor σ).deferred others) (ctx : Context σ) :
    (valuesAlike self fields).on ctx = (valuesAlike self others).on ctx := by
  refine on_eagerWith_bind hothers (fun params params' hsame => ?_) ctx
  have hvalues : params.get? "values" = params'.get? "values" :=
    Keyed.get?_eq_of_without hsame (by simp [Logic.equals])
  simp only [Parameters.list, Parameters.given?, hvalues]

/-- Two calls do the same to a context: evaluated, with the effects dispatched or left in the queue,
and where they are met while a value is interpolated. -/
structure SameCall (e : Engine σ) (bound : Nat) (ctx : Context σ) (fields others : Fields) :
    Prop where
  evaluated : (e.evaluate bound (.object fields)).on ctx =
    (e.evaluate bound (.object others)).on ctx
  dispatched : (e.evaluateFunction bound (.object fields)).on ctx =
    (e.evaluateFunction bound (.object others)).on ctx
  interpolated : (Value.object fields).isAction = false →
    (e.interpolate (bound + 1) (.object fields)).on ctx =
      (e.interpolate (bound + 1) (.object others)).on ctx

theorem isAction_eq_of_without {names : List String} {fields others : Fields}
    (hnames : Value.actionKey ∉ names)
    (h : Keyed.without names fields = Keyed.without names others) :
    (Value.object fields).isAction = (Value.object others).isAction := by
  have hname := Keyed.get?_eq_of_without h hnames
  simp [Value.isAction, Value.fields?, Value.nameUnder, hname]

/-- Calls of one function of the registry that are evaluated alike do the same everywhere. -/
theorem sameCall_of_evaluated {bound : Nat} {ctx : Context σ} {fields others : Fields}
    {x : Executor σ} (hx : ∀ params, (x.execute (e.interpolate bound) params).StopsOnly Known)
    (hnames : Value.functionKey ∉ x.deferred ∧ Value.actionKey ∉ x.deferred)
    (hcalls : e.Calls fields x)
    (hothers : Keyed.without x.deferred fields = Keyed.without x.deferred others)
    (h : (e.evaluateFieldsWith (e.interpolate bound) fields).on ctx =
      (e.evaluateFieldsWith (e.interpolate bound) others).on ctx) :
    e.SameCall bound ctx fields others where
  evaluated := h
  dispatched := by
    simp only [evaluateFunction, evaluate, evaluateWith, flushWith, Eval.on_thenAlways, h]
  interpolated haction := by
    have haction' := (isAction_eq_of_without hnames.2 hothers).symm.trans haction
    rw [on_interpolate_call hcalls haction hx,
      on_interpolate_call (hcalls.of_without hnames.1 hothers) haction' hx]
    exact h

/-- `Switch` and `Equals` are lazy.  Two calls of `Switch` with the same value that agree on the
match expressions up to and including the first that matches, and on its result, do the same,
whatever the earlier results, the later cases and the default are.  If no case matches, only the
match expressions and the default matter, and only the match expressions if evaluating them
fails.  Two calls of `Equals` with the same values that agree on the branch of their outcome do
the same, whatever the other branch is. -/
theorem choices_are_lazy (e : Engine σ) (bound : Nat) (ctx : Context σ) (fields others : Fields) :
    (e.Calls fields Logic.switch →
      Keyed.without (Logic.switch : Executor σ).deferred fields =
        Keyed.without (Logic.switch : Executor σ).deferred others →
      (∀ i, ((caseTaken (e.interpolate bound) fields).on ctx).1 = .ok (some i) →
        ((cases fields).map Prod.fst).take (i + 1) = ((cases others).map Prod.fst).take (i + 1) →
        ((cases fields).map Prod.snd)[i]? = ((cases others).map Prod.snd)[i]? →
        e.SameCall bound ctx fields others) ∧
      ((∀ i, ((caseTaken (e.interpolate bound) fields).on ctx).1 ≠ .ok (some i)) →
        (cases fields).map Prod.fst = (cases others).map Prod.fst →
        (((caseTaken (e.interpolate bound) fields).on ctx).1 = .ok none →
          Keyed.get? fields "defaultResult" = Keyed.get? others "defaultResult") →
        e.SameCall bound ctx fields others)) ∧
    (e.Calls fields Logic.equals →
      Keyed.without (Logic.equals : Executor σ).deferred fields =
        Keyed.without (Logic.equals : Executor σ).deferred others →
      (∀ outcome, ((valuesAlike (e.interpolate bound) fields).on ctx).1 = .ok outcome →
        Keyed.get? fields (branchName outcome) = Keyed.get? others (branchName outcome)) →
      e.SameCall bound ctx fields others) := by
  have hknows := interpolate_knows (e := e) bound
  refine ⟨fun hcalls hothers => ?_, fun hcalls hothers hbranch => ?_⟩
  · have hnames : Value.functionKey ∉ (Logic.switch : Executor σ).deferred ∧
        Value.actionKey ∉ (Logic.switch : Executor σ).deferred := by
      simp [Logic.switch, Value.functionKey, Value.actionKey]
    have hcalls' := hcalls.of_without hnames.1 hothers
    have hsame : (e.evaluateFieldsWith (e.interpolate bound) fields).on ctx =
        (e.evaluateFieldsWith (e.interpolate bound) others).on ctx →
          e.SameCall bound ctx fields others :=
      sameCall_of_evaluated (fun params => choose_knows hknows _ _ _) hnames hcalls hothers
    refine ⟨fun i htaken htake hresult => hsame ?_, fun hnone hmatches hdefault => hsame ?_⟩
    · have hfields : (caseTaken (e.interpolate bound) fields).on ctx =
          (.ok (some i), ((caseTaken (e.interpolate bound) fields).on ctx).2) :=
        Prod.ext htaken rfl
      rw [on_evaluate_switch hcalls, on_evaluate_switch hcalls', Eval.on_bind_ok hfields,
        Eval.on_bind_ok (on_caseTaken_of_take hothers hfields htake)]
      simp only [Logic.resultOf, hresult]
    · have htaken := on_caseTaken_of_matches (e.interpolate bound) hothers hmatches ctx
      rw [on_evaluate_switch hcalls, on_evaluate_switch hcalls', Eval.on_bind, Eval.on_bind,
        ← htaken]
      split
      · rename_i found hfound
        cases found with
        | none => rw [Logic.resultOf, Logic.resultOf, hdefault hfound]
        | some i => exact absurd hfound (hnone i)
      · rfl
  · have hnames : Value.functionKey ∉ (Logic.equals : Executor σ).deferred ∧
        Value.actionKey ∉ (Logic.equals : Executor σ).deferred := by
      simp [Logic.equals, Value.functionKey, Value.actionKey]
    have hcalls' := hcalls.of_without hnames.1 hothers
    refine sameCall_of_evaluated (fun params => branch_knows hknows _ _) hnames hcalls hothers ?_
    rw [on_evaluate_equals hcalls, on_evaluate_equals hcalls', Eval.on_bind, Eval.on_bind,
      ← on_valuesAlike hothers]
    split
    · rename_i outcome houtcome
      rw [hbranch outcome houtcome]
    · rfl

/-- A case of `Switch`. -/
def caseOf (expression : String) (result : Value) : Value :=
  .object [("match", .string expression), ("result", result)]

/-- A call of `Switch` on the language of the session. -/
def byLanguage (cases : List Value) : Fields :=
  [("cases", .array cases), ("function", .string "Switch"),
    ("value", .string "\x7b\x7blang\x7d\x7d")]

/-- Takes an entry out of the storage. -/
def takingCode : Value :=
  .object [("consume", .bool true), ("function", .string "ReadStorage"), ("key", .string "code")]

/-- A call of `Equals` that greets those who speak German. -/
def greetingGerman (otherwise : Value) : Fields :=
  [("falseResult", otherwise), ("function", .string "Equals"), ("trueResult", .string "Hallo"),
    ("values", .array [.string "\x7b\x7blang\x7d\x7d", .string "de"])]

/-- A greeting in the language of the session does not depend on whether a result before it takes
an entry out of the storage, on whether a case behind it does, or on whether another branch
does. -/
theorem greeting_leaves_other_branches :
    let e := solitary {}
    let ctx := Context.solitary [("lang", .string "de")]
    let fields := byLanguage [caseOf "en" (.string "Hello"), caseOf "de" (.string "Hallo")]
    let others := byLanguage [caseOf "en" takingCode, caseOf "de" (.string "Hallo"),
      caseOf "fr" takingCode]
    (e.Calls fields Logic.switch ∧
      ((caseTaken (e.interpolate 3) fields).on ctx).1 = .ok (some 1) ∧
      e.SameCall 3 ctx fields others) ∧
    e.Calls (greetingGerman .null) Logic.equals ∧
      ((valuesAlike (e.interpolate 3) (greetingGerman .null)).on ctx).1 = .ok true ∧
      e.SameCall 3 ctx (greetingGerman .null) (greetingGerman takingCode) := by
  intro e ctx fields others
  have hcalls : e.Calls fields Logic.switch := ⟨"Switch", rfl, by cbv⟩
  have htaken : ((caseTaken (e.interpolate 3) fields).on ctx).1 = .ok (some 1) := by cbv
  have hsame : e.SameCall 3 ctx fields others :=
    ((choices_are_lazy e 3 ctx fields others).1 hcalls rfl).1 1 htaken rfl rfl
  have hcalls' : e.Calls (greetingGerman .null) Logic.equals := ⟨"Equals", rfl, by cbv⟩
  have halike : ((valuesAlike (e.interpolate 3) (greetingGerman .null)).on ctx).1 = .ok true := by
    cbv
  refine ⟨⟨hcalls, htaken, hsame⟩, hcalls', halike, ?_⟩
  refine (choices_are_lazy e 3 ctx _ (greetingGerman takingCode)).2 hcalls' rfl ?_
  intro outcome houtcome
  rw [halike] at houtcome
  cases houtcome
  rfl

end Engine
end Dialogue
