import Dialogue.Proofs.Failures
import Dialogue.Proofs.Frame

/-!
# Nested interpolations

Interpolating a value asks for the interpolation of others, in contexts of their own.
Such a pair of a context and a value is a `Request`.  An interpolation terminates if a
bound on nesting is large enough for it.  This is a matter of which requests are nested in
which: `terminates_iff_no_chain` says that a request terminates if and only if no infinite
chain of nested requests starts from it.
-/

namespace Dialogue

/-- A value to be interpolated and the context for it. -/
abbrev Request (σ : Type) := Context σ × Value

/-- An interpolation that never answers one of the requests. -/
noncomputable def Interpolation.without {σ : Type} (self : Interpolation σ)
    (request : Request σ) : Interpolation σ := fun v =>
  Eval.make fun ctx =>
    open Classical in
    if (ctx, v) = request then (.error .exhausted, ctx) else (self v).on ctx

namespace Engine

variable {σ : Type} {e : Engine σ}

/-- Some bound on nesting is large enough for a request. -/
def Terminates (e : Engine σ) (request : Request σ) : Prop :=
  ∃ bound, ((e.interpolate bound request.2).on request.1).1 ≠ .error .exhausted

/-- The outcomes under bounds that are large enough; without such a bound there is none. -/
noncomputable def limit (e : Engine σ) : Interpolation σ := fun v =>
  Eval.make fun ctx =>
    open Classical in
    if h : e.Terminates (ctx, v) then (e.interpolate h.choose v).on ctx
    else (.error .exhausted, ctx)

/-- The limit, with a failure for requests that do not terminate. -/
noncomputable def answer (e : Engine σ) : Interpolation σ := fun v =>
  Eval.make fun ctx =>
    open Classical in
    if e.Terminates (ctx, v) then (e.limit v).on ctx
    else (.error (.failed (.foreign .evaluation "ENDLESS" "")), ctx)

/-- The first request asks for the second: without an answer to the second it has none
itself. -/
def Nests (e : Engine σ) (request nested : Request σ) : Prop :=
  ((e.interpolateWith (e.answer.without nested) request.2).on request.1).1 = .error .exhausted

end Engine

/-! ## Larger bounds -/

namespace Interpolation

variable {σ : Type}

theorem without_below (self : Interpolation σ) (request : Request σ) (v : Value) :
    (self.without request v).Below (self v) := by
  intro ctx
  by_cases h : (ctx, v) = request
  · left
    simp [without, h]
  · right
    simp [without, h]

theorem on_without_of_ne {self : Interpolation σ} {request : Request σ} {v : Value}
    {ctx : Context σ} (h : (ctx, v) ≠ request) :
    (self.without request v).on ctx = (self v).on ctx := by
  simp [without, h]

theorem on_without_self (self : Interpolation σ) (ctx : Context σ) (v : Value) :
    (self.without (ctx, v) v).on ctx = (.error .exhausted, ctx) := by
  simp [without]

end Interpolation

/-- Interpolations that give up more often make what is assembled from them give up more
often. -/
theorem Asking.below {σ : Type} {lower upper : Interpolation σ}
    (h : ∀ v, (lower v).Below (upper v)) (α : Type) (X : Interpolation σ → Eval σ α)
    (hX : Asking FunctionLibrary.readStorage α X) : (X lower).Below (X upper) := by
  cases hX with
  | step hX =>
      cases hX with
      | value v _ => exact h v
      | fail | queue | read => exact .refl _
  | ask => exact .refl _

namespace Engine

variable {σ : Type} {e : Engine σ}

theorem interpolateWith_below (builtIn : e.BuiltIn) {lower upper : Interpolation σ}
    (h : ∀ v, (lower v).Below (upper v)) (v : Value) :
    (e.interpolateWith lower v).Below (e.interpolateWith upper v) :=
  (interpolateWith_assembled builtIn.equipped v).monotone (Asking.below h)

theorem interpolate_below_succ (builtIn : e.BuiltIn) (bound : Nat) (v : Value) :
    (e.interpolate bound v).Below (e.interpolate (bound + 1) v) := by
  induction bound generalizing v with
  | zero => exact .exhausted _
  | succ bound ih => exact interpolateWith_below builtIn ih v

/-- A larger bound changes nothing but exhaustion. -/
theorem interpolate_below (builtIn : e.BuiltIn) {lower upper : Nat} (h : lower ≤ upper)
    (v : Value) : (e.interpolate lower v).Below (e.interpolate upper v) := by
  induction h with
  | refl => exact .refl _
  | step _ ih => exact ih.trans (interpolate_below_succ builtIn _ v)

/-- The outcome of a terminating request is the same under every bound that is large
enough for it. -/
theorem interpolate_below_limit (builtIn : e.BuiltIn) (bound : Nat) (v : Value) :
    (e.interpolate bound v).Below (e.limit v) := by
  intro ctx
  by_cases h : ((e.interpolate bound v).on ctx).1 = .error .exhausted
  · exact .inl h
  · right
    have hterminates : e.Terminates (ctx, v) := ⟨bound, h⟩
    have hchosen := hterminates.choose_spec
    simp only [limit, Eval.on_make, hterminates, dite_true]
    rcases Nat.le_total bound hterminates.choose with hle | hle
    · exact ((interpolate_below builtIn hle v).on_eq h).symm
    · exact (interpolate_below builtIn hle v).on_eq hchosen

theorem on_limit_of_not_terminates {ctx : Context σ} {v : Value}
    (h : ¬ e.Terminates (ctx, v)) : (e.limit v).on ctx = (.error .exhausted, ctx) := by
  simp [limit, h]

theorem limit_below_answer (v : Value) : (e.limit v).Below (e.answer v) := by
  intro ctx
  by_cases h : e.Terminates (ctx, v)
  · right
    simp [answer, h]
  · left
    rw [on_limit_of_not_terminates h]

/-- Where a request is exhausted, its answer is not used. -/
theorem interpolate_below_without (builtIn : e.BuiltIn) {bound : Nat} {request : Request σ}
    (hrequest : ((e.interpolate bound request.2).on request.1).1 = .error .exhausted) (v : Value) :
    (e.interpolate bound v).Below (e.answer.without request v) := by
  intro ctx
  by_cases h : (ctx, v) = request
  · subst h
    exact .inl hrequest
  · rw [Interpolation.on_without_of_ne h]
    exact ((interpolate_below_limit builtIn bound v).trans (limit_below_answer v)) ctx

/-! ## Termination and nesting -/

section

variable {α : Type} {X : Interpolation σ → Eval σ α}

theorem on_of_le (builtIn : e.BuiltIn)
    (hX : Assembled (Asking FunctionLibrary.readStorage) X) {ctx : Context σ}
    {lower upper : Nat} (hle : lower ≤ upper)
    (h : ((X (e.interpolate lower)).on ctx).1 ≠ .error .exhausted) :
    (X (e.interpolate upper)).on ctx = (X (e.interpolate lower)).on ctx :=
  (hX.monotone (Asking.below (interpolate_below builtIn hle))).on_eq h

/-- What is exhausted under large bounds is exhausted under every bound. -/
theorem exhausted_of_large (builtIn : e.BuiltIn)
    (hX : Assembled (Asking FunctionLibrary.readStorage) X) {ctx : Context σ}
    {enough : Nat}
    (h : ∀ bound, enough ≤ bound → ((X (e.interpolate bound)).on ctx).1 = .error .exhausted)
    (bound : Nat) : ((X (e.interpolate bound)).on ctx).1 = .error .exhausted := by
  refine Classical.byContradiction fun hbound => ?_
  have hle := Nat.le_max_right enough bound
  rw [← on_of_le builtIn hX hle hbound] at hbound
  exact hbound (h _ (Nat.le_max_left enough bound))

/-- Leaving out the answer to one request either exhausts an evaluation or changes
nothing. -/
theorem on_without (builtIn : e.BuiltIn)
    (hX : Assembled (Asking FunctionLibrary.readStorage) X) {ctx : Context σ}
    {bound : Nat} (h : ((X (e.interpolate bound)).on ctx).1 ≠ .error .exhausted)
    (request : Request σ) :
    ((X (e.answer.without request)).on ctx).1 = .error .exhausted ∨
      (X (e.answer.without request)).on ctx = (X (e.interpolate bound)).on ctx := by
  have hwithout := hX.monotone (Asking.below (e.answer.without_below request))
  have hanswer := hX.monotone (Asking.below fun v =>
    (interpolate_below_limit builtIn bound v).trans (limit_below_answer v))
  rw [← hanswer.on_eq h]
  exact hwithout ctx

/-- What is exhausted under every bound asks for a request that does not terminate. -/
theorem exists_asked_of_exhausted (builtIn : e.BuiltIn)
    (hX : Assembled (Asking FunctionLibrary.readStorage) X) (ctx : Context σ)
    (h : ∀ bound, ((X (e.interpolate bound)).on ctx).1 = .error .exhausted) :
    ∃ request, ¬ e.Terminates request ∧
      ((X (e.answer.without request)).on ctx).1 = .error .exhausted := by
  induction hX generalizing ctx with
  | atom hatom =>
      cases hatom with
      | ask => cases h 0
      | step hstep =>
          cases hstep with
          | value v _ =>
              refine ⟨(ctx, v), ?_, ?_⟩
              · rintro ⟨bound, hbound⟩
                exact hbound (h bound)
              · rw [Interpolation.on_without_self]
          | fail | queue => cases h 0
          | read params =>
              have hreads := FunctionLibrary.readStorage_reports _ params ctx _ (h 0)
              exact absurd rfl hreads.ne_exhausted
  | done a => cases h 0
  | @bind α β X F hX hF ihX ihF =>
      by_cases hfirst : ∀ bound, ((X (e.interpolate bound)).on ctx).1 = .error .exhausted
      · obtain ⟨request, hrequest, hasked⟩ := ihX ctx hfirst
        refine ⟨request, hrequest, ?_⟩
        rw [Eval.on_bind, hasked]
      · obtain ⟨enough, henough⟩ := Classical.not_forall.1 hfirst
        rcases hvalue : (X (e.interpolate enough)).on ctx with ⟨stop | a, after⟩
        · have hstop := h enough
          rw [Eval.on_bind_error hvalue, Except.error.injEq] at hstop
          exact absurd (by rw [hvalue, hstop]) henough
        · have hrest (bound : Nat) (hle : enough ≤ bound) :
              ((F a (e.interpolate bound)).on after).1 = .error .exhausted := by
            have hbound := h bound
            rwa [Eval.on_bind_ok ((on_of_le builtIn hX hle henough).trans hvalue)] at hbound
          obtain ⟨request, hrequest, hasked⟩ :=
            ihF a after (exhausted_of_large builtIn (hF a) hrest)
          refine ⟨request, hrequest, ?_⟩
          rcases on_without builtIn hX henough request with hwithout | hwithout
          · rw [Eval.on_bind, hwithout]
          · rw [Eval.on_bind_ok (hwithout.trans hvalue)]
            exact hasked
  | @recover α X K condition hX hK ihX ihK =>
      by_cases hfirst : ∀ bound, ((X (e.interpolate bound)).on ctx).1 = .error .exhausted
      · obtain ⟨request, hrequest, hasked⟩ := ihX ctx hfirst
        refine ⟨request, hrequest, ?_⟩
        rw [Eval.on_recover, hasked]
        exact hasked
      · obtain ⟨enough, henough⟩ := Classical.not_forall.1 hfirst
        obtain ⟨failure, after, hfailure, hcondition⟩ : ∃ failure after,
            (X (e.interpolate enough)).on ctx = (.error (.failed failure), after) ∧
              condition failure := by
          have hstop := h enough
          rw [Eval.on_recover] at hstop
          split at hstop
          · rename_i failure hfailed
            by_cases hcondition : condition failure
            · exact ⟨failure, _, Prod.ext hfailed rfl, hcondition⟩
            · rw [if_neg hcondition] at hstop
              exact absurd hstop henough
          · exact absurd hstop henough
        have hrest (bound : Nat) (hle : enough ≤ bound) :
            ((K failure (e.interpolate bound)).on after).1 = .error .exhausted := by
          have hbound := h bound
          rwa [Eval.on_recover_failed ((on_of_le builtIn hX hle henough).trans hfailure)
            hcondition] at hbound
        obtain ⟨request, hrequest, hasked⟩ :=
          ihK failure after (exhausted_of_large builtIn (hK failure) hrest)
        refine ⟨request, hrequest, ?_⟩
        rcases on_without builtIn hX henough request with hwithout | hwithout
        · rw [Eval.on_recover, hwithout]
          exact hwithout
        · rw [Eval.on_recover_failed (hwithout.trans hfailure) hcondition]
          exact hasked
  | locals locals _ ih => exact ih _ h
  | params params _ ih => exact ih _ h

/-- What does not come to an end under any bound does not in the limit. -/
theorem on_limit_exhausted (builtIn : e.BuiltIn)
    (hX : Assembled (Asking FunctionLibrary.readStorage) X) {ctx : Context σ}
    (h : ∀ bound, ((X (e.interpolate bound)).on ctx).1 = .error .exhausted) :
    ((X e.limit).on ctx).1 = .error .exhausted := by
  obtain ⟨request, hrequest, hasked⟩ := exists_asked_of_exhausted builtIn hX ctx h
  have hbelow (v : Value) : (e.limit v).Below (e.answer.without request v) := by
    intro inner
    by_cases heq : (inner, v) = request
    · left
      rw [on_limit_of_not_terminates (heq ▸ hrequest)]
    · rw [Interpolation.on_without_of_ne heq]
      exact limit_below_answer v inner
  refine Classical.byContradiction fun hlimit => ?_
  rw [(hX.monotone (Asking.below hbelow)).on_eq hlimit] at hasked
  exact hlimit hasked

/-- What something comes to under some bound is what it comes to in the limit. -/
theorem exists_bound_iff (builtIn : e.BuiltIn)
    (hX : Assembled (Asking FunctionLibrary.readStorage) X) {ctx : Context σ}
    {result : Except Stop α × Context σ} (hresult : result.1 ≠ .error .exhausted) :
    (∃ bound, (X (e.interpolate bound)).on ctx = result) ↔ (X e.limit).on ctx = result := by
  have hbelow (bound : Nat) :=
    hX.monotone (Asking.below (interpolate_below_limit builtIn bound))
  constructor
  · rintro ⟨bound, rfl⟩
    exact (hbelow bound).on_eq hresult
  · rintro rfl
    refine Classical.byContradiction fun hnone => ?_
    refine hresult (on_limit_exhausted builtIn hX fun bound => ?_)
    refine Classical.byContradiction fun hbound => ?_
    exact hnone ⟨bound, ((hbelow bound).on_eq hbound).symm⟩

end

/-- What a value comes to under some bound is what it comes to in the limit. -/
theorem exists_interpolate_iff (builtIn : e.BuiltIn) {v : Value} {ctx : Context σ}
    {result : Except Stop Value × Context σ} (hresult : result.1 ≠ .error .exhausted) :
    (∃ bound, (e.interpolate bound v).on ctx = result) ↔
      (e.interpolateWith e.limit v).on ctx = result := by
  rw [← exists_bound_iff builtIn (interpolateWith_assembled builtIn.equipped v) hresult]
  constructor
  · rintro ⟨bound, rfl⟩
    cases bound with
    | zero => exact absurd rfl hresult
    | succ bound => exact ⟨bound, rfl⟩
  · rintro ⟨bound, rfl⟩
    exact ⟨bound + 1, rfl⟩

/-- Within the limit, values are interpolated like anywhere else. -/
theorem on_limit_eq_iff (builtIn : e.BuiltIn) {v : Value} {ctx : Context σ}
    {result : Except Stop Value × Context σ} (hresult : result.1 ≠ .error .exhausted) :
    (e.limit v).on ctx = result ↔ (e.interpolateWith e.limit v).on ctx = result := by
  rw [← exists_interpolate_iff builtIn hresult]
  constructor
  · rintro rfl
    have hterminates : e.Terminates (ctx, v) := by
      refine Classical.byContradiction fun h => hresult ?_
      rw [on_limit_of_not_terminates h]
    exact ⟨hterminates.choose, by simp [limit, hterminates]⟩
  · rintro ⟨bound, rfl⟩
    exact (interpolate_below_limit builtIn bound v).on_eq hresult

/-- What a descriptor comes to under some bound is what it comes to in the limit. -/
theorem exists_evaluate_iff (builtIn : e.BuiltIn) {fields : Fields} {ctx : Context σ}
    {result : Except Stop Value × Context σ} (hresult : result.1 ≠ .error .exhausted) :
    (∃ bound, (e.evaluate bound (.object fields)).on ctx = result) ↔
      (e.evaluateFieldsWith e.limit fields).on ctx = result := by
  rcases evaluateFieldsWith_assembled builtIn.equipped fields (.inl rfl) (Value.within_none _)
    fun _ _ => Value.within_none _ with h | ⟨name, -, -, h⟩
  · exact exists_bound_iff builtIn (h.mono fun _ _ => .step) hresult
  · have hevaluate (bound : Nat) : e.evaluate bound (.object fields) = _ :=
      h (e.interpolate bound)
    simp only [hevaluate, h e.limit, exists_const]

theorem limit_stopsOnly (builtIn : e.BuiltIn) (v : Value) :
    (e.limit v).StopsOnly Stop.Usual := by
  intro ctx stop hstop
  by_cases h : e.Terminates (ctx, v)
  · simp only [limit, Eval.on_make, h, dite_true] at hstop
    exact interpolate_stopsOnly builtIn _ v ctx stop hstop
  · rw [on_limit_of_not_terminates h] at hstop
    exact .inl (Except.error.inj hstop).symm

theorem limit_advances (builtIn : e.BuiltIn) (v : Value) :
    (e.limit v).Keeps Context.Advances := by
  intro ctx
  by_cases h : e.Terminates (ctx, v)
  · simp only [limit, Eval.on_make, h, dite_true]
    exact interpolate_advances builtIn _ v ctx
  · rw [on_limit_of_not_terminates h]
    exact .refl ctx

/-- A request that does not terminate asks for another one that does not. -/
theorem exists_nested_of_not_terminates (builtIn : e.BuiltIn) {request : Request σ}
    (h : ¬ e.Terminates request) :
    ∃ nested, e.Nests request nested ∧ ¬ e.Terminates nested := by
  have hexhausted (bound : Nat) :
      ((e.interpolateWith (e.interpolate bound) request.2).on request.1).1 =
        .error .exhausted := by
    refine Classical.byContradiction fun hbound => ?_
    exact h ⟨bound + 1, hbound⟩
  obtain ⟨nested, hnested, hasked⟩ := exists_asked_of_exhausted builtIn
    (interpolateWith_assembled builtIn.equipped request.2) request.1 hexhausted
  exact ⟨nested, hasked, hnested⟩

/-- A bound that is large enough for a request leaves one that is large enough for all
requests that are nested in it. -/
theorem not_exhausted_of_nests (builtIn : e.BuiltIn) {bound : Nat} {request nested : Request σ}
    (hrequest : ((e.interpolate (bound + 1) request.2).on request.1).1 ≠ .error .exhausted)
    (hnests : e.Nests request nested) :
    ((e.interpolate bound nested.2).on nested.1).1 ≠ .error .exhausted := by
  intro hnested
  have hbelow := interpolateWith_below builtIn (interpolate_below_without builtIn hnested) request.2
  rw [Nests, hbelow.on_eq hrequest] at hnests
  exact hrequest hnests

/-- No bound is large enough for the start of an infinite chain. -/
theorem exhausted_of_chain (builtIn : e.BuiltIn) {chain : Nat → Request σ}
    (hchain : ∀ n, e.Nests (chain n) (chain (n + 1))) (bound n : Nat) :
    ((e.interpolate bound (chain n).2).on (chain n).1).1 = .error .exhausted := by
  -- Each link of the chain uses up one level of nesting.
  induction bound generalizing n with
  | zero => rfl
  | succ bound ih =>
      refine Classical.byContradiction fun hlarge => ?_
      exact not_exhausted_of_nests builtIn hlarge (hchain n) (ih (n + 1))

/-- From a request that does not terminate one can go on for ever. -/
theorem exists_chain_of_not_terminates (builtIn : e.BuiltIn) {request : Request σ}
    (h : ¬ e.Terminates request) :
    ∃ chain : Nat → Request σ, chain 0 = request ∧ ∀ n, e.Nests (chain n) (chain (n + 1)) := by
  have hnext (last : { request // ¬ e.Terminates request }) :
      ∃ nested : { request // ¬ e.Terminates request }, e.Nests last.1 nested.1 := by
    obtain ⟨nested, hnests, hnested⟩ := exists_nested_of_not_terminates builtIn last.2
    exact ⟨⟨nested, hnested⟩, hnests⟩
  let chain (n : Nat) : { request // ¬ e.Terminates request } :=
    n.rec ⟨request, h⟩ fun _ last => (hnext last).choose
  exact ⟨fun n => (chain n).1, rfl, fun n => (hnext (chain n)).choose_spec⟩

/-- A request terminates if and only if no infinite chain of nested requests starts from
it. -/
theorem terminates_iff_no_chain (builtIn : e.BuiltIn) (request : Request σ) :
    e.Terminates request ↔ ¬ ∃ chain : Nat → Request σ, chain 0 = request ∧
      ∀ n, e.Nests (chain n) (chain (n + 1)) := by
  constructor
  · rintro ⟨bound, hbound⟩ ⟨chain, rfl, hchain⟩
    exact hbound (exhausted_of_chain builtIn hchain bound 0)
  · intro hnone
    refine Classical.byContradiction fun h => ?_
    exact hnone (exists_chain_of_not_terminates builtIn h)

end Engine
end Dialogue
