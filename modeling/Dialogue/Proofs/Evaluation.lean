import Mathlib
import Dialogue.Engine.Dispatch

/-!
# Laws of evaluations

An evaluation is known by what it does to every context.  The laws of this module say
what each way of building an evaluation does, so that later modules never open the
monad.
-/

namespace Dialogue
namespace Eval

variable {σ α β : Type}

/-- Evaluations that do the same to every context are the same. -/
theorem ext {x y : Eval σ α} (h : ∀ ctx, x.on ctx = y.on ctx) : x = y :=
  funext h

@[simp] theorem on_make (f : Context σ → Except Stop α × Context σ) (ctx : Context σ) :
    (make f).on ctx = f ctx := rfl

@[simp] theorem on_pure (a : α) (ctx : Context σ) :
    (pure a : Eval σ α).on ctx = (.ok a, ctx) := rfl

@[simp] theorem on_fail (failure : Failure) (ctx : Context σ) :
    (fail failure : Eval σ α).on ctx = (.error (.failed failure), ctx) := rfl

@[simp] theorem on_throw (stop : Stop) (ctx : Context σ) :
    (throw stop : Eval σ α).on ctx = (.error stop, ctx) := rfl

@[simp] theorem on_exhausted (ctx : Context σ) :
    (exhausted : Eval σ α).on ctx = (.error .exhausted, ctx) := rfl

@[simp] theorem on_ask (f : Context σ → α) (ctx : Context σ) :
    (ask f).on ctx = (.ok (f ctx), ctx) := rfl

@[simp] theorem on_update (f : Context σ → Context σ) (ctx : Context σ) :
    (update f).on ctx = (.ok (), f ctx) := rfl

@[simp] theorem on_change (f : Context σ → α × Context σ) (ctx : Context σ) :
    (change f).on ctx = (.ok (f ctx).1, (f ctx).2) := rfl

@[simp] theorem on_changeSession (f : Session → α × Session) (ctx : Context σ) :
    (changeSession f : Eval σ α).on ctx =
      (.ok (f ctx.session).1, { ctx with session := (f ctx.session).2 }) := rfl

@[simp] theorem on_updateSession (f : Session → Session) (ctx : Context σ) :
    (updateSession f : Eval σ Unit).on ctx =
      (.ok (), { ctx with session := f ctx.session }) := rfl

@[simp] theorem on_takeEffects (ctx : Context σ) :
    (takeEffects : Eval σ (List Value)).on ctx = (.ok ctx.effects, { ctx with effects := [] }) :=
  rfl

@[simp] theorem on_queueEffect (effect : Value) (ctx : Context σ) :
    (queueEffect effect : Eval σ Unit).on ctx =
      (.ok (), { ctx with effects := ctx.effects ++ [effect] }) := rfl

@[simp] theorem on_thenAlways (x : Eval σ α) (k : Except Stop α → Eval σ β) (ctx : Context σ) :
    (x.thenAlways k).on ctx = (k (x.on ctx).1).on (x.on ctx).2 := rfl

@[simp] theorem on_within (enter : Context σ → Context σ)
    (leave : Context σ → Context σ → Context σ) (x : Eval σ α) (ctx : Context σ) :
    (within enter leave x).on ctx = ((x.on (enter ctx)).1, leave ctx (x.on (enter ctx)).2) := rfl

/-- A sequence continues after a value and stops with a stop. -/
theorem on_bind (x : Eval σ α) (f : α → Eval σ β) (ctx : Context σ) :
    (x >>= f).on ctx =
      match (x.on ctx).1 with
      | .ok a => (f a).on (x.on ctx).2
      | .error stop => (.error stop, (x.on ctx).2) := by
  change (ExceptT.bindCont f (x.on ctx).1).run (x.on ctx).2 = _
  cases (x.on ctx).1 <;> rfl

theorem on_bind_ok {x : Eval σ α} {f : α → Eval σ β} {ctx after : Context σ} {a : α}
    (h : x.on ctx = (.ok a, after)) : (x >>= f).on ctx = (f a).on after := by
  rw [on_bind, h]

theorem on_bind_error {x : Eval σ α} {f : α → Eval σ β} {ctx after : Context σ} {stop : Stop}
    (h : x.on ctx = (.error stop, after)) : (x >>= f).on ctx = (.error stop, after) := by
  rw [on_bind, h]

/-- A sequence that has a value had a value on the way. -/
theorem exists_of_on_bind {x : Eval σ α} {f : α → Eval σ β} {ctx after : Context σ} {b : β}
    (h : (x >>= f).on ctx = (.ok b, after)) :
    ∃ a between, x.on ctx = (.ok a, between) ∧ (f a).on between = (.ok b, after) := by
  rw [on_bind] at h
  split at h
  · rename_i a ha
    exact ⟨a, (x.on ctx).2, Prod.ext ha rfl, h⟩
  · cases h

theorem eq_ok_of_toOption {outcome : Except Stop α} {a : α} (h : outcome.toOption = some a) :
    outcome = .ok a := by
  cases outcome with
  | error => cases h
  | ok found => exact congrArg Except.ok (Option.some.inj h)

/-- Computing further with the value changes nothing else. -/
theorem snd_on_map (x : Eval σ α) (f : α → β) (ctx : Context σ) :
    ((x >>= fun a => pure (f a)).on ctx).2 = (x.on ctx).2 := by
  rw [on_bind]
  cases (x.on ctx).1 <;> rfl

/-- Computing further with the value does not stop. -/
theorem on_of_on_map_error {x : Eval σ α} {f : α → β} {ctx after : Context σ} {stop : Stop}
    (h : (x >>= fun a => pure (f a)).on ctx = (.error stop, after)) :
    x.on ctx = (.error stop, after) := by
  rw [on_bind] at h
  split at h
  · cases h
  · rename_i found hfound
    obtain ⟨⟨⟩, rfl⟩ := Prod.ext_iff.1 h
    exact Prod.ext hfound rfl

/-- What is computed with the value can be computed outside as well. -/
theorem within_map (enter : Context σ → Context σ) (leave : Context σ → Context σ → Context σ)
    (x : Eval σ α) (f : α → β) :
    within enter leave (x >>= fun a => pure (f a)) =
      within enter leave x >>= fun a => pure (f a) := by
  refine ext fun ctx => ?_
  rw [on_bind, on_within, on_within, on_bind]
  cases (x.on (enter ctx)).1 <;> rfl

theorem withLocals_map (locals : Fields) (x : Eval σ α) (f : α → β) :
    withLocals locals (x >>= fun a => pure (f a)) =
      withLocals locals x >>= fun a => pure (f a) := by
  unfold withLocals inScope
  exact within_map _ _ x f

theorem withParams_map (params : Fields) (x : Eval σ α) (f : α → β) :
    withParams params (x >>= fun a => pure (f a)) =
      withParams params x >>= fun a => pure (f a) := by
  unfold withParams
  exact within_map _ _ x f

theorem mapM_congr {f g : β → Eval σ α} {items : List β} (h : ∀ b ∈ items, f b = g b) :
    items.mapM f = items.mapM g := by
  induction items with
  | nil => rfl
  | cons b rest ih =>
      rw [List.mapM_cons, List.mapM_cons, h b List.mem_cons_self,
        ih fun other hother => h other (List.mem_cons_of_mem b hother)]

@[simp] theorem on_ofExcept_ok (a : α) (ctx : Context σ) :
    (ofExcept (.ok a) : Eval σ α).on ctx = (.ok a, ctx) := rfl

@[simp] theorem on_ofExcept_error (failure : Failure) (ctx : Context σ) :
    (ofExcept (.error failure) : Eval σ α).on ctx = (.error (.failed failure), ctx) := rfl

@[simp] theorem on_ofOutcome (outcome : Except Stop α) (ctx : Context σ) :
    (ofOutcome outcome : Eval σ α).on ctx = (outcome, ctx) := by
  cases outcome <;> rfl

/-- Recovering changes nothing unless a failure satisfies the condition. -/
theorem on_recover (x : Eval σ α) (condition : Failure → Bool) (k : Failure → Eval σ α)
    (ctx : Context σ) :
    (x.recover condition k).on ctx =
      match (x.on ctx).1 with
      | .error (.failed failure) =>
        if condition failure then (k failure).on (x.on ctx).2 else x.on ctx
      | _ => x.on ctx := by
  rcases hx : x.on ctx with ⟨_ | _, after⟩
  · rename_i stop
    cases stop with
    | failed failure =>
      by_cases hcondition : condition failure <;> simp [recover, hx, hcondition]
    | exhausted => simp [recover, hx]
  · simp [recover, hx]

/-- Recovering by doing nothing keeps the changes that were made. -/
theorem snd_on_recover (x : Eval σ Unit) (condition : Failure → Bool) (ctx : Context σ) :
    ((x.recover condition fun _ => pure ()).on ctx).2 = (x.on ctx).2 := by
  rw [on_recover]
  split
  · split <;> rfl
  · rfl

theorem on_recover_failed {x : Eval σ α} {condition : Failure → Bool} {k : Failure → Eval σ α}
    {ctx after : Context σ} {failure : Failure}
    (h : x.on ctx = (.error (.failed failure), after)) (hcondition : condition failure) :
    (x.recover condition k).on ctx = (k failure).on after := by
  rw [on_recover, h]
  simp only [hcondition, if_true]

@[simp] theorem on_withLocals (locals : Fields) (x : Eval σ α) (ctx : Context σ) :
    (withLocals locals x).on ctx =
      let inner := x.on { ctx with scope := ctx.scope.push locals }
      (inner.1, { inner.2 with scope := inner.2.scope.restore ctx.scope.depth }) := rfl

@[simp] theorem on_withAction (fields : Fields) (x : Eval σ α) (ctx : Context σ) :
    (withAction fields x).on ctx =
      let inner := x.on { ctx with scope := ctx.scope.pushAction fields }
      (inner.1, { inner.2 with scope := inner.2.scope.restore ctx.scope.depth }) := rfl

@[simp] theorem on_withParams (params : Fields) (x : Eval σ α) (ctx : Context σ) :
    (withParams params x).on ctx =
      let inner := x.on { ctx with params }
      (inner.1, { inner.2 with params := ctx.params }) := rfl

end Eval
end Dialogue
