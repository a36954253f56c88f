import Dialogue.Proofs.Evaluation

/-!
# Assembled evaluations

Functions and actions do not see the engine.  They are handed helpers (the interpolation
of values, or a director) and put an evaluation together from them.  `Assembled` says how
such an evaluation is put together: from atoms, in sequence, with recoveries, and inside
extra frames or other parameters.  What holds of the atoms and survives these ways of
putting things together holds of every assembled evaluation:

* `Assembled.keeps`: a relation between the contexts before and after,
* `Assembled.stopsOnly`: a property of all stops,
* `Assembled.follows`: a relation between the contexts of two runs with different helpers,
* `Assembled.monotone`: that helpers which give up more often change nothing else.

`Composed` evaluations are assembled without recoveries.
-/

namespace Dialogue

/-- Evaluations, as functions of their helpers, that are put together from atoms. -/
inductive Assembled {σ H : Type} (atom : ∀ α : Type, (H → Eval σ α) → Prop) :
    ∀ {α : Type}, (H → Eval σ α) → Prop
  | atom {α : Type} {X : H → Eval σ α} (h : atom α X) : Assembled atom X
  | done {α : Type} (a : α) : Assembled atom fun _ => pure a
  | bind {α β : Type} {X : H → Eval σ α} {F : α → H → Eval σ β}
      (hX : Assembled atom X) (hF : ∀ a, Assembled atom (F a)) :
      Assembled atom fun helper => X helper >>= fun a => F a helper
  | recover {α : Type} {X : H → Eval σ α} {K : Failure → H → Eval σ α}
      (condition : Failure → Bool) (hX : Assembled atom X)
      (hK : ∀ failure, Assembled atom (K failure)) :
      Assembled atom fun helper => (X helper).recover condition fun failure => K failure helper
  | locals {α : Type} {X : H → Eval σ α} (locals : Fields) (hX : Assembled atom X) :
      Assembled atom fun helper => Eval.withLocals locals (X helper)
  | params {α : Type} {X : H → Eval σ α} (params : Fields) (hX : Assembled atom X) :
      Assembled atom fun helper => Eval.withParams params (X helper)

namespace Assembled

variable {σ H α β : Type} {atom : ∀ α : Type, (H → Eval σ α) → Prop}

theorem ite (c : Prop) [Decidable c] {X Y : H → Eval σ α} (hX : Assembled atom X)
    (hY : Assembled atom Y) : Assembled atom fun helper => if c then X helper else Y helper := by
  by_cases hc : c
  · simpa only [if_pos hc] using hX
  · simpa only [if_neg hc] using hY

theorem mapM (items : List β) {F : β → H → Eval σ α} (hF : ∀ b ∈ items, Assembled atom (F b)) :
    Assembled atom fun helper => items.mapM fun b => F b helper := by
  induction items with
  | nil => simpa only [List.mapM_nil] using Assembled.done []
  | cons b rest ih =>
      simp only [List.mapM_cons]
      refine .bind (hF b List.mem_cons_self) fun a => ?_
      refine .bind (ih fun c hc => hF c (List.mem_cons_of_mem b hc)) fun as => ?_
      exact .done (a :: as)

/-- Assembly only asks that atoms are among given ones, so more atoms do no harm. -/
theorem mono {other : ∀ α : Type, (H → Eval σ α) → Prop}
    (h : ∀ (α : Type) (X : H → Eval σ α), atom α X → other α X) {X : H → Eval σ α}
    (hX : Assembled atom X) : Assembled other X := by
  induction hX with
  | atom hatom => exact .atom (h _ _ hatom)
  | done a => exact .done a
  | bind _ _ ihX ihF => exact .bind ihX ihF
  | recover condition _ _ ihX ihK => exact .recover condition ihX ihK
  | locals locals _ ih => exact .locals locals ih
  | params params _ ih => exact .params params ih

end Assembled

/-! ## What an evaluation does to its context -/

/-- Relations between a context and a later one that survive sequences, extra frames, the
frames of actions, and other parameters. -/
structure Framing {σ : Type} (R : Context σ → Context σ → Prop) : Prop where
  refl : ∀ ctx, R ctx ctx
  trans : ∀ {before between after}, R before between → R between after → R before after
  locals : ∀ {ctx after} (locals : Fields), R { ctx with scope := ctx.scope.push locals } after →
    R ctx { after with scope := after.scope.restore ctx.scope.depth }
  action : ∀ {ctx after} (fields : Fields),
    R { ctx with scope := ctx.scope.pushAction fields } after →
    R ctx { after with scope := after.scope.restore ctx.scope.depth }
  params : ∀ {ctx after} (params : Fields), R { ctx with params } after →
    R ctx { after with params := ctx.params }

/-- Whatever the outcome, the context afterwards is related to the one before. -/
def Eval.Keeps {σ α : Type} (R : Context σ → Context σ → Prop) (x : Eval σ α) : Prop :=
  ∀ ctx, R ctx (x.on ctx).2

namespace Eval.Keeps

variable {σ α β : Type} {R : Context σ → Context σ → Prop}

theorem bind (framing : Framing R) {x : Eval σ α} {f : α → Eval σ β} (hx : x.Keeps R)
    (hf : ∀ a, (f a).Keeps R) : (x >>= f).Keeps R := by
  intro ctx
  rw [on_bind]
  cases (x.on ctx).1 with
  | ok a => exact framing.trans (hx ctx) (hf a _)
  | error stop => exact hx ctx

theorem thenAlways (framing : Framing R) {x : Eval σ α} {k : Except Stop α → Eval σ β}
    (hx : x.Keeps R) (hk : ∀ outcome, (k outcome).Keeps R) : (x.thenAlways k).Keeps R :=
  fun ctx => framing.trans (hx ctx) (hk _ _)

theorem recover (framing : Framing R) {x : Eval σ α} {k : Failure → Eval σ α}
    (condition : Failure → Bool) (hx : x.Keeps R) (hk : ∀ failure, (k failure).Keeps R) :
    (x.recover condition k).Keeps R := by
  refine thenAlways framing hx fun outcome => ?_
  match outcome with
  | .ok a => exact framing.refl
  | .error (.failed failure) =>
      change (if condition failure then k failure else fail failure).Keeps R
      split
      · exact hk failure
      · exact framing.refl
  | .error .exhausted => exact framing.refl

theorem withLocals (framing : Framing R) {x : Eval σ α} (locals : Fields) (hx : x.Keeps R) :
    (withLocals locals x).Keeps R :=
  fun _ => framing.locals locals (hx _)

theorem withAction (framing : Framing R) {x : Eval σ α} (fields : Fields) (hx : x.Keeps R) :
    (withAction fields x).Keeps R :=
  fun _ => framing.action fields (hx _)

theorem withParams (framing : Framing R) {x : Eval σ α} (params : Fields) (hx : x.Keeps R) :
    (withParams params x).Keeps R :=
  fun _ => framing.params params (hx _)

theorem forM (framing : Framing R) {f : β → Eval σ PUnit} (items : List β)
    (hf : ∀ b, (f b).Keeps R) : (items.forM f).Keeps R := by
  induction items with
  | nil => exact framing.refl
  | cons b rest ih => exact bind framing (hf b) fun _ => ih

end Eval.Keeps

/-- Assembled evaluations keep what their atoms keep. -/
theorem Assembled.keeps {σ H α : Type} {atom : ∀ α : Type, (H → Eval σ α) → Prop}
    {R : Context σ → Context σ → Prop} (framing : Framing R) (helper : H)
    (hatom : ∀ (α : Type) (X : H → Eval σ α), atom α X → (X helper).Keeps R)
    {X : H → Eval σ α} (hX : Assembled atom X) : (X helper).Keeps R := by
  induction hX with
  | atom h => exact hatom _ _ h
  | done a => exact framing.refl
  | bind _ _ ihX ihF => exact .bind framing ihX ihF
  | recover condition _ _ ihX ihK => exact .recover framing condition ihX ihK
  | locals locals _ ih => exact .withLocals framing locals ih
  | params params _ ih => exact .withParams framing params ih

/-! ## How an evaluation stops -/

/-- Every stop of the evaluation has a property. -/
def Eval.StopsOnly {σ α : Type} (P : Stop → Prop) (x : Eval σ α) : Prop :=
  ∀ ctx stop, (x.on ctx).1 = .error stop → P stop

namespace Eval.StopsOnly

variable {σ α β : Type} {P Q : Stop → Prop}

theorem mono {x : Eval σ α} (hx : x.StopsOnly P) (h : ∀ {stop}, P stop → Q stop) :
    x.StopsOnly Q :=
  fun ctx stop hstop => h (hx ctx stop hstop)

theorem pure (a : α) : (Pure.pure a : Eval σ α).StopsOnly P := by
  intro ctx stop hstop
  cases hstop

theorem bind {x : Eval σ α} {f : α → Eval σ β} (hx : x.StopsOnly P)
    (hf : ∀ a, (f a).StopsOnly P) : (x >>= f).StopsOnly P := by
  intro ctx stop h
  rw [on_bind] at h
  split at h
  · exact hf _ _ _ h
  · rename_i earlier hearlier
    simp only [Except.error.injEq] at h
    exact hx ctx stop (h ▸ hearlier)

theorem forM {f : β → Eval σ PUnit} (items : List β) (hf : ∀ b, (f b).StopsOnly P) :
    (items.forM f).StopsOnly P := by
  induction items with
  | nil => exact pure _
  | cons b rest ih => exact bind (hf b) fun _ => ih

theorem mapM {f : β → Eval σ α} (items : List β) (hf : ∀ b, (f b).StopsOnly P) :
    (items.mapM f).StopsOnly P := by
  induction items with
  | nil => exact pure []
  | cons b rest ih =>
      rw [List.mapM_cons]
      exact bind (hf b) fun a => bind ih fun as => pure (a :: as)

theorem thenAlways {x : Eval σ α} {k : Except Stop α → Eval σ β} (hx : x.StopsOnly P)
    (hk : ∀ outcome, (∀ stop, outcome = .error stop → P stop) → (k outcome).StopsOnly P) :
    (x.thenAlways k).StopsOnly P :=
  fun ctx stop hstop => hk _ (hx ctx) _ stop hstop

/-- Failures that satisfy the condition of a recovery do not come out of it. -/
theorem recover_of_condition {x : Eval σ α} {k : Failure → Eval σ α}
    {condition : Failure → Bool}
    (hx : x.StopsOnly fun stop => P stop ∨ ∃ failure, stop = .failed failure ∧ condition failure)
    (hk : ∀ failure, (k failure).StopsOnly P) : (x.recover condition k).StopsOnly P := by
  intro ctx stop hstop
  rw [on_recover] at hstop
  split at hstop
  · rename_i failure hfailure
    split at hstop
    · exact hk failure _ stop hstop
    · rename_i hcondition
      rcases hx ctx stop hstop with h | ⟨other, rfl, hother⟩
      · exact h
      · have hsame : failure = other :=
          Stop.failed.inj (Except.error.inj (hfailure.symm.trans hstop))
        exact absurd (hsame ▸ hother) hcondition
  · rename_i hother
    rcases hx ctx stop hstop with h | ⟨failure, rfl, -⟩
    · exact h
    · exact absurd hstop (hother failure)

theorem recover {x : Eval σ α} {k : Failure → Eval σ α} (condition : Failure → Bool)
    (hx : x.StopsOnly P) (hk : ∀ failure, (k failure).StopsOnly P) :
    (x.recover condition k).StopsOnly P :=
  recover_of_condition (hx.mono .inl) hk

end Eval.StopsOnly

/-- Assembled evaluations stop only as their atoms stop. -/
theorem Assembled.stopsOnly {σ H α : Type} {atom : ∀ α : Type, (H → Eval σ α) → Prop}
    {P : Stop → Prop} (helper : H)
    (hatom : ∀ (α : Type) (X : H → Eval σ α), atom α X → (X helper).StopsOnly P)
    {X : H → Eval σ α} (hX : Assembled atom X) : (X helper).StopsOnly P := by
  induction hX with
  | atom h => exact hatom _ _ h
  | done a => exact .pure a
  | bind _ _ ihX ihF => exact .bind ihX ihF
  | recover condition _ _ ihX ihK => exact .recover condition ihX ihK
  | locals locals _ ih => exact fun ctx stop h => ih _ stop h
  | params params _ ih => exact fun ctx stop h => ih _ stop h

/-! ## Runs side by side -/

/-- Relations between the contexts of two runs side by side that survive frames and other
parameters on both sides. -/
structure Twinning {σ : Type} (R : Context σ → Context σ → Prop) : Prop where
  enter : ∀ {c d} (frame : Frame), R c d →
    R { c with scope := c.scope.enter frame } { d with scope := d.scope.enter frame }
  leave : ∀ {c d c' d'}, R c d → R c' d' →
    R { c' with scope := c'.scope.restore c.scope.depth }
      { d' with scope := d'.scope.restore d.scope.depth }
  params : ∀ {c d} (params : Fields), R c d → R { c with params } { d with params }
  back : ∀ {c d c' d'}, R c d → R c' d' →
    R { c' with params := c.params } { d' with params := d.params }

theorem twinning_eq {σ : Type} : Twinning (Eq : Context σ → Context σ → Prop) where
  enter := by
    rintro c _ frame rfl
    rfl
  leave := by
    rintro c _ c' _ rfl rfl
    rfl
  params := by
    rintro c _ params rfl
    rfl
  back := by
    rintro c _ c' _ rfl rfl
    rfl

/-- From related contexts, the first evaluation gives up, or both have the same outcome and
end in related contexts. -/
def Eval.Follows {σ α : Type} (givesUp : Stop → Prop) (R : Context σ → Context σ → Prop)
    (x y : Eval σ α) : Prop :=
  ∀ c d, R c d → (∃ stop, (x.on c).1 = .error stop ∧ givesUp stop) ∨
    (x.on c).1 = (y.on d).1 ∧ R (x.on c).2 (y.on d).2

namespace Eval.Follows

variable {σ α β : Type} {givesUp : Stop → Prop} {R : Context σ → Context σ → Prop}

theorem pure (a : α) : (Pure.pure a : Eval σ α).Follows givesUp R (Pure.pure a) :=
  fun _ _ h => .inr ⟨rfl, h⟩

theorem fail (failure : Failure) :
    (Eval.fail failure : Eval σ α).Follows givesUp R (Eval.fail failure) :=
  fun _ _ h => .inr ⟨rfl, h⟩

theorem refl_of_eq (x : Eval σ α) : x.Follows givesUp Eq x := by
  rintro c _ rfl
  exact .inr ⟨rfl, rfl⟩

theorem bind {x y : Eval σ α} {f g : α → Eval σ β} (hxy : x.Follows givesUp R y)
    (hfg : ∀ a, (f a).Follows givesUp R (g a)) : (x >>= f).Follows givesUp R (y >>= g) := by
  intro c d h
  rw [on_bind, on_bind]
  rcases hxy c d h with ⟨stop, hstop, hgives⟩ | ⟨houtcome, hafter⟩
  · rw [hstop]
    exact .inl ⟨stop, rfl, hgives⟩
  · rw [← houtcome]
    cases (x.on c).1 with
    | ok a => exact hfg a _ _ hafter
    | error stop => exact .inr ⟨rfl, hafter⟩

theorem forM {f g : β → Eval σ PUnit} (items : List β)
    (hfg : ∀ b, (f b).Follows givesUp R (g b)) :
    (items.forM f).Follows givesUp R (items.forM g) := by
  induction items with
  | nil => exact pure _
  | cons b rest ih => exact bind (hfg b) fun _ => ih

theorem mapM {f g : β → Eval σ α} (items : List β) (hfg : ∀ b, (f b).Follows givesUp R (g b)) :
    (items.mapM f).Follows givesUp R (items.mapM g) := by
  induction items with
  | nil => exact pure []
  | cons b rest ih =>
      simp only [List.mapM_cons]
      exact bind (hfg b) fun a => bind ih fun as => pure (a :: as)

/-- A recovery does not get in the way if it lets everything pass with which the first
evaluation gives up. -/
theorem recover {x y : Eval σ α} {f g : Failure → Eval σ α} {condition : Failure → Bool}
    (hcondition : ∀ failure, givesUp (.failed failure) → condition failure = false)
    (hxy : x.Follows givesUp R y) (hfg : ∀ failure, (f failure).Follows givesUp R (g failure)) :
    (x.recover condition f).Follows givesUp R (y.recover condition g) := by
  intro c d h
  rw [on_recover, on_recover]
  rcases hxy c d h with ⟨stop, hstop, hgives⟩ | ⟨houtcome, hafter⟩
  · left
    refine ⟨stop, ?_, hgives⟩
    cases stop with
    | failed failure => simp [hstop, hcondition failure hgives]
    | exhausted => simp [hstop]
  · rw [← houtcome]
    split
    · split
      · exact hfg _ _ _ hafter
      · exact .inr ⟨houtcome, hafter⟩
    · exact .inr ⟨houtcome, hafter⟩

theorem within_frame (twinning : Twinning R) {x y : Eval σ α} (frame : Frame)
    (hxy : x.Follows givesUp R y) :
    (inScope (fun scope => scope.enter frame) x).Follows givesUp R
      (inScope (fun scope => scope.enter frame) y) := by
  intro c d h
  rcases hxy _ _ (twinning.enter frame h) with hgives | ⟨houtcome, hafter⟩
  · exact .inl hgives
  · exact .inr ⟨houtcome, twinning.leave h hafter⟩

theorem withLocals (twinning : Twinning R) {x y : Eval σ α} (locals : Fields)
    (hxy : x.Follows givesUp R y) :
    (withLocals locals x).Follows givesUp R (withLocals locals y) :=
  within_frame twinning { bindings := locals } hxy

theorem withAction (twinning : Twinning R) {x y : Eval σ α} (fields : Fields)
    (hxy : x.Follows givesUp R y) :
    (withAction fields x).Follows givesUp R (withAction fields y) :=
  within_frame twinning { bindings := fields, isAction := true } hxy

theorem withParams (twinning : Twinning R) {x y : Eval σ α} (params : Fields)
    (hxy : x.Follows givesUp R y) :
    (withParams params x).Follows givesUp R (withParams params y) := by
  intro c d h
  rcases hxy _ _ (twinning.params params h) with hgives | ⟨houtcome, hafter⟩
  · exact .inl hgives
  · exact .inr ⟨houtcome, twinning.back h hafter⟩

end Eval.Follows

/-- If the atoms follow each other, so do assembled evaluations, provided that nothing is
recovered from that one gives up with. -/
theorem Assembled.follows {σ H α : Type} {atom : ∀ α : Type, (H → Eval σ α) → Prop}
    {givesUp : Stop → Prop} {R : Context σ → Context σ → Prop} (twinning : Twinning R)
    (hgives : ∀ failure, ¬ givesUp (.failed failure)) {left right : H}
    (hatom : ∀ (α : Type) (X : H → Eval σ α), atom α X → (X left).Follows givesUp R (X right))
    {X : H → Eval σ α} (hX : Assembled atom X) : (X left).Follows givesUp R (X right) := by
  induction hX with
  | atom h => exact hatom _ _ h
  | done a => exact .pure a
  | bind _ _ ihX ihF => exact .bind ihX ihF
  | recover condition _ _ ihX ihK =>
      exact .recover (fun failure h => absurd h (hgives failure)) ihX ihK
  | locals locals _ ih => exact .withLocals twinning locals ih
  | params params _ ih => exact .withParams twinning params ih

/-! ## Helpers that give up more often -/

/-- The first evaluation does what the second does, unless it is exhausted. -/
def Eval.Below {σ α : Type} (x y : Eval σ α) : Prop :=
  ∀ ctx, (x.on ctx).1 = .error .exhausted ∨ x.on ctx = y.on ctx

namespace Eval.Below

variable {σ α : Type}

theorem refl (x : Eval σ α) : x.Below x := fun _ => .inr rfl

theorem trans {x y z : Eval σ α} (hxy : x.Below y) (hyz : y.Below z) : x.Below z := by
  intro ctx
  rcases hxy ctx with h | h
  · exact .inl h
  · rw [h]
    exact hyz ctx

theorem exhausted (y : Eval σ α) : (Eval.exhausted : Eval σ α).Below y := fun _ => .inl rfl

/-- An outcome that is not exhaustion is kept by everything above. -/
theorem on_eq {x y : Eval σ α} (h : x.Below y) {ctx : Context σ}
    (hx : (x.on ctx).1 ≠ .error .exhausted) : y.on ctx = x.on ctx :=
  ((h ctx).resolve_left hx).symm

/-- Two runs from the same context, of which the first may be exhausted. -/
theorem iff_follows {x y : Eval σ α} : x.Below y ↔ x.Follows (· = .exhausted) Eq y := by
  constructor
  · rintro h c _ rfl
    rcases h c with hexhausted | heq
    · exact .inl ⟨_, hexhausted, rfl⟩
    · exact .inr ⟨congrArg Prod.fst heq, congrArg Prod.snd heq⟩
  · intro h ctx
    rcases h ctx ctx rfl with ⟨_, hstop, rfl⟩ | ⟨houtcome, hafter⟩
    · exact .inl hstop
    · exact .inr (Prod.ext houtcome hafter)

end Eval.Below

/-- With helpers that give up more often, an assembled evaluation gives up more often and
does the same otherwise. -/
theorem Assembled.monotone {σ H α : Type} {atom : ∀ α : Type, (H → Eval σ α) → Prop}
    {lower upper : H}
    (hatom : ∀ (α : Type) (X : H → Eval σ α), atom α X → (X lower).Below (X upper))
    {X : H → Eval σ α} (hX : Assembled atom X) : (X lower).Below (X upper) := by
  have hfollows := hX.follows twinning_eq (fun _ => Stop.noConfusion) fun α X h =>
    Eval.Below.iff_follows.1 (hatom α X h)
  exact Eval.Below.iff_follows.2 hfollows

/-! ## Evaluations without recoveries -/

/-- Evaluations that are put together from atoms and recover from nothing; only an atom
may. -/
inductive Composed {σ H : Type} (atom : ∀ α : Type, (H → Eval σ α) → Prop) :
    ∀ {α : Type}, (H → Eval σ α) → Prop
  | atom {α : Type} {X : H → Eval σ α} (h : atom α X) : Composed atom X
  | done {α : Type} (a : α) : Composed atom fun _ => pure a
  | bind {α β : Type} {X : H → Eval σ α} {F : α → H → Eval σ β}
      (hX : Composed atom X) (hF : ∀ a, Composed atom (F a)) :
      Composed atom fun helper => X helper >>= fun a => F a helper
  | locals {α : Type} {X : H → Eval σ α} (locals : Fields) (hX : Composed atom X) :
      Composed atom fun helper => Eval.withLocals locals (X helper)
  | params {α : Type} {X : H → Eval σ α} (params : Fields) (hX : Composed atom X) :
      Composed atom fun helper => Eval.withParams params (X helper)

namespace Composed

variable {σ H α β : Type} {atom : ∀ α : Type, (H → Eval σ α) → Prop}

theorem ite (c : Prop) [Decidable c] {X Y : H → Eval σ α} (hX : Composed atom X)
    (hY : Composed atom Y) : Composed atom fun helper => if c then X helper else Y helper := by
  by_cases hc : c
  · simpa only [if_pos hc] using hX
  · simpa only [if_neg hc] using hY

theorem mapM (items : List β) {F : β → H → Eval σ α} (hF : ∀ b ∈ items, Composed atom (F b)) :
    Composed atom fun helper => items.mapM fun b => F b helper := by
  induction items with
  | nil => simpa only [List.mapM_nil] using Composed.done []
  | cons b rest ih =>
      simp only [List.mapM_cons]
      refine .bind (hF b List.mem_cons_self) fun a => ?_
      refine .bind (ih fun c hc => hF c (List.mem_cons_of_mem b hc)) fun as => ?_
      exact .done (a :: as)

/-- More atoms do no harm. -/
theorem mono {other : ∀ α : Type, (H → Eval σ α) → Prop}
    (h : ∀ (α : Type) (X : H → Eval σ α), atom α X → other α X) {X : H → Eval σ α}
    (hX : Composed atom X) : Composed other X := by
  induction hX with
  | atom hatom => exact .atom (h _ _ hatom)
  | done a => exact .done a
  | bind _ _ ihX ihF => exact .bind ihX ihF
  | locals locals _ ih => exact .locals locals ih
  | params params _ ih => exact .params params ih

theorem assembled {X : H → Eval σ α} (hX : Composed atom X) : Assembled atom X := by
  induction hX with
  | atom h => exact .atom h
  | done a => exact .done a
  | bind _ _ ihX ihF => exact .bind ihX ihF
  | locals locals _ ih => exact .locals locals ih
  | params params _ ih => exact .params params ih

/-- If the atoms follow each other, so do evaluations without recoveries, whatever one gives
up with. -/
theorem follows {givesUp : Stop → Prop} {R : Context σ → Context σ → Prop}
    (twinning : Twinning R) {left right : H}
    (hatom : ∀ (α : Type) (X : H → Eval σ α), atom α X → (X left).Follows givesUp R (X right))
    {X : H → Eval σ α} (hX : Composed atom X) : (X left).Follows givesUp R (X right) := by
  induction hX with
  | atom h => exact hatom _ _ h
  | done a => exact .pure a
  | bind _ _ ihX ihF => exact .bind ihX ihF
  | locals locals _ ih => exact .withLocals twinning locals ih
  | params params _ ih => exact .withParams twinning params ih

/-- Helpers that agree on the atoms agree on what is put together from them. -/
theorem congr {left right : H}
    (hatom : ∀ (α : Type) (X : H → Eval σ α), atom α X → X left = X right)
    {X : H → Eval σ α} (hX : Composed atom X) : X left = X right := by
  induction hX with
  | atom h => exact hatom _ _ h
  | done a => rfl
  | bind _ _ ihX ihF =>
      simp only [ihX]
      exact congrArg _ (funext ihF)
  | locals locals _ ih => simp only [ih]
  | params params _ ih => simp only [ih]

end Composed

end Dialogue
