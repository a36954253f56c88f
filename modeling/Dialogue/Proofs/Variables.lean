import Dialogue.Proofs.Frame

/-!
# Variables while interpolating

No variable changes its value while a value is interpolated, because interpolation leaves
the scope, the parameters, the session's data and the environment alone.  So all tokens of
a text can be read against the context in which the text is met.
-/

namespace Dialogue

namespace Context

variable {σ : Type}

/-- Everything that holds variables is the same. -/
structure SameVariables (known ctx : Context σ) : Prop where
  scope : ctx.scope = known.scope
  params : ctx.params = known.params
  data : ctx.session.data = known.session.data
  env : ctx.env = known.env

theorem SameVariables.refl (ctx : Context σ) : ctx.SameVariables ctx := ⟨rfl, rfl, rfl, rfl⟩

theorem SameVariables.symm {known ctx : Context σ} (h : known.SameVariables ctx) :
    ctx.SameVariables known := ⟨h.scope.symm, h.params.symm, h.data.symm, h.env.symm⟩

theorem SameVariables.trans {known between ctx : Context σ} (hfirst : known.SameVariables between)
    (hsecond : between.SameVariables ctx) : known.SameVariables ctx :=
  ⟨hsecond.scope.trans hfirst.scope, hsecond.params.trans hfirst.params,
    hsecond.data.trans hfirst.data, hsecond.env.trans hfirst.env⟩

theorem Advances.sameVariables {before after : Context σ} (h : before.Advances after) :
    before.SameVariables after := by
  obtain ⟨storage, effects, -, -, rfl⟩ := h
  exact ⟨rfl, rfl, rfl, rfl⟩

end Context

namespace Engine

variable {σ : Type} {e : Engine σ} {known ctx : Context σ}

theorem lookupIn_congr (h : known.SameVariables ctx) (place : Place) (path : Path) :
    e.lookupIn ctx place path = e.lookupIn known place path := by
  cases place with
  | locals => rw [lookupIn, lookupIn, h.scope]
  | params => rw [lookupIn, lookupIn, h.params]
  | data => rw [lookupIn, lookupIn, h.data]
  | env => rw [lookupIn, lookupIn, h.env]

theorem placeRoot_congr (h : known.SameVariables ctx) (place : Place) :
    e.placeRoot ctx place = e.placeRoot known place := by
  cases place with
  | locals => rfl
  | params => rw [placeRoot, placeRoot, h.params]
  | data => rw [placeRoot, placeRoot, h.data]
  | env => rw [placeRoot, placeRoot, h.env]

theorem lookup_congr (h : known.SameVariables ctx) (path : String) :
    e.lookup ctx path = e.lookup known path := by
  unfold lookup
  cases Path.parse path with
  | nil => rfl
  | cons root rest => simp only [lookupPath, lookupIn_congr h, placeRoot_congr h]

/-- An argument that names a variable stands for its value. -/
theorem argument_of_lookup {word : String} {v : Value}
    (hword : Template.isIdentifier word.toList) (hv : e.lookup ctx word = some v) :
    e.argument ctx word = v := by
  simp [argument, hword, hv]

theorem descriptor_congr (h : known.SameVariables ctx) (name : String) (keywords : List String)
    (args : String) :
    e.descriptor ctx name keywords args = e.descriptor known name keywords args := by
  have hargument : e.argument ctx = e.argument known := by
    funext raw
    simp only [argument, lookup_congr h]
  rw [descriptor, descriptor, hargument]

theorem tokenAt_congr (h : known.SameVariables ctx) (self : Interpolation σ)
    (inner : List Char) : e.tokenAt ctx self inner = e.tokenAt known self inner := by
  simp only [tokenAt, descriptor_congr h, lookup_congr h]

end Engine

/-! ## Reading tokens against a known context -/

/-- In contexts with the variables of a known one, both evaluations do the same, and leave
these variables. -/
def Eval.AgreesFrom {σ α : Type} (known : Context σ) (x y : Eval σ α) : Prop :=
  ∀ ctx, known.SameVariables ctx → x.on ctx = y.on ctx ∧ known.SameVariables (x.on ctx).2

namespace Eval.AgreesFrom

variable {σ α β : Type} {known : Context σ}

theorem pure (a : α) : AgreesFrom known (pure a : Eval σ α) (Pure.pure a) :=
  fun _ h => ⟨rfl, h⟩

theorem bind {x y : Eval σ α} {f g : α → Eval σ β} (hxy : x.AgreesFrom known y)
    (hfg : ∀ a, (f a).AgreesFrom known (g a)) : (x >>= f).AgreesFrom known (y >>= g) := by
  intro ctx hctx
  obtain ⟨heq, hsame⟩ := hxy ctx hctx
  rw [on_bind, on_bind, ← heq]
  cases (x.on ctx).1 with
  | ok a => exact hfg a _ hsame
  | error stop => exact ⟨rfl, hsame⟩

theorem mapM {f g : β → Eval σ α} (items : List β) (hfg : ∀ b, (f b).AgreesFrom known (g b)) :
    (items.mapM f).AgreesFrom known (items.mapM g) := by
  induction items with
  | nil => exact pure []
  | cons b rest ih =>
      simp only [List.mapM_cons]
      exact bind (hfg b) fun a => bind ih fun as => pure (a :: as)

end Eval.AgreesFrom

namespace Engine

variable {σ : Type} {e : Engine σ} {known : Context σ}

theorem textBy_agreesFrom {first second : List Char → Eval σ (Option Value)} (text : String)
    (h : ∀ inner, (first inner).AgreesFrom known (second inner)) :
    (textBy first text).AgreesFrom known (textBy second text) := by
  simp only [textBy]
  split
  · exact .bind (h _) fun _ => .pure _
  · refine .bind (.mapM _ fun segment => ?_) fun _ => .pure _
    cases segment with
    | char c => exact .pure [c]
    | token inner =>
        refine .bind (h inner) fun value? => ?_
        cases value? with
        | none => exact .pure _
        | some value => exact .pure _

theorem tokenWith_agreesFrom (equipped : e.Equipped FunctionLibrary.readStorage)
    {self : Interpolation σ} (hself : ∀ v, (self v).Keeps Context.Advances) (inner : List Char) :
    (e.tokenWith self inner).AgreesFrom known (e.tokenAt known self inner) := by
  intro ctx hctx
  have hkeeps := (tokenWith_assembled equipped inner).keeps Context.framing_advances self
    (Asking.advances hself) ctx
  refine ⟨?_, hctx.trans hkeeps.sameVariables⟩
  rw [tokenWith_eq_tokenAt, Eval.on_bind_ok (Eval.on_ask id ctx), id, tokenAt_congr hctx]

/-- A text is interpolated as if all its tokens were read before. -/
theorem on_textWith (equipped : e.Equipped FunctionLibrary.readStorage)
    {self : Interpolation σ} (hself : ∀ v, (self v).Keeps Context.Advances) (text : String)
    (ctx : Context σ) :
    (e.textWith self text).on ctx = (textBy (e.tokenAt ctx self) text).on ctx :=
  (textBy_agreesFrom text (tokenWith_agreesFrom equipped hself) ctx (.refl ctx)).1

end Engine
end Dialogue
