import Dialogue.Engine.Standard
import Dialogue.Proofs.Assembly
import Dialogue.Proofs.Keyed
import Dialogue.Proofs.Weight

/-!
# What functions do

A function of the library computes from its parameters, or interpolates parts of its
deferred parameters, also inside a frame of its own.  It fails only with failures of
evaluation.  `ReadStorage` is the one function that changes the context by itself, so it
is kept apart: the statements are about an arbitrary function in its place, the `reader`.
-/

namespace Dialogue

/-! ## Failures of computations -/

/-- A computation whose failures are all of one kind, that of evaluation. -/
def EvaluatesOnly {α : Type} (result : Except Failure α) : Prop :=
  ∀ failure, result = .error failure → failure.kind = .evaluation

namespace EvaluatesOnly

variable {α β : Type}

theorem ok (a : α) : EvaluatesOnly (.ok a) := by
  intro failure h
  cases h

theorem error {failure : Failure} (h : failure.kind = .evaluation) :
    EvaluatesOnly (.error failure : Except Failure α) := by
  intro other hother
  cases hother
  exact h

theorem bind {x : Except Failure α} {f : α → Except Failure β} (hx : EvaluatesOnly x)
    (hf : ∀ a, EvaluatesOnly (f a)) : EvaluatesOnly (x >>= f) := by
  cases x with
  | ok a => exact hf a
  | error failure => exact .error (hx failure rfl)

theorem mapM {f : α → Except Failure β} (items : List α) (hf : ∀ a, EvaluatesOnly (f a)) :
    EvaluatesOnly (items.mapM f) := by
  induction items with
  | nil => exact .ok []
  | cons a rest ih =>
      rw [List.mapM_cons]
      exact .bind (hf a) fun b => .bind ih fun bs => .ok (b :: bs)

theorem foldlM {f : β → α → Except Failure β} (items : List α) (start : β)
    (hf : ∀ b a, EvaluatesOnly (f b a)) : EvaluatesOnly (items.foldlM f start) := by
  induction items generalizing start with
  | nil => exact .ok start
  | cons a rest ih =>
      rw [List.foldlM_cons]
      exact .bind (hf start a) fun b => ih b

theorem map {x : Except Failure α} (f : α → β) (hx : EvaluatesOnly x) :
    EvaluatesOnly (x.map f) := by
  cases x with
  | ok a => exact .ok (f a)
  | error failure => exact .error (hx failure rfl)

end EvaluatesOnly

namespace Parameters

theorem required_evaluatesOnly (function : String) (params : Fields) (name : String) :
    EvaluatesOnly (required function params name) := by
  unfold required
  split
  · exact .ok _
  · exact .error rfl

theorem number_evaluatesOnly (function : String) (value : Value) :
    EvaluatesOnly (number function value) := by
  unfold number
  split
  · exact .ok _
  · exact .error rfl

theorem requiredNumber_evaluatesOnly (function : String) (params : Fields) (name : String) :
    EvaluatesOnly (requiredNumber function params name) :=
  .bind (required_evaluatesOnly function params name) (number_evaluatesOnly function)

theorem finish_evaluatesOnly (function : String) (x : Float) :
    EvaluatesOnly (finish function x) := by
  unfold finish
  split
  · exact .ok _
  · exact .error rfl

end Parameters

open Parameters

namespace Arithmetic

theorem Operation.step_evaluatesOnly (operation : Operation) (x y : Float) :
    EvaluatesOnly (operation.step x y) := by
  unfold Operation.step
  cases operation with
  | divide =>
      simp only
      split
      · exact .error rfl
      · exact .ok _
  | _ => exact .ok _

theorem Operation.apply_evaluatesOnly (operation : Operation) (operands : List Float) :
    EvaluatesOnly (operation.apply operands) := by
  match operands with
  | [] =>
      cases operation with
      | divide => exact .error rfl
      | _ => exact .ok _
  | [x] =>
      cases operation with
      | divide => exact Operation.step_evaluatesOnly .divide 1.0 x
      | _ => exact .ok _
  | x :: y :: rest => exact .foldlM _ _ operation.step_evaluatesOnly

theorem Operation.result_evaluatesOnly (operation : Operation) (params : Fields) :
    EvaluatesOnly (operation.result params) :=
  .bind (.mapM _ (number_evaluatesOnly _)) fun operands =>
    .bind (operation.apply_evaluatesOnly operands) (finish_evaluatesOnly _)

theorem modulo_evaluatesOnly (params : Fields) : EvaluatesOnly (modulo params) := by
  refine .bind (requiredNumber_evaluatesOnly _ _ _) fun dividend => ?_
  refine .bind (requiredNumber_evaluatesOnly _ _ _) fun divisor => ?_
  split
  · exact .error rfl
  · exact finish_evaluatesOnly _ _

end Arithmetic

theorem Logic.compare_evaluatesOnly (params : Fields) : EvaluatesOnly (Logic.compare params) := by
  refine .bind (requiredNumber_evaluatesOnly _ _ _) fun left => ?_
  refine .bind (requiredNumber_evaluatesOnly _ _ _) fun right => ?_
  refine .bind (required_evaluatesOnly _ _ _) fun operator => ?_
  split
  · exact .ok _
  · exact .error rfl

namespace Collections

theorem requiredItems_evaluatesOnly (function : String) (params : Fields) (name : String) :
    EvaluatesOnly (requiredItems function params name) := by
  refine .bind (required_evaluatesOnly _ _ _) fun value => ?_
  split
  · exact .ok _
  · exact .error rfl

theorem arraySize_evaluatesOnly (params : Fields) : EvaluatesOnly (arraySize params) :=
  .map _ (requiredItems_evaluatesOnly _ _ _)

end Collections

namespace Dates

theorem moment_evaluatesOnly (function : String) (params : Fields) (name : String) :
    EvaluatesOnly (moment function params name) := by
  refine .bind (required_evaluatesOnly _ _ _) fun raw => ?_
  split
  · exact .ok _
  · exact .error rfl

theorem unit_evaluatesOnly (params : Fields) : EvaluatesOnly (unit params) := by
  simp only [unit]
  split
  · exact .ok _
  · exact .error rfl

theorem formatDate_evaluatesOnly (params : Fields) : EvaluatesOnly (formatDate params) := by
  refine .bind (moment_evaluatesOnly _ _ _) fun m => ?_
  simp only
  split
  · exact .ok _
  · exact .error rfl

theorem parseDate_evaluatesOnly (params : Fields) : EvaluatesOnly (parseDate params) := by
  refine .bind (required_evaluatesOnly _ _ _) fun raw => ?_
  simp only
  split
  · exact .ok _
  · exact .error rfl

theorem addToDate_evaluatesOnly (params : Fields) : EvaluatesOnly (addToDate params) := by
  refine .bind (moment_evaluatesOnly _ _ _) fun m => ?_
  refine .bind (requiredNumber_evaluatesOnly _ _ _) fun amount => ?_
  refine .bind (unit_evaluatesOnly _) fun unit => ?_
  split
  · exact .ok _
  · rename_i e _
    cases e <;> exact .error rfl

theorem dateDiff_evaluatesOnly (params : Fields) : EvaluatesOnly (dateDiff params) := by
  refine .bind (moment_evaluatesOnly _ _ _) fun start => ?_
  refine .bind (moment_evaluatesOnly _ _ _) fun goal => ?_
  exact .bind (unit_evaluatesOnly _) fun unit => .ok _

end Dates

/-! ## Assembling functions -/

section

variable {σ : Type}

/-- Whether a value weighs less than a limit, if there is one. -/
def Value.Within (limit : Option Nat) (v : Value) : Prop :=
  ∀ n ∈ limit, v.weight < n

theorem Value.Within.mono {limit : Option Nat} {v w : Value} (hw : w.Within limit)
    (h : v.weight ≤ w.weight) : v.Within limit :=
  fun n hn => Nat.lt_of_le_of_lt h (hw n hn)

@[simp] theorem Value.within_none (v : Value) : v.Within none := fun _ h => nomatch h

/-- What functions of the library are assembled from: interpolations of values within the limit,
and failures of evaluation. -/
inductive Computing (limit : Option Nat) : ∀ α : Type, (Interpolation σ → Eval σ α) → Prop
  | value (v : Value) (h : v.Within limit) :
      Computing limit Value fun interpolate => interpolate v
  | fail {α : Type} (failure : Failure) (h : failure.kind = .evaluation) :
      Computing limit α fun _ => Eval.fail failure

/-- What the evaluation of functions is assembled from: interpolations of values within the
limit, failures of evaluation, queueing an action, and the reader. -/
inductive Interpolating (limit : Option Nat) (reader : Executor σ) :
    ∀ α : Type, (Interpolation σ → Eval σ α) → Prop
  | value (v : Value) (h : v.Within limit) :
      Interpolating limit reader Value fun interpolate => interpolate v
  | fail {α : Type} (failure : Failure) (h : failure.kind = .evaluation) :
      Interpolating limit reader α fun _ => Eval.fail failure
  | queue (effect : Value) (h : effect.isAction) :
      Interpolating limit reader Unit fun _ => Eval.queueEffect effect
  | read (params : Fields) :
      Interpolating limit reader Value fun interpolate => reader.execute interpolate params

/-- What an interpolation is assembled from: the steps of functions, and reading the
context. -/
inductive Asking (reader : Executor σ) : ∀ α : Type, (Interpolation σ → Eval σ α) → Prop
  | step {α : Type} {X : Interpolation σ → Eval σ α} (h : Interpolating none reader α X) :
      Asking reader α X
  | ask {α : Type} (f : Context σ → α) : Asking reader α fun _ => Eval.ask f

/-- A function that is assembled from interpolations of its deferred parameters and of
null. -/
def Executor.Assembles (x : Executor σ) : Prop :=
  ∀ (limit : Option Nat) (params : Fields), Value.null.Within limit →
    (∀ name ∈ x.deferred, ∀ w, params.get? name = some w → w.Within limit) →
    Assembled (Computing limit) fun interpolate => x.execute interpolate params

variable {limit : Option Nat} {reader : Executor σ}

theorem Computing.interpolating (α : Type) (X : Interpolation σ → Eval σ α)
    (h : Computing limit α X) : Interpolating limit reader α X := by
  cases h with
  | value v hv => exact .value v hv
  | fail failure hfailure => exact .fail failure hfailure

theorem assembled_value {v : Value} (h : v.Within limit) :
    Assembled (Computing limit) fun interpolate : Interpolation σ => interpolate v :=
  .atom (.value v h)

theorem assembled_fail {α : Type} {failure : Failure} (h : failure.kind = .evaluation) :
    Assembled (Computing limit) fun _ => (Eval.fail failure : Eval σ α) :=
  .atom (.fail failure h)

theorem assembled_ofExcept {α : Type} {result : Except Failure α} (h : EvaluatesOnly result) :
    Assembled (Computing limit) fun _ => (Eval.ofExcept result : Eval σ α) := by
  cases result with
  | ok a => exact .done a
  | error failure => exact assembled_fail (h failure rfl)

theorem Executor.assembles_ofResult (keywords : List String)
    {f : Fields → Except Failure Value} (h : ∀ params, EvaluatesOnly (f params)) :
    (Executor.ofResult keywords f : Executor σ).Assembles :=
  fun _ params _ _ => assembled_ofExcept (h params)

/-- A parameter that may be missing, with null in its place. -/
theorem Value.Within.getD {param : Option Value} (hnull : Value.null.Within limit)
    (h : ∀ w, param = some w → w.Within limit) : (param.getD .null).Within limit := by
  cases param with
  | none => exact hnull
  | some w => exact h w rfl

namespace Collections

theorem mapItems_assembled {template : Value} (h : template.Within limit) (index : Nat)
    (items : List Value) :
    Assembled (Computing limit) fun interpolate : Interpolation σ =>
      mapItems interpolate template index items := by
  induction items generalizing index with
  | nil => exact .done []
  | cons item rest ih =>
      refine .bind (.locals (itemFrame index item) (assembled_value h)) fun value => ?_
      exact .bind (ih (index + 1)) fun values => .done (value :: values)

theorem map_assembles : (map : Executor σ).Assembles := by
  intro limit params hnull hdeferred
  refine .bind (assembled_ofExcept (requiredItems_evaluatesOnly _ _ _)) fun items => ?_
  have htemplate := hnull.getD (hdeferred "template" (by simp [map]))
  exact .bind (mapItems_assembled htemplate 0 items) fun values => .done (Value.array values)

end Collections

namespace Logic

theorem branch_assembled (otherwise : Value)
    {expression? : Option Value} (h : ∀ w, expression? = some w → w.Within limit) :
    Assembled (Computing limit) fun interpolate : Interpolation σ =>
      branch interpolate otherwise expression? := by
  cases expression? with
  | none => exact .done otherwise
  | some expression => exact assembled_value (h expression rfl)

/-- A field of a case weighs less than the list of cases. -/
theorem within_case {cases : List Value} {fields : Fields} (hnull : Value.null.Within limit)
    (hcases : ∀ v ∈ cases, v.Within limit) (hmem : .object fields ∈ cases) (name : String) :
    ((Keyed.get? fields name).getD .null).Within limit := by
  refine hnull.getD fun w hw => (hcases _ hmem).mono ?_
  have hentry : (name, w) ∈ fields := Keyed.mem_of_get? hw
  exact Nat.le_of_lt (Value.weight_lt_object hentry)

theorem choose_assembled (hnull : Value.null.Within limit) (value : Value)
    {default? : Option Value} (hdefault : ∀ w, default? = some w → w.Within limit)
    {cases : List Value} (hcases : ∀ v ∈ cases, v.Within limit) :
    Assembled (Computing limit) fun interpolate : Interpolation σ =>
      choose interpolate value default? cases := by
  induction cases with
  | nil => exact branch_assembled .null hdefault
  | cons case rest ih =>
      have hrest := ih fun v hv => hcases v (List.mem_cons_of_mem case hv)
      match case with
      | .object fields =>
          have hfield := within_case hnull hcases List.mem_cons_self
          refine .bind (assembled_value (hfield "match")) fun candidate => ?_
          exact .ite _ (assembled_value (hfield "result")) hrest
      | .null | .bool _ | .number _ | .string _ | .array _ => exact hrest

theorem within_list {params : Fields} {name : String}
    (h : ∀ w, params.get? name = some w → w.Within limit) :
    ∀ v ∈ Parameters.list params name, v.Within limit := by
  intro v hv
  unfold Parameters.list Parameters.given? at hv
  cases hparam : params.get? name with
  | none => simp [hparam] at hv
  | some w =>
      have hw := h w hparam
      rw [hparam] at hv
      cases w with
      | null => simp [Option.filter, Value.isNull] at hv
      | array items =>
          have hmem : v ∈ items := by simpa [Option.filter, Value.isNull] using hv
          exact hw.mono (Nat.le_of_lt (Value.weight_lt_array hmem))
      | _ =>
          simp only [Option.filter, Value.isNull, Bool.not_false, if_true,
            List.mem_singleton] at hv
          exact hv ▸ hw

theorem switch_assembles : (switch : Executor σ).Assembles := by
  intro limit params hnull hdeferred
  exact choose_assembled hnull _ (hdeferred "defaultResult" (by simp [switch]))
    (within_list (hdeferred "cases" (by simp [switch])))

theorem equals_assembles : (equals : Executor σ).Assembles := by
  intro limit params hnull hdeferred
  refine branch_assembled _ (hdeferred _ ?_)
  split <;> simp [equals]

end Logic

namespace FunctionLibrary

/-- Every function but `ReadStorage` is assembled from interpolations. -/
theorem assembles_of_mem {name : String} {x : Executor σ}
    (h : (name, x) ∈ (Arithmetic.functions ++ Logic.functions ++ Collections.functions ++
      Dates.functions : List (String × Executor σ))) : x.Assembles := by
  simp only [Arithmetic.functions, Logic.functions, Collections.functions, Dates.functions,
    List.map_cons, List.map_nil, List.mem_append, List.mem_cons, Prod.mk.injEq,
    List.not_mem_nil, or_false] at h
  rcases h with ((((⟨-, rfl⟩ | ⟨-, rfl⟩ | ⟨-, rfl⟩ | ⟨-, rfl⟩) | ⟨-, rfl⟩) |
    ⟨-, rfl⟩ | ⟨-, rfl⟩ | ⟨-, rfl⟩) | ⟨-, rfl⟩ | ⟨-, rfl⟩ | ⟨-, rfl⟩ | ⟨-, rfl⟩) |
    ⟨-, rfl⟩ | ⟨-, rfl⟩ | ⟨-, rfl⟩ | ⟨-, rfl⟩
  · exact Executor.assembles_ofResult _ (Arithmetic.Operation.result_evaluatesOnly _)
  · exact Executor.assembles_ofResult _ (Arithmetic.Operation.result_evaluatesOnly _)
  · exact Executor.assembles_ofResult _ (Arithmetic.Operation.result_evaluatesOnly _)
  · exact Executor.assembles_ofResult _ (Arithmetic.Operation.result_evaluatesOnly _)
  · exact Executor.assembles_ofResult _ Arithmetic.modulo_evaluatesOnly
  · exact Executor.assembles_ofResult _ Logic.compare_evaluatesOnly
  · exact Logic.switch_assembles
  · exact Logic.equals_assembles
  · exact Executor.assembles_ofResult _ fun _ => .ok _
  · exact Executor.assembles_ofResult _ fun _ => .ok _
  · exact Executor.assembles_ofResult _ Collections.arraySize_evaluatesOnly
  · exact Collections.map_assembles
  · exact Executor.assembles_ofResult _ Dates.formatDate_evaluatesOnly
  · exact Executor.assembles_ofResult _ Dates.parseDate_evaluatesOnly
  · exact Executor.assembles_ofResult _ Dates.addToDate_evaluatesOnly
  · exact Executor.assembles_ofResult _ Dates.dateDiff_evaluatesOnly

/-- Three functions defer the interpolation of parameters. -/
theorem deferred_of_mem {name : String} {x : Executor σ}
    (h : (name, x) ∈ (Arithmetic.functions ++ Logic.functions ++ Collections.functions ++
      Dates.functions : List (String × Executor σ))) :
    x.deferred = [] ∨ (name = "Switch" ∧ x = Logic.switch) ∨ (name = "Map" ∧ x = Collections.map) ∨
      x = Logic.equals := by
  simp only [Arithmetic.functions, Logic.functions, Collections.functions, Dates.functions,
    List.map_cons, List.map_nil, List.mem_append, List.mem_cons, Prod.mk.injEq,
    List.not_mem_nil, or_false] at h
  rcases h with ((((⟨-, rfl⟩ | ⟨-, rfl⟩ | ⟨-, rfl⟩ | ⟨-, rfl⟩) | ⟨-, rfl⟩) |
    ⟨-, rfl⟩ | ⟨rfl, rfl⟩ | ⟨-, rfl⟩) | ⟨-, rfl⟩ | ⟨-, rfl⟩ | ⟨-, rfl⟩ | ⟨rfl, rfl⟩) |
    ⟨-, rfl⟩ | ⟨-, rfl⟩ | ⟨-, rfl⟩ | ⟨-, rfl⟩
  all_goals first
    | exact .inl rfl
    | exact .inr (.inl ⟨rfl, rfl⟩)
    | exact .inr (.inr (.inl ⟨rfl, rfl⟩))
    | exact .inr (.inr (.inr rfl))

end FunctionLibrary

end

end Dialogue
