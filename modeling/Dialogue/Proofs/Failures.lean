import Dialogue.Proofs.Interpolation

/-!
# How interpolation fails

An unknown name is a failure that interpolation recovers from, so it never comes out of
an interpolation: what comes out are failures of evaluation.
-/

namespace Dialogue

namespace Stop

/-- A stop with a failure of evaluation. -/
def Reported (stop : Stop) : Prop :=
  ∃ failure, stop = .failed failure ∧ failure.kind = .evaluation

theorem Reported.ne_exhausted {stop : Stop} (h : stop.Reported) : stop ≠ .exhausted := by
  obtain ⟨failure, rfl, -⟩ := h
  exact Stop.noConfusion

/-- A stop of an interpolation. -/
def Usual (stop : Stop) : Prop := stop = .exhausted ∨ stop.Reported

end Stop

variable {σ : Type}

namespace Eval

theorem fail_reports {α : Type} {failure : Failure} (h : failure.kind = .evaluation) :
    (fail failure : Eval σ α).StopsOnly Stop.Reported := by
  intro ctx stop hstop
  obtain rfl : .failed failure = stop := Except.error.inj hstop
  exact ⟨failure, rfl, h⟩

theorem ofExcept_reports {α : Type} {result : Except Failure α} (h : EvaluatesOnly result) :
    (ofExcept result : Eval σ α).StopsOnly Stop.Reported := by
  cases result with
  | ok a => exact fun ctx stop hstop => nomatch hstop
  | error failure => exact fail_reports (h failure rfl)

theorem saveData_reports (path : String) (v : Value) {failure : Path.Obstacle → Failure}
    (h : ∀ obstacle, (failure obstacle).kind = .evaluation) :
    (saveData path v failure : Eval σ Unit).StopsOnly Stop.Reported := by
  intro ctx stop hstop
  simp only [saveData, on_make] at hstop
  split at hstop
  · cases hstop
  · rename_i obstacle _
    cases hstop
    exact ⟨failure obstacle, rfl, h obstacle⟩

/-- Nothing is unknown where all stops are usual. -/
theorem on_recover_isUnknown {α : Type} {x : Eval σ α} (hx : x.StopsOnly Stop.Usual)
    (k : Failure → Eval σ α) (ctx : Context σ) :
    (x.recover Engine.isUnknown k).on ctx = x.on ctx := by
  rw [on_recover]
  split
  · rename_i failure hfailure
    have hknown : Engine.isUnknown failure = false := by
      rcases hx ctx _ hfailure with h | ⟨other, h, hkind⟩
      · cases h
      · cases h
        simp [Engine.isUnknown, hkind]
    simp [hknown]
  · rfl

end Eval

theorem FunctionLibrary.readStorage_reports (self : Interpolation σ) (params : Fields) :
    (FunctionLibrary.readStorage.execute self params).StopsOnly Stop.Reported := by
  refine .bind (Eval.ofExcept_reports (Parameters.required_evaluatesOnly _ _ _)) fun key => ?_
  refine .bind ?_ fun stored => ?_
  · exact fun ctx stop hstop => nomatch hstop
  · exact fun ctx stop hstop => nomatch hstop

/-- The steps of an interpolation stop as the interpolations of parts stop, or with failures
of evaluation. -/
theorem Interpolating.stopsOnly {limit : Option Nat} {self : Interpolation σ} {P : Stop → Prop}
    (hself : ∀ v : Value, v.Within limit → (self v).StopsOnly P)
    (hreported : ∀ {stop : Stop}, stop.Reported → P stop)
    (α : Type) (X : Interpolation σ → Eval σ α)
    (h : Interpolating limit FunctionLibrary.readStorage α X) : (X self).StopsOnly P := by
  cases h with
  | value v hv => exact hself v hv
  | fail failure hfailure => exact (Eval.fail_reports hfailure).mono hreported
  | queue => exact fun ctx stop hstop => nomatch hstop
  | read params => exact (FunctionLibrary.readStorage_reports self params).mono hreported

theorem Asking.stopsOnly {self : Interpolation σ} {P : Stop → Prop}
    (hself : ∀ v, (self v).StopsOnly P) (hreported : ∀ {stop : Stop}, stop.Reported → P stop)
    (α : Type) (X : Interpolation σ → Eval σ α) (h : Asking FunctionLibrary.readStorage α X) :
    (X self).StopsOnly P := by
  cases h with
  | step h => exact h.stopsOnly (fun v _ => hself v) hreported
  | ask => exact fun ctx stop hstop => nomatch hstop

namespace Engine

variable {e : Engine σ}

/-- Interpolation fails only with failures of evaluation. -/
theorem interpolate_stopsOnly (builtIn : e.BuiltIn) (bound : Nat) (v : Value) :
    (e.interpolate bound v).StopsOnly Stop.Usual := by
  induction bound generalizing v with
  | zero =>
      intro ctx stop hstop
      exact .inl (Except.error.inj hstop).symm
  | succ bound ih =>
      exact (interpolateWith_assembled builtIn.equipped v).stopsOnly _
        (Asking.stopsOnly ih .inr)

end Engine
end Dialogue
