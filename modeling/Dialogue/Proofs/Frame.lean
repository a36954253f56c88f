import Dialogue.Proofs.Interpolation

/-!
# The frame of interpolation

Interpolation may be run before an action has its own effect, because it leaves nearly
everything alone.  Whatever its outcome, it only takes entries out of the session's
storage and queues actions behind those that are queued already, and without the function
that reads the storage it does not touch the storage either.
-/

namespace Dialogue

namespace SessionStorage

/-- Every entry of the first storage is an entry of the second, with the same value and
mark. -/
def PartOf (later earlier : SessionStorage) : Prop :=
  ∀ ns key entry, later.get? ns key = some entry → earlier.get? ns key = some entry

theorem PartOf.refl (s : SessionStorage) : s.PartOf s := fun _ _ _ h => h

theorem PartOf.trans {a b c : SessionStorage} (hab : a.PartOf b) (hbc : b.PartOf c) :
    a.PartOf c := fun ns key entry h => hbc ns key entry (hab ns key entry h)

/-- Whether a read takes the entry out: there is one, and it is consumed or marked. -/
def takesOut (s : SessionStorage) (ns key : String) (consume : Bool) : Bool :=
  match s.get? ns key with
  | none => false
  | some entry => consume || entry.clearAfterRead

theorem read_of_takesOut_false {s : SessionStorage} {ns key : String} {consume : Bool}
    (h : s.takesOut ns key consume = false) : (s.read ns key consume).2 = s := by
  unfold takesOut at h
  unfold read
  split
  · rfl
  · rename_i entry hentry
    simp only [hentry] at h
    simp only [h, if_false, Bool.false_eq_true]

/-- After a read everything is where it was, except for an entry that was taken out. -/
theorem get?_read (s : SessionStorage) (ns key : String) (consume : Bool) (ns' key' : String) :
    (s.read ns key consume).2.get? ns' key' =
      if (ns' = ns ∧ key' = key) ∧ s.takesOut ns key consume then none else s.get? ns' key' := by
  cases htaken : s.takesOut ns key consume with
  | false => simp only [read_of_takesOut_false htaken, Bool.false_eq_true, and_false, if_false]
  | true =>
      have hentries : ((if (Keyed.drop key (s.entries ns)).isEmpty then Keyed.drop ns s.namespaces
          else Keyed.put ns (Keyed.drop key (s.entries ns)) s.namespaces).get? ns').getD []
            = if ns' = ns then Keyed.drop key (s.entries ns) else s.entries ns' := by
        split
        · rename_i hempty
          rw [Keyed.get?_drop]
          split
          · exact (List.isEmpty_iff.1 hempty).symm
          · rfl
        · rw [Keyed.get?_put]
          split <;> rfl
      unfold takesOut at htaken
      cases hentry : s.get? ns key with
      | none => simp [hentry] at htaken
      | some entry =>
          simp only [hentry] at htaken
          simp only [read, hentry, htaken, if_true, and_true]
          simp only [get?, entries] at hentries ⊢
          rw [hentries]
          by_cases hns : ns' = ns
          · subst hns
            simp only [true_and, if_true, Keyed.get?_drop]
          · simp only [hns, false_and, if_false]

/-- A read leaves the storage as it is exactly if it takes nothing out. -/
theorem read_eq_self_iff (s : SessionStorage) (ns key : String) (consume : Bool) :
    (s.read ns key consume).2 = s ↔ s.takesOut ns key consume = false := by
  refine ⟨fun h => ?_, read_of_takesOut_false⟩
  cases htaken : s.takesOut ns key consume with
  | false => rfl
  | true =>
      have hgone := s.get?_read ns key consume ns key
      rw [h, htaken] at hgone
      simp [takesOut, hgone] at htaken

/-- Reading adds no entry and alters none. -/
theorem read_partOf (s : SessionStorage) (ns key : String) (consume : Bool) :
    (s.read ns key consume).2.PartOf s := by
  intro ns' key' entry h
  rw [get?_read] at h
  split at h
  · cases h
  · exact h

end SessionStorage

namespace Context

variable {σ : Type}

/-- The later context differs from the earlier one at most in entries that were taken out
of the storage and in actions that were queued. -/
def Advances (before after : Context σ) : Prop :=
  ∃ storage effects, storage.PartOf before.session.storage ∧
    (∀ effect ∈ effects, effect.isAction) ∧
    after = { before with
      session := { before.session with storage }
      effects := before.effects ++ effects }

theorem Advances.refl (ctx : Context σ) : ctx.Advances ctx :=
  ⟨ctx.session.storage, [], .refl _, by simp, by simp⟩

theorem Advances.trans {before between after : Context σ} (hfirst : before.Advances between)
    (hsecond : between.Advances after) : before.Advances after := by
  obtain ⟨storage, effects, hstorage, heffects, rfl⟩ := hfirst
  obtain ⟨storage', effects', hstorage', heffects', rfl⟩ := hsecond
  refine ⟨storage', effects ++ effects', hstorage'.trans hstorage, ?_, by simp⟩
  intro effect heffect
  rcases List.mem_append.1 heffect with h | h
  · exact heffects effect h
  · exact heffects' effect h

theorem framing_advances : Framing (Advances : Context σ → Context σ → Prop) where
  refl := .refl
  trans := .trans
  locals := by
    rintro ctx _ locals ⟨storage, effects, hstorage, heffects, rfl⟩
    exact ⟨storage, effects, hstorage, heffects, by simp⟩
  action := by
    rintro ctx _ fields ⟨storage, effects, hstorage, heffects, rfl⟩
    exact ⟨storage, effects, hstorage, heffects, by simp⟩
  params := by
    rintro ctx _ params ⟨storage, effects, hstorage, heffects, rfl⟩
    exact ⟨storage, effects, hstorage, heffects, rfl⟩

/-- The storage is the same before and after. -/
def SameStorage (before after : Context σ) : Prop :=
  after.session.storage = before.session.storage

theorem framing_sameStorage : Framing (SameStorage : Context σ → Context σ → Prop) where
  refl _ := rfl
  trans hfirst hsecond := hsecond.trans hfirst
  locals _ h := h
  action _ h := h
  params _ h := h

end Context

/-- A function that leaves the storage alone if what it interpolates does. -/
def Executor.LeavesStorage {σ : Type} (x : Executor σ) : Prop :=
  ∀ interpolate : Interpolation σ, (∀ v, (interpolate v).Keeps Context.SameStorage) →
    ∀ params, (x.execute interpolate params).Keeps Context.SameStorage

namespace FunctionLibrary

variable {σ : Type}

/-- Reading the storage is all that `ReadStorage` does to a context. -/
theorem readStorage_advances (interpolate : Interpolation σ) (params : Fields) :
    (readStorage.execute interpolate params).Keeps Context.Advances := by
  refine .bind Context.framing_advances ?_ fun key => ?_
  · intro ctx
    cases Parameters.required "ReadStorage" params "key" <;> exact .refl ctx
  · refine .bind Context.framing_advances ?_ fun stored => Context.Advances.refl
    intro ctx
    have hpart := ctx.session.storage.read_partOf
      ((Parameters.text? params "namespace").getD SessionStorage.defaultNamespace) key.toText
      ((Option.map Value.toBool (params.get? "consume")).getD false)
    exact ⟨_, [], hpart, by simp, by simp⟩

end FunctionLibrary

section

variable {σ : Type} {limit : Option Nat} {reader : Executor σ} {R : Context σ → Context σ → Prop}

/-- The steps of an interpolation keep what the interpolation of parts, queueing an action
and the reader keep. -/
theorem Interpolating.keeps (framing : Framing R) {self : Interpolation σ}
    (hself : ∀ v, (self v).Keeps R)
    (hqueue : ∀ effect : Value, effect.isAction → (Eval.queueEffect effect : Eval σ Unit).Keeps R)
    (hread : ∀ params, (reader.execute self params).Keeps R)
    (α : Type) (X : Interpolation σ → Eval σ α) (h : Interpolating limit reader α X) :
    (X self).Keeps R := by
  cases h with
  | value v _ => exact hself v
  | fail => exact framing.refl
  | queue effect heffect => exact hqueue effect heffect
  | read params => exact hread params

theorem Asking.keeps (framing : Framing R) {self : Interpolation σ}
    (hself : ∀ v, (self v).Keeps R)
    (hqueue : ∀ effect : Value, effect.isAction → (Eval.queueEffect effect : Eval σ Unit).Keeps R)
    (hread : ∀ params, (reader.execute self params).Keeps R)
    (α : Type) (X : Interpolation σ → Eval σ α) (h : Asking reader α X) : (X self).Keeps R := by
  cases h with
  | step h => exact h.keeps framing hself hqueue hread
  | ask => exact framing.refl

theorem queueEffect_advances (effect : Value) (h : effect.isAction) :
    (Eval.queueEffect effect : Eval σ Unit).Keeps Context.Advances :=
  fun _ => ⟨_, [effect], .refl _, by simpa using h, rfl⟩

theorem Asking.advances {self : Interpolation σ}
    (hself : ∀ v, (self v).Keeps Context.Advances) (α : Type) (X : Interpolation σ → Eval σ α)
    (h : Asking FunctionLibrary.readStorage α X) :
    (X self).Keeps Context.Advances :=
  h.keeps Context.framing_advances hself queueEffect_advances
    (FunctionLibrary.readStorage_advances self)

end

namespace Engine

variable {σ : Type} {e : Engine σ} {reader : Executor σ} {R : Context σ → Context σ → Prop}

/-- What queueing an action and the reader keep, every interpolation keeps. -/
theorem interpolate_keeps (equipped : e.Equipped reader) (framing : Framing R)
    (hqueue : ∀ effect : Value, effect.isAction →
      (Eval.queueEffect effect : Eval σ Unit).Keeps R)
    (hread : ∀ interpolate : Interpolation σ, (∀ v, (interpolate v).Keeps R) →
      ∀ params, (reader.execute interpolate params).Keeps R)
    (bound : Nat) (v : Value) : (e.interpolate bound v).Keeps R := by
  induction bound generalizing v with
  | zero => exact framing.refl
  | succ bound ih =>
      exact (interpolateWith_assembled equipped v).keeps framing _
        (Asking.keeps framing ih hqueue (hread _ ih))

theorem interpolate_advances (builtIn : e.BuiltIn) (bound : Nat) (v : Value) :
    (e.interpolate bound v).Keeps Context.Advances :=
  interpolate_keeps builtIn.equipped Context.framing_advances queueEffect_advances
    (fun interpolate _ params => FunctionLibrary.readStorage_advances interpolate params)
    bound v

theorem evaluateFieldsWith_advances (builtIn : e.BuiltIn) (bound : Nat) (fields : Fields) :
    (e.evaluateFieldsWith (e.interpolate bound) fields).Keeps Context.Advances := by
  rcases evaluateFieldsWith_assembled builtIn.equipped fields (.inl rfl)
    (Value.within_none _) fun _ _ => Value.within_none _ with h | ⟨name, -, -, h⟩
  · exact h.keeps Context.framing_advances _ fun α X hatom =>
      Asking.advances (interpolate_advances builtIn bound) α X (.step hatom)
  · rw [h]
    exact Context.Advances.refl

/-- Interpolation changes nothing but the session's storage and the queue of effects.
Afterwards the storage is a part of the storage before, and the queue is the queue before
with actions behind it.  The function that reads the storage is alone in taking entries
out: with any other function under its name that leaves the storage alone, interpolation
leaves the storage alone. -/
theorem interpolate_changes_only_storage_and_effects (builtIn : e.BuiltIn) (bound : Nat)
    (v : Value) (ctx : Context σ) :
    (∃ storage effects, storage.PartOf ctx.session.storage ∧
      (∀ effect ∈ effects, effect.isAction) ∧
      ((e.interpolate bound v).on ctx).2 =
        { ctx with
          session := { ctx.session with storage }
          effects := ctx.effects ++ effects }) ∧
    ∀ reader : Executor σ, reader.LeavesStorage →
      let other := { e with functions := e.functions.put FunctionLibrary.readerName reader }
      ((other.interpolate bound v).on ctx).2.session.storage = ctx.session.storage := by
  constructor
  · exact interpolate_advances builtIn bound v ctx
  · intro reader hreader
    exact interpolate_keeps (builtIn.equipped_put reader) Context.framing_sameStorage
      (fun _ _ _ => rfl) hreader bound v ctx

/-- Reading an entry that is cleared after it was read takes it out and nothing else. -/
theorem interpolate_solitary_changes_only_storage :
    let storage := SessionStorage.write {} "default" "code" (.string "4711") true
    let ctx := Context.solitary [] storage
    let v : Value := .string "\x7b\x7bReadStorage:key:code\x7d\x7d"
    let after := (((solitary {}).interpolate 3 v).on ctx).2
    (solitary {}).BuiltIn ∧
      ∃ storage effects, storage.PartOf ctx.session.storage ∧
        (∀ effect ∈ effects, effect.isAction) ∧
        after = { ctx with
          session := { ctx.session with storage }
          effects := ctx.effects ++ effects } :=
  ⟨solitary_builtIn {},
    (interpolate_changes_only_storage_and_effects (solitary_builtIn {}) 3 _ _).1⟩

end Engine
end Dialogue
