import Dialogue.Proofs.Containment

/-!
# Unknown names

A name that nobody knows degrades: a token stays as it is written, a descriptor inside a
template stays as it stands, an action is skipped.  A call of a function that does not
exist, as an entry of a graph, is the exception: it ends the graph with a failure.

`runGraphSkipping` is dispatch without the exception.  No unknown name comes out of it, and
dispatch does the same as long as no graph gets to such an entry:

* `unknown_names_degrade`: dispatch does what `runGraphSkipping` does, or it stops because
  it came to a call of an unknown function,
* `unknown_function_ends_graph`: it does stop there.
-/

namespace Dialogue

variable {σ : Type}

/-- Where the crews follow each other, so do the steps of an action. -/
theorem Acting.follows {d : Director σ} {fields : Fields} {left right : Crew σ}
    {givesUp : Stop → Prop}
    (hresolve : ∀ v, (left.resolve v).Follows givesUp Eq (right.resolve v))
    (hrunGraph : ∀ graph, (left.runGraph graph).Follows givesUp Eq (right.runGraph graph))
    (α : Type) (X : Crew σ → Eval σ α) (h : Acting d fields α X) :
    (X left).Follows givesUp Eq (X right) := by
  cases h with
  | resolve _ v => exact hresolve v
  | runGraph graph => exact hrunGraph graph
  | _ => exact .refl_of_eq _

namespace Engine

variable {e : Engine σ} {givesUp : Stop → Prop}

/-- Runs one entry of a graph, but skips calls of functions that do not exist. -/
def runActionSkipping (e : Engine σ) : Nat → Value → Eval σ Unit
  | 0, _ => Eval.exhausted
  | bound + 1, descriptor =>
    match e.unknownFunction? descriptor with
    | some _ => pure ()
    | none => e.runActionWith (e.interpolate bound) (e.runActionSkipping bound) descriptor

/-- Runs a graph, but skips calls of functions that do not exist. -/
def runGraphSkipping (e : Engine σ) (bound : Nat) (graph : Value) : Eval σ Unit :=
  runGraphWith (e.runActionSkipping bound) graph

/-- Whether an entry of a graph names an action that does not exist. -/
def namesUnknownAction (e : Engine σ) : Value → Bool
  | .object fields =>
    match Value.nameUnder Value.actionKey fields with
    | some action => (e.actions.resolve? action).isNone
    | none => false
  | _ => false

/-- Whether an entry of a graph names an action or a function that does not exist. -/
def isUnknownEntry (e : Engine σ) (entry : Value) : Bool :=
  e.namesUnknownAction entry || (e.unknownFunction? entry).isSome

/-- The stop of a graph that came to a call of an unknown function. -/
def Misses (e : Engine σ) (stop : Stop) : Prop :=
  ∃ name, e.keywords? name = none ∧ stop = .failed (.unknownFunction name)

/-! ## One entry -/

theorem runActionWith_unknownAction {self : Interpolation σ} {run : Value → Eval σ Unit}
    {entry : Value} (h : e.namesUnknownAction entry) :
    e.runActionWith self run entry = pure () := by
  unfold namesUnknownAction at h
  split at h
  · split at h
    · rename_i action haction
      simp only [runActionWith, haction, Option.isNone_iff_eq_none.1 h]
    · cases h
  · cases h

theorem evaluateFieldsWith_unknown {self : Interpolation σ} {fields : Fields} {name : String}
    (hname : Value.nameUnder Value.functionKey fields = some name)
    (hkeywords : e.keywords? name = none) :
    e.evaluateFieldsWith self fields = Eval.fail (.unknownFunction name) := by
  have hlibrary : e.functions.get? name = none := by
    cases h : e.functions.get? name with
    | none => rfl
    | some executor => simp [keywords?, h] at hkeywords
  have hscenario : e.scenario.functions.get? name = none := by
    simpa [keywords?, hlibrary] using hkeywords
  simp only [evaluateFieldsWith, hname, hlibrary, hscenario]

/-- A call of an unknown function drops what is queued and fails. -/
theorem runActionWith_unknownFunction {self : Interpolation σ} {run : Value → Eval σ Unit}
    {entry : Value} {name : String} (h : e.unknownFunction? entry = some name) :
    e.runActionWith self run entry =
      Eval.takeEffects >>= fun _ => Eval.fail (.unknownFunction name) := by
  obtain ⟨fields, rfl, haction, hname, hkeywords⟩ := unknownFunction?_spec h
  have hfunction : (Value.object fields).isFunction := by
    simp [Value.isFunction, Value.fields?, hname]
  simp only [runActionWith, haction, hfunction, if_true, evaluateFieldsWith_unknown hname hkeywords]
  rfl

/-! ## Dispatch with and without the exception -/

theorem flushWith_follows {left right : Value → Eval σ Unit}
    (hrun : ∀ effect, (left effect).Follows givesUp Eq (right effect)) (x : Eval σ Value) :
    (flushWith left x).Follows givesUp Eq (flushWith right x) := by
  rintro ctx _ rfl
  have hrest (outcome : Except Stop Value) :
      (do
        let effects ← Eval.takeEffects
        let value ← Eval.ofOutcome outcome
        effects.forM left
        return value : Eval σ Value).Follows givesUp Eq (do
        let effects ← Eval.takeEffects
        let value ← Eval.ofOutcome outcome
        effects.forM right
        return value) :=
    .bind (.refl_of_eq _) fun effects => .bind (.refl_of_eq _) fun value =>
      .bind (.forM effects hrun) fun _ => .pure value
  exact hrest (x.on ctx).1 _ _ rfl

/-- If what an entry leads to follows, so does the entry, unless an action recovers from what
is given up with. -/
theorem runActionWith_follows (builtIn : e.BuiltIn)
    (hgives : ∀ failure, givesUp (.failed failure) → failure.kind ≠ .transport)
    {left right : Value → Eval σ Unit}
    (hrun : ∀ entry, (left entry).Follows givesUp Eq (right entry)) (self : Interpolation σ)
    (descriptor : Value) :
    (e.runActionWith self left descriptor).Follows givesUp Eq
      (e.runActionWith self right descriptor) := by
  cases descriptor with
  | object fields =>
      simp only [runActionWith]
      split
      · split
        · exact .bind (flushWith_follows hrun _) fun _ => .pure ()
        · exact .pure ()
      · split
        · exact .pure ()
        · rename_i processor hprocessor
          have hcrew : ∀ α X, Acting (e.directorWith self left) fields α X →
              (X (e.directorWith self left).crew).Follows givesUp Eq
                (X (e.directorWith self right).crew) :=
            Acting.follows (fun v => flushWith_follows hrun (self v)) fun graph => .forM _ hrun
          have hprocess := (builtIn.assembles_of_resolve? hprocessor
            (e.directorWith self left) fields).follows twinning_eq hcrew
          refine .recover (fun failure h => ?_) (.withAction twinning_eq _ hprocess) fun _ =>
            .pure ()
          simpa [isTransport] using hgives failure h
  | _ => exact .pure ()

theorem runAction_follows (builtIn : e.BuiltIn) (bound : Nat) (entry : Value) :
    (e.runAction bound entry).Follows e.Misses Eq (e.runActionSkipping bound entry) := by
  induction bound generalizing entry with
  | zero => exact .refl_of_eq _
  | succ bound ih =>
      have hgives : ∀ failure, e.Misses (.failed failure) → failure.kind ≠ .transport := by
        rintro _ ⟨name, -, ⟨⟩⟩
        simp [Failure.kind]
      simp only [runActionSkipping]
      split
      · rename_i name hname
        rintro ctx _ rfl
        obtain ⟨-, -, -, -, hkeywords⟩ := unknownFunction?_spec hname
        -- dispatch stops here, and the other one goes on
        left
        refine ⟨_, ?_, name, hkeywords, rfl⟩
        rw [runAction, runActionWith_unknownFunction hname]
        rfl
      · exact runActionWith_follows builtIn hgives ih _ entry

/-- Dispatch does what it does with the exception left out, or it stops because it came to a
call of an unknown function. -/
theorem runGraph_eq_or_misses (builtIn : e.BuiltIn) (bound : Nat) (graph : Value)
    (ctx : Context σ) :
    (e.runGraph bound graph).on ctx = (e.runGraphSkipping bound graph).on ctx ∨
      ∃ name, e.keywords? name = none ∧
        ((e.runGraph bound graph).on ctx).1 = .error (.failed (.unknownFunction name)) := by
  have hfollows : (e.runGraph bound graph).Follows e.Misses Eq (e.runGraphSkipping bound graph) :=
    .forM _ (runAction_follows builtIn bound)
  rcases hfollows ctx ctx rfl with ⟨_, hstop, name, hname, rfl⟩ | ⟨houtcome, hafter⟩
  · exact .inr ⟨name, hname, hstop⟩
  · exact .inl (Prod.ext houtcome hafter)

/-! ## Dispatch without the exception -/

/-- A stop that is not for an unknown name, unless the host raised it. -/
def Forgives (e : Engine σ) (stop : Stop) : Prop :=
  ∀ failure, stop = .failed failure → failure.kind = .resolution → e.host.Raises failure

theorem Forgives.of_usual {stop : Stop} (h : stop.Usual) : e.Forgives stop := by
  intro failure hstop hkind
  have havoids : stop.Avoids [.resolution] := h.avoids (by decide)
  exact absurd (List.mem_singleton.2 hkind) (havoids failure hstop)

/-- Running an entry never stops for an unknown name if calls of unknown functions are
skipped. -/
theorem runActionSkipping_forgives (builtIn : e.BuiltIn) (bound : Nat) (entry : Value) :
    (e.runActionSkipping bound entry).StopsOnly e.Forgives := by
  induction bound generalizing entry with
  | zero =>
      rintro ctx _ ⟨⟩
      exact .of_usual (.inl rfl)
  | succ bound ih =>
      simp only [runActionSkipping]
      split
      · exact .pure ()
      · rename_i hknown
        have hself (v : Value) : (e.interpolate bound v).StopsOnly e.Forgives :=
          (interpolate_stopsOnly builtIn bound v).mono .of_usual
        refine runActionWith_stopsOnly builtIn hself ih (fun h => .of_usual (.inr h)) ?_ ?_
        · rintro failure hraises - _ ⟨⟩ -
          exact hraises
        · intro name hname
          rw [hknown] at hname
          cases hname

theorem runActionSkipping_unknown {bound : Nat} {entry : Value} (h : e.isUnknownEntry entry) :
    e.runActionSkipping (bound + 1) entry = pure () := by
  simp only [runActionSkipping]
  cases hname : e.unknownFunction? entry with
  | some name => rfl
  | none =>
      simp only [isUnknownEntry, hname, Option.isSome_none, Bool.or_false] at h
      exact runActionWith_unknownAction h

/-- An entry that does nothing can be left out of a graph. -/
theorem runGraphWith_skip {run : Value → Eval σ Unit} {entry : Value} (h : run entry = pure ())
    (before after : List Value) :
    runGraphWith run (.array (before ++ entry :: after)) =
      runGraphWith run (.array (before ++ after)) := by
  simp only [runGraphWith, Value.graphItems, List.forM_eq_forM, List.forM_append, List.forM_cons,
    h, pure_bind]

/-- An entry that stops, whatever was queued, ends its graph. -/
theorem runGraphWith_end {run : Value → Eval σ Unit} {entry : Value} {failure : Failure}
    (h : run entry = Eval.takeEffects >>= fun _ => Eval.fail failure)
    (before after : List Value) :
    runGraphWith run (.array (before ++ entry :: after)) =
      runGraphWith run (.array before) >>= fun _ => Eval.takeEffects >>= fun _ =>
        Eval.fail failure := by
  have hrest : (run entry >>= fun _ => after.forM run) = run entry := by
    rw [h]
    rfl
  simp only [runGraphWith, Value.graphItems, List.forM_eq_forM, List.forM_append, List.forM_cons]
    at hrest ⊢
  rw [hrest, h]

/-! ## Dispatch -/

/-- With calls of unknown functions skipped, dispatch never stops for an unknown name, and
every entry with an unknown name is as good as absent.  Dispatch itself does the same, or it
stops because it came to a call of an unknown function: such an entry ends its graph where
an unknown action is skipped. -/
theorem unknown_names_degrade (builtIn : e.BuiltIn) (bound : Nat) :
    (∀ graph, (e.runGraphSkipping bound graph).StopsOnly e.Forgives) ∧
    (∀ before entry after, e.isUnknownEntry entry →
      e.runGraphSkipping (bound + 1) (.array (before ++ entry :: after)) =
        e.runGraphSkipping (bound + 1) (.array (before ++ after))) ∧
    (∀ graph ctx, (e.runGraph bound graph).on ctx = (e.runGraphSkipping bound graph).on ctx ∨
      ∃ name, e.keywords? name = none ∧
        ((e.runGraph bound graph).on ctx).1 = .error (.failed (.unknownFunction name))) ∧
    (∀ before entry after, e.namesUnknownAction entry →
      e.runGraph (bound + 1) (.array (before ++ entry :: after)) =
        e.runGraph (bound + 1) (.array (before ++ after))) ∧
    ∀ before entry after name, e.unknownFunction? entry = some name →
      e.runGraph (bound + 1) (.array (before ++ entry :: after)) =
        e.runGraph (bound + 1) (.array before) >>= fun _ => Eval.takeEffects >>= fun _ =>
          Eval.fail (.unknownFunction name) := by
  refine ⟨fun graph => ?_, fun before entry after h => ?_, runGraph_eq_or_misses builtIn bound,
    fun before entry after h => ?_, fun before entry after name h => ?_⟩
  · exact .forM _ (runActionSkipping_forgives builtIn bound)
  · exact runGraphWith_skip (runActionSkipping_unknown h) before after
  · exact runGraphWith_skip (runActionWith_unknownAction h) before after
  · exact runGraphWith_end (runActionWith_unknownFunction h) before after

/-- An entry that stores a flag. -/
def storing (key : String) : Value :=
  .object [("action", .string "Store"), ("key", .string key), ("value", .bool true)]

/-- An unknown action between two others. -/
theorem unknown_action_is_skipped :
    let lost : Value := .object [("action", .string "Dance")]
    (solitary {}).BuiltIn ∧ (solitary {}).namesUnknownAction lost ∧
      (solitary {}).runGraph 3 (.array [storing "before", lost, storing "after"]) =
        (solitary {}).runGraph 3 (.array [storing "before", storing "after"]) := by
  intro lost
  obtain ⟨-, -, -, hskip, -⟩ := unknown_names_degrade (solitary_builtIn {}) 2
  have hlost : (solitary {}).namesUnknownAction lost := by rfl
  exact ⟨solitary_builtIn {}, hlost, hskip [storing "before"] lost [storing "after"] hlost⟩

/-- A call of an unknown function ends its graph with a failure that names it, and what
follows does not run. -/
theorem unknown_function_ends_graph :
    let lost : Value := .object [("function", .string "Missing")]
    let run := (solitary {}).runGraph 3 (.array [lost, storing "said"])
    (solitary {}).BuiltIn ∧ (solitary {}).checked = .ok (solitary {}) ∧
      ¬ run.StopsOnly (Stop.Avoids [.resolution]) ∧
      run ≠ (solitary {}).runGraph 3 (.array [storing "said"]) := by
  have hrun : (((solitary {}).runGraph 3 (.array
      [.object [("function", .string "Missing")], storing "said"])).on (Context.solitary [])).1 =
        .error (.failed (.unknownFunction "Missing")) := by
    cbv
  have hstored : (((solitary {}).runGraph 3 (.array [storing "said"])).on
      (Context.solitary [])).1 = .ok () := by
    cbv
  have hchecked : (solitary {}).checked = .ok (solitary {}) := by rfl
  refine ⟨solitary_builtIn {}, hchecked, fun havoids => ?_, fun hsame => ?_⟩
  · have hkind := havoids _ _ hrun _ rfl
    exact hkind (List.mem_singleton.2 rfl)
  · rw [hsame, hstored] at hrun
    cases hrun

end Engine
end Dialogue
