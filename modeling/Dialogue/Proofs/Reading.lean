import Dialogue.Proofs.Actions
import Dialogue.Proofs.Frame

/-!
# Reading fields

An action reads the fields of its descriptor before it does anything else.  Functions among
them may queue effects, and these can be any actions.  Where they queue none, reading needs
nobody to dispatch effects, and then it does next to nothing.

* `Engine.idle`, `Engine.QueuesNothing`: a director that dispatches nothing, and evaluations that
  do not need more.
* `Engine.QueuesNothing.on_eq`: such an evaluation does the same whoever dispatches.
* `Engine.QueuesNothing.onlyTakes`: reading fields that queue nothing changes the session's storage
  at most, and only takes entries out.
* `Engine.QueuesNothing.sameWaits`: showing a message whose fields queue nothing leaves the
  session's wait and all timers alone.
-/

namespace Dialogue

variable {σ : Type}

/-- The steps in which an action reads its fields. -/
inductive Reading (fields : Fields) : ∀ α : Type, (Crew σ → Eval σ α) → Prop
  | resolve (name : String) (v : Value) (hname : name ∉ ActionFields.graphNames)
      (h : fields.get? name = some v) : Reading fields Value fun crew => crew.resolve v
  | fail {α : Type} (failure : Failure) (h : failure.kind = .evaluation) :
      Reading fields α fun _ => Eval.fail failure

theorem Reading.acting {d : Director σ} {fields : Fields} (α : Type) (X : Crew σ → Eval σ α)
    (h : Reading fields α X) : Acting d fields α X := by
  cases h with
  | resolve name v hname h => exact .resolve name v hname h
  | fail failure h => exact .fail failure h

instance {fields : Fields} : ReadingSteps fields (@Reading σ fields) where
  resolve := .resolve
  fail := .fail

/-- The steps in which an action reads its fields and shows a message. -/
inductive Showing (d : Director σ) (fields : Fields) : ∀ α : Type, (Crew σ → Eval σ α) → Prop
  | read {α : Type} {X : Crew σ → Eval σ α} (h : Reading fields α X) : Showing d fields α X
  | callback (graph : Value) (params : Fields) :
      Showing d fields String fun _ => Eval.insertOwnCallback graph params
  | post (name : Option String) (text : String) (options : OutputOptions) :
      Showing d fields MessageId fun _ => d.post name text options

theorem Showing.acting {d : Director σ} {fields : Fields} (α : Type) (X : Crew σ → Eval σ α)
    (h : Showing d fields α X) : Acting d fields α X := by
  cases h with
  | read h => exact h.acting
  | callback graph params => exact .callback graph params
  | post name text options => exact .post name text options

instance {d : Director σ} {fields : Fields} : ShowingSteps d fields (Showing d fields) where
  resolve name v hname h := .read (.resolve name v hname h)
  fail failure h := .read (.fail failure h)
  callback := .callback
  post := .post

namespace Context

/-- From a context in which nothing is queued, nothing changes but the storage, and entries are
only taken out of it. -/
def OnlyTakes (before after : Context σ) : Prop :=
  before.effects = [] → ∃ storage, storage.PartOf before.session.storage ∧
    after = { before with session := { before.session with storage } }

theorem framing_onlyTakes : Framing (OnlyTakes : Context σ → Context σ → Prop) where
  refl ctx _ := ⟨ctx.session.storage, .refl _, rfl⟩
  trans := by
    intro before between after hfirst hsecond heffects
    obtain ⟨storage, hstorage, rfl⟩ := hfirst heffects
    obtain ⟨later, hlater, rfl⟩ := hsecond heffects
    exact ⟨later, hlater.trans hstorage, rfl⟩
  locals := by
    intro ctx after locals h heffects
    obtain ⟨storage, hstorage, rfl⟩ := h heffects
    exact ⟨storage, hstorage, by simp⟩
  action := by
    intro ctx after fields h heffects
    obtain ⟨storage, hstorage, rfl⟩ := h heffects
    exact ⟨storage, hstorage, by simp⟩
  params := by
    intro ctx after params h heffects
    obtain ⟨storage, hstorage, rfl⟩ := h heffects
    exact ⟨storage, hstorage, rfl⟩

/-- The session waits for the same, and the same is on the agenda. -/
def SameWaits (before after : Context σ) : Prop :=
  after.session.awaiting = before.session.awaiting ∧ after.agenda = before.agenda

theorem SameWaits.refl (ctx : Context σ) : ctx.SameWaits ctx := ⟨rfl, rfl⟩

theorem SameWaits.trans {before between after : Context σ} (hfirst : before.SameWaits between)
    (hsecond : between.SameWaits after) : before.SameWaits after :=
  ⟨hsecond.1.trans hfirst.1, hsecond.2.trans hfirst.2⟩

theorem framing_sameWaits : Framing (SameWaits : Context σ → Context σ → Prop) where
  refl := .refl
  trans := .trans
  locals _ h := h
  action _ h := h
  params _ h := h

end Context

/-- Crews of which one gives up more often than the other. -/
theorem Acting.below {d : Director σ} {fields : Fields} {lower upper : Crew σ}
    (hresolve : ∀ v, (lower.resolve v).Below (upper.resolve v))
    (hrunGraph : ∀ graph, (lower.runGraph graph).Below (upper.runGraph graph))
    (α : Type) (X : Crew σ → Eval σ α) (h : Acting d fields α X) : (X lower).Below (X upper) := by
  cases h with
  | resolve _ v => exact hresolve v
  | runGraph graph => exact hrunGraph graph
  | _ => exact .refl _

namespace Engine

variable {e : Engine σ} {α : Type}

/-- The director of the engine, with nobody to dispatch effects or to run graphs. -/
def idle (e : Engine σ) (bound : Nat) : Director σ :=
  e.directorWith (e.interpolate bound) fun _ => Eval.exhausted

/-- What is done with the director queues no effects and runs no graphs, as nobody is needed to
dispatch them. -/
def QueuesNothing (e : Engine σ) (bound : Nat) (run : Director σ → Eval σ α)
    (ctx : Context σ) : Prop :=
  ((run (e.idle bound)).on ctx).1 ≠ .error .exhausted

/-- What fails while nobody dispatches did not need to have anything dispatched. -/
theorem QueuesNothing.of_failed {bound : Nat} {run : Director σ → Eval σ α} {ctx : Context σ}
    (failure : Failure) (h : ((run (e.idle bound)).on ctx).1 = .error (.failed failure)) :
    e.QueuesNothing bound run ctx := by
  unfold QueuesNothing
  rw [h]
  exact fun hstop => nomatch hstop

theorem forM_exhausted_below (run : Value → Eval σ Unit) (items : List Value) :
    (items.forM fun _ => (Eval.exhausted : Eval σ Unit)).Below (items.forM run) :=
  Eval.Below.iff_follows.2 <| .forM items fun item =>
    Eval.Below.iff_follows.1 (.exhausted (run item))

theorem flushWith_exhausted_below (run : Value → Eval σ Unit) (x : Eval σ Value) :
    (flushWith (fun _ => Eval.exhausted) x).Below (flushWith run x) := by
  intro ctx
  unfold flushWith
  rw [Eval.on_thenAlways, Eval.on_thenAlways]
  -- both take the queue and differ only in what they do with it
  refine Eval.Below.iff_follows.2 (.bind (.refl_of_eq _) fun effects => ?_) _
  refine .bind (.refl_of_eq _) fun v => ?_
  refine .bind ?_ fun _ => .pure v
  exact Eval.Below.iff_follows.1 (forM_exhausted_below run effects)

/-- An idle crew gives up where another one has something to dispatch. -/
theorem idle_below (bound : Nat) {d : Director σ} {fields : Fields} {X : Crew σ → Eval σ α}
    (hX : Composed (Acting d fields) X) :
    (X (e.idle bound).crew).Below (X (e.director bound).crew) :=
  hX.assembled.monotone (Acting.below (fun _ => flushWith_exhausted_below _ _)
    fun graph => forM_exhausted_below _ graph.graphItems)

/-- An evaluation that queues nothing does the same whoever dispatches. -/
theorem QueuesNothing.on_eq {bound : Nat} {run : Director σ → Eval σ α} {ctx : Context σ}
    (h : e.QueuesNothing bound run ctx) {fields : Fields}
    (hcomposed : Composed (Acting (e.director bound) fields) fun crew =>
      run ((e.director bound).withCrew crew)) :
    (run (e.director bound)).on ctx = (run (e.idle bound)).on ctx :=
  (idle_below bound hcomposed).on_eq h

/-- If a sequence queues nothing, its first part does not. -/
theorem QueuesNothing.of_bind {β : Type} {bound : Nat} {run : Director σ → Eval σ α}
    {next : α → Director σ → Eval σ β} {ctx : Context σ}
    (h : e.QueuesNothing bound (fun d => run d >>= fun a => next a d) ctx) :
    e.QueuesNothing bound run ctx := by
  intro hexhausted
  refine h ?_
  rw [Eval.on_bind, hexhausted]

/-- If a sequence queues nothing, what comes after its first part does not. -/
theorem QueuesNothing.bind_ok {β : Type} {bound : Nat} {run : Director σ → Eval σ α}
    {next : α → Director σ → Eval σ β} {ctx between : Context σ} {a : α}
    (h : e.QueuesNothing bound (fun d => run d >>= fun a => next a d) ctx)
    (ha : (run (e.idle bound)).on ctx = (.ok a, between)) :
    e.QueuesNothing bound (next a) between := by
  intro hexhausted
  refine h ?_
  rw [Eval.on_bind_ok ha, hexhausted]

/-- Where nothing can be dispatched the queue is dropped. -/
theorem snd_flushWith_exhausted (x : Eval σ Value) (ctx : Context σ) :
    ((flushWith (fun _ => Eval.exhausted) x).on ctx).2 = { (x.on ctx).2 with effects := [] } := by
  unfold flushWith
  rw [Eval.on_thenAlways, Eval.on_bind_ok (Eval.on_takeEffects _), Eval.on_bind]
  cases (x.on ctx).1 with
  | error stop => rfl
  | ok v =>
      change ((_ >>= fun _ => pure v : Eval σ Value).on _).2 = _
      rw [Eval.snd_on_map]
      cases (x.on ctx).2.effects <;> rfl

/-- Resolving a value queues nothing if it is complete within the bound and left the queue empty, or
failed: the queue of a value that fails is dropped. -/
theorem queuesNothing_resolve_iff (bound : Nat) (v : Value) (ctx : Context σ) :
    e.QueuesNothing bound (fun d => d.resolve v) ctx ↔
      ((e.interpolate bound v).on ctx).1 ≠ .error .exhausted ∧
      ∀ w, ((e.interpolate bound v).on ctx).1 = .ok w →
        ((e.interpolate bound v).on ctx).2.effects = [] := by
  change ((flushWith _ (e.interpolate bound v)).on ctx).1 ≠ _ ↔ _
  unfold flushWith
  rw [Eval.on_thenAlways, Eval.on_bind_ok (Eval.on_takeEffects _)]
  cases (e.interpolate bound v).on ctx with
  | mk outcome after =>
      cases outcome with
      | error stop => simp [Eval.ofOutcome]
      | ok w =>
          cases hqueue : after.effects with
          | nil => simp [Eval.ofOutcome]
          | cons effect rest => simp [Eval.ofOutcome, Eval.on_bind]

theorem resolve_idle (builtIn : e.BuiltIn) (bound : Nat) (v : Value) (ctx : Context σ) :
    ∃ storage, storage.PartOf ctx.session.storage ∧ (((e.idle bound).resolve v).on ctx).2 =
      { ctx with session := { ctx.session with storage }, effects := [] } := by
  obtain ⟨storage, effects, hstorage, -, hafter⟩ := interpolate_advances builtIn bound v ctx
  refine ⟨storage, hstorage, (snd_flushWith_exhausted _ _).trans ?_⟩
  rw [hafter]

/-- Fields that queue nothing are read without any change but to the storage. -/
theorem QueuesNothing.onlyTakes (builtIn : e.BuiltIn) {bound : Nat} {run : Director σ → Eval σ α}
    {ctx : Context σ} (h : e.QueuesNothing bound run ctx) {fields : Fields}
    (hreads : Composed (Reading fields) fun crew => run ((e.director bound).withCrew crew)) :
    ctx.OnlyTakes ((run (e.director bound)).on ctx).2 := by
  rw [h.on_eq (hreads.mono Reading.acting)]
  refine hreads.assembled.keeps Context.framing_onlyTakes (e.idle bound).crew ?_ ctx
  intro β Y hatom
  cases hatom with
  | fail => exact Context.framing_onlyTakes.refl
  | resolve _ v =>
      intro ctx heffects
      obtain ⟨storage, hstorage, hafter⟩ := resolve_idle builtIn bound v ctx
      refine ⟨storage, hstorage, hafter.trans ?_⟩
      rw [← heffects]

/-- A message whose fields queue nothing is shown without touching any wait or timer. -/
theorem QueuesNothing.sameWaits (builtIn : e.BuiltIn) {bound : Nat} {run : Director σ → Eval σ α}
    {ctx : Context σ} (h : e.QueuesNothing bound run ctx) {fields : Fields}
    (hshows : Composed (Showing (e.director bound) fields) fun crew =>
      run ((e.director bound).withCrew crew)) :
    ctx.SameWaits ((run (e.director bound)).on ctx).2 := by
  rw [h.on_eq (hshows.mono Showing.acting)]
  refine hshows.assembled.keeps Context.framing_sameWaits (e.idle bound).crew ?_ ctx
  intro β Y hatom
  cases hatom with
  | callback => exact fun ctx => ⟨rfl, rfl⟩
  | post name text options =>
      refine .bind Context.framing_sameWaits ?_ fun message ctx => ⟨rfl, rfl⟩
      refine .bind Context.framing_sameWaits (fun ctx => ⟨rfl, rfl⟩) fun result => ?_
      cases result <;> exact Context.framing_sameWaits.refl
  | read h =>
      cases h with
      | fail => exact Context.framing_sameWaits.refl
      | resolve _ v =>
          intro ctx
          obtain ⟨storage, -, hafter⟩ := resolve_idle builtIn bound v ctx
          exact ⟨congrArg (·.session.awaiting) hafter, congrArg (·.agenda) hafter⟩

end Engine
end Dialogue
