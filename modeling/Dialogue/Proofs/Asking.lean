import Dialogue.Proofs.Containment
import Dialogue.Proofs.Reading

/-!
# Requests that fail

A request for input reads the fields that say what to wait for, arms the wait with its timer,
and then shows the prompt.  The fields of the prompt are read only then.

* `Input.request_eq`: the three parts of a request.
* `Input.request_is_atomic_until_armed`: a request that fails in its first part leaves waits and
  timers alone; once the wait is armed no failure takes it back.
* `Input.invalid_buttons_replace_wait`: a request that is refused for its buttons has replaced the
  wait that was pending.
-/

namespace Dialogue

variable {σ : Type}

/-- The context in which a request has armed its wait and set its timer. -/
def Context.armed (ctx : Context σ) (request : InputRequest) : Context σ :=
  ((Input.arm request).on ctx).2

/-- Arming replaces what is pending by a wait of a later generation. -/
theorem Context.not_sameWaits_armed (ctx : Context σ) (request : InputRequest) :
    ¬ ctx.SameWaits (ctx.armed request) := by
  rintro ⟨hawaiting, -⟩
  exact Nat.succ_ne_self _ (congrArg Awaiting.generation hawaiting)

namespace Input

/-- What the fields of a request ask for. -/
structure Question where
  request : InputRequest
  prompt : Option String
  cancelText : Option String

/-- Reads the fields that say what to wait for. -/
def question (f : ActionFields σ) : Eval σ Question := do
  let key ← f.requiredText "key"
  let inputKind ← inputKind f
  let prompt ← prompt? f
  let cancelText ← f.text? "cancelText"
  let allowAttachments ← f.flag "allowAttachments" false
  let clearAfter ← f.flag "clearAfter" false
  let timeout ← f.seconds? "timeout"
  return {
    request := { key, inputKind, onDone := f.graph "onDone", onCancel := f.graph "onCancel",
                 allowAttachments, clearAfter, timeout }
    prompt, cancelText }

/-- Shows the prompt of a question, if it has one. -/
def present (f : ActionFields σ) (q : Question) : Eval σ Unit :=
  match q.prompt with
  | none => return ()
  | some text => showPrompt f text q.cancelText

/-- A request asks, arms and shows. -/
theorem request_eq (f : ActionFields σ) :
    request f = question f >>= fun q => arm q.request >>= fun _ => present f q := by
  simp only [request, question, bind_assoc, pure_bind]
  rfl

section

variable {d : Director σ} {atom : ∀ α : Type, (Crew σ → Eval σ α) → Prop} (action : String)
  (fields : Fields)

theorem question_composed [ReadingSteps fields atom] :
    Composed atom fun crew => question ⟨action, d.withCrew crew, fields⟩ := by
  simp only [question, ActionFields.graph]
  refine .bind (ActionFields.requiredText_composed _ fields _ (by decide)) fun key => ?_
  refine .bind (inputKind_composed _ fields) fun inputKind => ?_
  refine .bind (prompt?_composed _ fields) fun prompt => ?_
  refine .bind (ActionFields.text?_composed _ fields _ (by decide)) fun cancelText => ?_
  refine .bind (ActionFields.flag_composed _ fields _ _ (by decide)) fun allowAttachments => ?_
  refine .bind (ActionFields.flag_composed _ fields _ _ (by decide)) fun clearAfter => ?_
  exact .bind (ActionFields.seconds?_composed _ fields _ (by decide)) fun timeout => .done _

theorem present_composed [ShowingSteps d fields atom] (q : Question) :
    Composed atom fun crew => present ⟨action, d.withCrew crew, fields⟩ q := by
  cases hprompt : q.prompt with
  | none => simpa only [present, hprompt] using .done ()
  | some text =>
      simpa only [present, hprompt] using showPrompt_composed action fields text q.cancelText

end

/-- A prompt whose options were read fails only if the host fails to send it. -/
theorem showPrompt_fails {f : ActionFields σ} {text : String} {cancelText : Option String}
    {ctx : Context σ} {failure : Failure}
    (h : ((showPrompt f text cancelText).on ctx).1 = .error (.failed failure)) :
    f.director.host.Raises failure ∨ (f.outputOptions.on ctx).1 = .error (.failed failure) := by
  have hsend (options : OutputOptions) : (f.director.send text options >>= fun message =>
      Eval.updateSession fun session => session.rememberMessage none message).StopsOnly
        fun stop => ∃ failure, stop = .failed failure ∧ f.director.host.Raises failure := by
    refine .bind ?_ fun message ctx stop hstop => nomatch hstop
    exact Director.onHost_stopsOnly fun _ _ failure hraised => ⟨failure, rfl, .send hraised⟩
  unfold showPrompt at h
  rw [Eval.on_bind] at h
  split at h
  · left
    have hstop : ∃ other, Stop.failed failure = .failed other ∧ f.director.host.Raises other := by
      cases cancelText with
      | none => exact hsend _ _ _ h
      | some cancelText => exact hsend _ _ _ h
    obtain ⟨_, ⟨⟩, hraised⟩ := hstop
    exact hraised
  · rename_i stop hstop
    right
    rw [hstop, Except.error.inj h]

variable {e : Engine σ} {bound : Nat} {fields : Fields} {ctx : Context σ}

/-- What a request comes to whose fields queue nothing: its question is refused, and with it the
request; or the wait is armed, whatever becomes of the prompt. -/
theorem request_cases (builtIn : e.BuiltIn)
    (hquiet : e.QueuesNothing bound (fun d => request ⟨"RequestInput", d, fields⟩) ctx)
    (heffects : ctx.effects = []) :
    let f : ActionFields σ := ⟨"RequestInput", e.director bound, fields⟩
    (∃ failure after, (question f).on ctx = (.error (.failed failure), after) ∧
      (request f).on ctx = (.error (.failed failure), after) ∧ ctx.SameWaits after) ∨
    ∃ q between, (question f).on ctx = (.ok q, between) ∧
      (request f).on ctx = (present f q).on (between.armed q.request) ∧
      (ctx.armed q.request).SameWaits ((request f).on ctx).2 := by
  intro f
  have hparts : e.QueuesNothing bound (fun d => question ⟨"RequestInput", d, fields⟩ >>= fun q =>
      arm q.request >>= fun _ => present ⟨"RequestInput", d, fields⟩ q) ctx := by
    simpa only [request_eq] using hquiet
  have hread := hparts.of_bind
  obtain ⟨storage, -, hafter⟩ :=
    hread.onlyTakes builtIn (question_composed "RequestInput" fields) heffects
  have hidle := hread.on_eq (question_composed "RequestInput" fields)
  rcases hquestion : (question f).on ctx with ⟨stop | q, between⟩
  · left
    rw [hquestion] at hafter hidle
    cases stop with
    | exhausted => exact absurd (congrArg Prod.fst hidle).symm hread
    | failed failure =>
        have hresult : (request f).on ctx = (.error (.failed failure), between) := by
          rw [request_eq, Eval.on_bind_error hquestion]
        refine ⟨failure, between, rfl, hresult, ?_⟩
        rw [show between = _ from hafter]
        exact ⟨rfl, rfl⟩
  · right
    rw [hquestion] at hafter hidle
    have harmed : (arm q.request).on between = (.ok (), between.armed q.request) := rfl
    have hresult : (request f).on ctx = (present f q).on (between.armed q.request) := by
      rw [request_eq, Eval.on_bind_ok hquestion, Eval.on_bind_ok harmed]
    refine ⟨q, between, rfl, hresult, ?_⟩
    -- reading changed nothing that arming looks at
    have hsame : (ctx.armed q.request).SameWaits (between.armed q.request) := by
      rw [show between = _ from hafter]
      exact ⟨rfl, rfl⟩
    have hpresent := (hparts.bind_ok hidle.symm).bind_ok harmed
    rw [hresult]
    exact hsame.trans (hpresent.sameWaits builtIn (present_composed "RequestInput" fields q))

/-- A request whose fields queue no effects leaves the wait of its session and all timers as they
were if one of the fields that say what to wait for is refused.  Otherwise it replaces the wait
that was pending and sets its timer, and this stays so even if it fails: with what parse mode,
buttons or attachments were refused for, or with what the host raised.  So a request that fails
is without consequence for waits exactly if it failed before the wait was armed. -/
theorem request_is_atomic_until_armed (builtIn : e.BuiltIn) (bound : Nat) (fields : Fields)
    (ctx : Context σ) (heffects : ctx.effects = [])
    (hquiet : e.QueuesNothing bound (fun d => request ⟨"RequestInput", d, fields⟩) ctx) :
    let f : ActionFields σ := ⟨"RequestInput", e.director bound, fields⟩
    let asked := (question f).on ctx
    let result := (request f).on ctx
    (∀ failure, asked.1 = .error (.failed failure) →
      result = (.error (.failed failure), asked.2) ∧ ctx.SameWaits result.2) ∧
    (∀ q, asked.1 = .ok q →
      (ctx.armed q.request).SameWaits result.2 ∧ ¬ ctx.SameWaits result.2 ∧
      (q.prompt = none → result.1 = .ok ()) ∧
      ∀ failure, result.1 = .error (.failed failure) → e.host.Raises failure ∨
        (f.outputOptions.on (asked.2.armed q.request)).1 = .error (.failed failure)) ∧
    ∀ failure, result.1 = .error (.failed failure) →
      (ctx.SameWaits result.2 ↔ asked.1 = .error (.failed failure)) := by
  intro f asked result
  rcases request_cases builtIn hquiet heffects with
    ⟨failure, after, hasked, hresult, hsame⟩ | ⟨q, between, hasked, hresult, harmed⟩
  · replace hasked : asked = (.error (.failed failure), after) := hasked
    replace hresult : result = (.error (.failed failure), after) := hresult
    rw [hasked, hresult]
    refine ⟨?_, ?_, ?_⟩
    · rintro _ ⟨⟩
      exact ⟨rfl, hsame⟩
    · rintro _ ⟨⟩
    · rintro _ ⟨⟩
      exact ⟨fun _ => rfl, fun _ => hsame⟩
  · replace hasked : asked = (.ok q, between) := hasked
    have hnew : ¬ ctx.SameWaits result.2 := fun h =>
      ctx.not_sameWaits_armed q.request
        ⟨harmed.1.symm.trans h.1, harmed.2.symm.trans h.2⟩
    rw [hasked]
    have hlate (failure : Failure) : ctx.SameWaits result.2 ↔
        (Except.ok q : Except Stop Question) = .error (.failed failure) :=
      ⟨fun h => absurd h hnew, fun h => nomatch h⟩
    refine ⟨by rintro _ ⟨⟩, ?_, fun failure _ => hlate failure⟩
    rintro _ ⟨⟩
    refine ⟨harmed, hnew, fun hprompt => ?_, fun failure hfailure => ?_⟩
    · change ((request f).on ctx).1 = _
      rw [hresult, present, hprompt]
      rfl
    · replace hfailure : ((request f).on ctx).1 = .error (.failed failure) := hfailure
      rw [hresult] at hfailure
      cases hprompt : q.prompt with
      | none =>
          rw [present, hprompt] at hfailure
          cases hfailure
      | some text =>
          rw [present, hprompt] at hfailure
          exact showPrompt_fails hfailure

/-- The fields of a request for an answer. -/
def asking (key : String) (more : Fields) : Fields :=
  [("action", .string "RequestInput"), ("key", .string key)] ++ more

/-- A session that waits for an answer. -/
def waitingFor (key : String) : Context Unit := (Context.solitary []).armed { key }

/-- A request for an unknown kind of input leaves the wait that is pending alone, also if its
buttons are no buttons. -/
theorem unknown_kind_keeps_wait :
    let fields := asking "second" [("inputType", .string "picture"), ("text", .string "Second?"),
      ("buttons", .string "none")]
    let result := (request ⟨"RequestInput", (Engine.solitary {}).director 2, fields⟩).on
      (waitingFor "first")
    (Engine.solitary {}).BuiltIn ∧ (waitingFor "first").effects = [] ∧
      (Engine.solitary {}).QueuesNothing 2 (fun d => request ⟨"RequestInput", d, fields⟩)
        (waitingFor "first") ∧
      result.1 = .error (.failed (.unknownInputType "picture")) ∧
      (waitingFor "first").SameWaits result.2 := by
  intro fields result
  have hquiet : (Engine.solitary {}).QueuesNothing 2
      (fun d => request ⟨"RequestInput", d, fields⟩) (waitingFor "first") :=
    .of_failed (.unknownInputType "picture") (by cbv)
  have hasked : ((question ⟨"RequestInput", (Engine.solitary {}).director 2, fields⟩).on
      (waitingFor "first")).1 = .error (.failed (.unknownInputType "picture")) := by
    cbv
  obtain ⟨hrefused, -, -⟩ := request_is_atomic_until_armed (Engine.solitary_builtIn {}) 2 fields
    (waitingFor "first") rfl hquiet
  obtain ⟨hresult, hsame⟩ := hrefused _ hasked
  exact ⟨Engine.solitary_builtIn {}, rfl, hquiet, congrArg Prod.fst hresult, hsame⟩

/-- A request is refused for its buttons when it has replaced the wait that was pending: the
first wait is gone, and the second is pending without having been shown to anybody. -/
theorem invalid_buttons_replace_wait :
    let fields := asking "second" [("text", .string "Second?"), ("buttons", .string "none")]
    let refused : Failure := .invalidField "RequestInput" "buttons" "a list of rows"
    let result := ((Engine.solitary {}).runAction 3 (.object fields)).on (waitingFor "first")
    (waitingFor "first").effects = [] ∧
      (Engine.solitary {}).QueuesNothing 2 (fun d => request ⟨"RequestInput", d, fields⟩)
        (waitingFor "first") ∧
      result.1 = .error (.failed refused) ∧ refused.kind = .evaluation ∧
      (waitingFor "first").session.awaiting.pending.map PendingInput.key = some "first" ∧
      result.2.session.awaiting.pending.map PendingInput.key = some "second" ∧
      ¬ (waitingFor "first").SameWaits result.2 := by
  intro fields refused result
  have hpending : (((Engine.solitary {}).runAction 3 (.object fields)).on
      (waitingFor "first")).2.session.awaiting.pending.map PendingInput.key = some "second" := by
    cbv
  have hrefused : (((Engine.solitary {}).runAction 3 (.object fields)).on
      (waitingFor "first")).1 = .error (.failed refused) := by
    cbv
  refine ⟨rfl, .of_failed refused (by cbv), hrefused, rfl, rfl, hpending, fun hsame => ?_⟩
  replace hpending : result.2.session.awaiting.pending.map PendingInput.key = some "second" :=
    hpending
  rw [hsame.1] at hpending
  exact absurd hpending (by decide)

end Input
end Dialogue
