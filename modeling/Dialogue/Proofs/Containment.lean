import Dialogue.Proofs.Dispatch
import Dialogue.Proofs.Failures

/-!
# Which failures come to the surface

A failure of the transport ends the action that met it, a timeout belongs to the endpoint
call that met it, and an unknown name is recovered from by the interpolation that met it.
`Surfaces` lists what is left: the only stops that dispatch can come to.  The list is
proved for one entry of a graph, by induction on the bound; everything that runs graphs
inherits it.
-/

namespace Dialogue

variable {σ : Type}

/-- Sending, editing or deleting a message can end with the failure. -/
inductive Host.Raises (host : Host σ) (failure : Failure) : Prop
  | send {outside : σ} {id text : String} {options : OutputOptions}
      (h : (host.send outside id text options).1 = .error failure) : Host.Raises host failure
  | edit {outside : σ} {id text : String} {message : MessageId} {options : OutputOptions}
      (h : (host.edit outside id message text options).1 = .error failure) :
      Host.Raises host failure
  | delete {outside : σ} {id : String} {message : MessageId}
      (h : (host.delete outside id message).1 = .error failure) : Host.Raises host failure

namespace Stop

/-- A stop that is not a failure of one of the kinds. -/
def Avoids (kinds : List FailureKind) (stop : Stop) : Prop :=
  ∀ failure, stop = .failed failure → failure.kind ∉ kinds

theorem Usual.avoids {stop : Stop} (h : stop.Usual) {kinds : List FailureKind}
    (hkinds : FailureKind.evaluation ∉ kinds) : stop.Avoids kinds := by
  rintro failure rfl
  rcases h with h | ⟨other, hother, hkind⟩
  · cases h
  · cases hother
    rw [hkind]
    exact hkinds

/-- A stop with a failure of the transport. -/
def Transports (stop : Stop) : Prop :=
  ∃ failure, stop = .failed failure ∧ failure.kind = .transport

end Stop

/-- An operation of the host stops with a failure that the host raised. -/
theorem Director.onHost_stopsOnly {α : Type} {P : Stop → Prop}
    {operation : σ → String → Except Failure α × σ}
    (h : ∀ outside id failure, (operation outside id).1 = .error failure → P (.failed failure)) :
    (Director.onHost operation).StopsOnly P := by
  intro ctx stop hstop
  change ((Eval.ofExcept (operation ctx.outside ctx.session.id).1 : Eval σ α).on _).1 =
    .error stop at hstop
  cases hresult : (operation ctx.outside ctx.session.id).1 with
  | ok a =>
      rw [hresult] at hstop
      cases hstop
  | error failure =>
      rw [hresult] at hstop
      cases hstop
      exact h _ _ failure hresult

theorem Director.delete_stopsOnly {d : Director σ} {P : Stop → Prop}
    (hhost : ∀ failure, d.host.Raises failure → P (.failed failure)) (message : MessageId) :
    (d.delete message).StopsOnly P := by
  refine .bind (.recover _ ?_ fun _ => .pure ()) fun _ _ _ hstop => nomatch hstop
  exact onHost_stopsOnly fun _ _ failure h => hhost failure (.delete h)

/-- The steps of an action stop as its crew does, with failures of evaluation, or with what
the host raises. -/
theorem Acting.stopsOnly {d : Director σ} {fields : Fields} {crew : Crew σ} {P : Stop → Prop}
    (hresolve : ∀ v, (crew.resolve v).StopsOnly P)
    (hrunGraph : ∀ graph, (crew.runGraph graph).StopsOnly P)
    (hreported : ∀ {stop : Stop}, stop.Reported → P stop)
    (hhost : ∀ failure, d.host.Raises failure → P (.failed failure))
    (α : Type) (X : Crew σ → Eval σ α) (h : Acting d fields α X) : (X crew).StopsOnly P := by
  cases h with
  | resolve _ v => exact hresolve v
  | runGraph graph => exact hrunGraph graph
  | fail failure hkind => exact (Eval.fail_reports hkind).mono hreported
  | save path v failure hkind => exact (Eval.saveData_reports path v hkind).mono hreported
  | post =>
      refine .bind ?_ fun _ _ _ hstop => nomatch hstop
      exact Director.onHost_stopsOnly fun _ _ failure h => hhost failure (.send h)
  | edit =>
      refine .recover _ ?_ fun _ _ _ hstop => nomatch hstop
      exact Director.onHost_stopsOnly fun _ _ failure h => hhost failure (.edit h)
  | delete message => exact Director.delete_stopsOnly hhost message
  | sweep message =>
      exact .recover _ (Director.delete_stopsOnly hhost message) fun _ => .pure ()
  | ask | reset | navigate | back | write | read | remove | arm | cancel | callback | perform => exact fun _ _ hstop => nomatch hstop

namespace Engine

variable {e : Engine σ}

/-- The name of the function that an entry of a graph calls, if there is no such
function. -/
def unknownFunction? (e : Engine σ) : Value → Option String
  | .object fields =>
    match Value.nameUnder Value.actionKey fields with
    | some _ => none
    | none =>
      (Value.nameUnder Value.functionKey fields).filter fun name => (e.keywords? name).isNone
  | _ => none

theorem unknownFunction?_spec {descriptor : Value} {name : String}
    (h : e.unknownFunction? descriptor = some name) :
    ∃ fields, descriptor = .object fields ∧ Value.nameUnder Value.actionKey fields = none ∧
      Value.nameUnder Value.functionKey fields = some name ∧ e.keywords? name = none := by
  unfold unknownFunction? at h
  split at h
  · rename_i fields
    split at h
    · cases h
    · rename_i haction
      obtain ⟨hname, hkeywords⟩ := Option.filter_eq_some_iff.1 h
      exact ⟨fields, rfl, haction, hname, Option.isNone_iff_eq_none.1 hkeywords⟩
  · cases h

theorem flushWith_stopsOnly {P : Stop → Prop} {runAction : Value → Eval σ Unit}
    {x : Eval σ Value} (hx : x.StopsOnly P) (hrun : ∀ effect, (runAction effect).StopsOnly P) :
    (flushWith runAction x).StopsOnly P := by
  refine .thenAlways hx fun outcome houtcome => ?_
  refine .bind (fun _ _ hstop => nomatch hstop) fun effects => ?_
  refine .bind ?_ fun value => .bind (.forM effects hrun) fun _ => .pure value
  intro ctx stop hstop
  rw [Eval.on_ofOutcome] at hstop
  exact houtcome stop hstop

/-- An entry of a graph stops as the interpolations and the entries stop that it leads to,
or with failures of evaluation, an unknown function that it calls itself, or failures of
the host.  Inside an action failures of the transport can occur as well, and the action
recovers from them. -/
theorem runActionWith_stopsOnly (builtIn : e.BuiltIn) {self : Interpolation σ}
    {run : Value → Eval σ Unit} {P : Stop → Prop} (hself : ∀ v, (self v).StopsOnly P)
    (hrun : ∀ entry, (run entry).StopsOnly P)
    (hreported : ∀ {stop : Stop}, stop.Reported → P stop)
    (hhost : ∀ failure, e.host.Raises failure → failure.kind ≠ .transport → P (.failed failure))
    {descriptor : Value} (hunknown : ∀ name, e.unknownFunction? descriptor = some name →
      P (.failed (.unknownFunction name))) :
    (e.runActionWith self run descriptor).StopsOnly P := by
  have hskip : (pure () : Eval σ Unit).StopsOnly P := .pure ()
  cases descriptor with
  | object fields =>
      simp only [runActionWith]
      split
      · rename_i haction
        split
        · refine .bind (flushWith_stopsOnly ?_ hrun) fun _ => hskip
          rcases evaluateFieldsWith_assembled builtIn.equipped fields (.inl rfl)
            (Value.within_none _) fun _ _ => Value.within_none _ with h | ⟨name, hname, hkeys, h⟩
          · exact h.stopsOnly _ (Interpolating.stopsOnly (fun w _ => hself w) hreported)
          · rw [h]
            rintro ctx _ ⟨⟩
            exact hunknown name (by simp [unknownFunction?, haction, hname, hkeys])
        · exact hskip
      · split
        · exact hskip
        · rename_i processor hprocessor
          let d := e.directorWith self run
          have hresolve (v : Value) : (d.resolve v).StopsOnly P :=
            flushWith_stopsOnly (hself v) hrun
          have hrunGraph (graph : Value) : (d.runGraph graph).StopsOnly P := .forM _ hrun
          have hraised (failure : Failure) (h : e.host.Raises failure) :
              P (.failed failure) ∨ (Stop.failed failure).Transports := by
            by_cases hkind : failure.kind = .transport
            · exact .inr ⟨failure, rfl, hkind⟩
            · exact .inl (hhost failure h hkind)
          -- the processor may stop with a failure of the transport, but the action recovers
          have hprocess := (builtIn.assembles_of_resolve? hprocessor d fields).assembled.stopsOnly
            d.crew (Acting.stopsOnly
              (P := fun stop => P stop ∨ stop.Transports) (fun v => (hresolve v).mono .inl)
              (fun graph => (hrunGraph graph).mono .inl) (fun h => .inl (hreported h)) hraised)
          refine .recover_of_condition (fun ctx stop hstop => ?_) fun _ => hskip
          rcases hprocess _ stop hstop with h | ⟨failure, rfl, hkind⟩
          · exact .inl h
          · exact .inr ⟨failure, rfl, by simp [isTransport, hkind]⟩
  | _ => exact hskip

/-- The stops that come out of dispatch. -/
inductive Surfaces (e : Engine σ) : Stop → Prop
  | exhausted : Surfaces e .exhausted
  | reported {stop : Stop} (h : stop.Reported) : Surfaces e stop
  | unknownFunction {name : String} (h : e.keywords? name = none) :
      Surfaces e (.failed (.unknownFunction name))
  | host {failure : Failure} (h : e.host.Raises failure) (hkind : failure.kind ≠ .transport) :
      Surfaces e (.failed failure)

theorem Surfaces.of_usual {stop : Stop} (h : stop.Usual) : e.Surfaces stop := by
  rcases h with rfl | h
  · exact .exhausted
  · exact .reported h

/-- Running an entry of a graph stops only with what is listed. -/
theorem runAction_surfaces (builtIn : e.BuiltIn) (bound : Nat) (descriptor : Value) :
    (e.runAction bound descriptor).StopsOnly e.Surfaces := by
  induction bound generalizing descriptor with
  | zero =>
      rintro ctx _ ⟨⟩
      exact .exhausted
  | succ bound ih =>
      have hself (v : Value) : (e.interpolate bound v).StopsOnly e.Surfaces :=
        (interpolate_stopsOnly builtIn bound v).mono .of_usual
      exact runActionWith_stopsOnly builtIn hself ih .reported (fun _ => .host) fun name h =>
        .unknownFunction (unknownFunction?_spec h).choose_spec.2.2.2

theorem runGraph_surfaces (builtIn : e.BuiltIn) (bound : Nat) (graph : Value) :
    (e.runGraph bound graph).StopsOnly e.Surfaces :=
  .forM _ (runAction_surfaces builtIn bound)

theorem restart_surfaces (builtIn : e.BuiltIn) (bound : Nat) :
    (e.restart bound).StopsOnly e.Surfaces :=
  .bind (fun _ _ hstop => nomatch hstop) fun _ => runGraph_surfaces builtIn bound _

theorem routeCallback_surfaces (builtIn : e.BuiltIn) (bound : Nat) (data : String)
    (message : Option MessageId) : (e.routeCallback bound data message).StopsOnly e.Surfaces := by
  refine .bind (fun _ _ hstop => nomatch hstop) fun found => ?_
  refine .bind (fun _ _ hstop => nomatch hstop) fun id => ?_
  cases found with
  | none => exact .pure ()
  | some entry =>
      simp only
      split
      · exact .pure ()
      · exact fun ctx stop hstop => runGraph_surfaces builtIn bound entry.graph _ stop hstop

theorem storeInput_surfaces (key : String) (v : Value) :
    (storeInput key v : Eval σ Unit).StopsOnly e.Surfaces :=
  (Eval.saveData_reports key v fun _ => rfl).mono .reported

theorem completeInput_surfaces (builtIn : e.BuiltIn) (bound : Nat) (pending : PendingInput)
    (payload : Payload) : (e.completeInput bound pending payload).StopsOnly e.Surfaces := by
  have hrun : (Eval.withLocals [("value", payload.captured)]
      (e.runGraph bound pending.request.onDone)).StopsOnly e.Surfaces :=
    fun ctx stop hstop => runGraph_surfaces builtIn bound _ _ stop hstop
  have hclear (outcome : Except Stop Unit)
      (houtcome : ∀ stop, outcome = .error stop → e.Surfaces stop) :
      (do
        if pending.request.clearAfter then
          Eval.updateSession fun session => (session.removeData pending.request.key).2
          Eval.updateSession fun session =>
            (session.removeData (attachmentsKey pending.request.key)).2
        Eval.ofOutcome outcome : Eval σ Unit).StopsOnly e.Surfaces := by
    intro ctx stop
    cases pending.request.clearAfter <;> cases outcome <;> exact houtcome stop
  have hgraph := Eval.StopsOnly.thenAlways hrun hclear
  refine .bind (storeInput_surfaces _ _) fun _ => ?_
  cases payload.attachment? with
  | none => exact hgraph
  | some file =>
      cases pending.request.allowAttachments with
      | false => exact hgraph
      | true => exact .bind (storeInput_surfaces _ _) fun _ => hgraph

theorem captureInput_surfaces (builtIn : e.BuiltIn) (bound : Nat) (payload : Payload) :
    (e.captureInput bound payload).StopsOnly e.Surfaces := by
  refine .bind (fun _ _ hstop => nomatch hstop) fun outcome => ?_
  cases outcome with
  | matched pending =>
      exact .bind (completeInput_surfaces builtIn bound pending payload) fun _ => .pure true
  | _ => exact .pure false

theorem route_surfaces (builtIn : e.BuiltIn) (bound : Nat) (payload : Payload) (created : Bool) :
    (e.route bound payload created).StopsOnly e.Surfaces := by
  have hrestart := restart_surfaces builtIn bound
  unfold route
  split
  · exact routeCallback_surfaces builtIn bound _ _
  · split
    · exact .bind (fun _ _ hstop => nomatch hstop) fun _ => hrestart
    · refine .bind (captureInput_surfaces builtIn bound payload) fun taken => ?_
      cases taken with
      | true => exact .pure ()
      | false =>
          simp only [Bool.false_eq_true, if_false]
          split
          · exact runGraph_surfaces builtIn bound _
          · split
            · exact hrestart
            · exact .pure ()

theorem handle_surfaces (builtIn : e.BuiltIn) (bound : Nat) (house : House σ) (event : Event)
    {stop : Stop} (h : (e.handle bound house event).1 = .error stop) : e.Surfaces stop :=
  route_surfaces builtIn bound _ _ _ stop h

/-! ## Transports, timeouts and unknown names -/

theorem Surfaces.avoids {stop : Stop} (h : e.Surfaces stop)
    (hhost : ∀ failure, e.host.Raises failure → failure.kind = .transport) :
    stop.Avoids [.transport, .timeout] := by
  cases h with
  | exhausted => exact Stop.Usual.avoids (.inl rfl) (by decide)
  | reported h => exact Stop.Usual.avoids (.inr h) (by decide)
  | unknownFunction =>
      rintro _ ⟨⟩
      simp [Failure.kind]
  | host h hkind => exact absurd (hhost _ h) hkind

/-- If the host fails only with failures of the transport, neither such a failure nor a
timeout comes out of a graph, of the start actions or of the handling of an event, whatever
an endpoint answers and however late.  An unknown name never comes out of an
interpolation. -/
theorem transport_and_timeouts_stay_inside (builtIn : e.BuiltIn)
    (hhost : ∀ failure, e.host.Raises failure → failure.kind = .transport) (bound : Nat) :
    (∀ graph, (e.runGraph bound graph).StopsOnly (Stop.Avoids [.transport, .timeout])) ∧
    (e.restart bound).StopsOnly (Stop.Avoids [.transport, .timeout]) ∧
    (∀ house event stop, (e.handle bound house event).1 = .error stop →
      stop.Avoids [.transport, .timeout]) ∧
    ∀ v, (e.interpolate bound v).StopsOnly (Stop.Avoids [.resolution]) := by
  have havoids {stop : Stop} (h : e.Surfaces stop) := h.avoids hhost
  refine ⟨fun graph => ?_, ?_, fun house event stop h => ?_, fun v => ?_⟩
  · exact (runGraph_surfaces builtIn bound graph).mono havoids
  · exact (restart_surfaces builtIn bound).mono havoids
  · exact havoids (handle_surfaces builtIn bound house event h)
  · exact (interpolate_stopsOnly builtIn bound v).mono fun h => h.avoids (by decide)

/-- A host that rejects every message only fails in transport. -/
theorem solitary_raises {scenario : Scenario} {failure : Failure}
    (h : (solitary scenario).host.Raises failure) : failure.kind = .transport := by
  cases h with
  | send h =>
      cases h
      rfl
  | edit h =>
      cases h
      rfl
  | delete h =>
      cases h
      rfl

/-- A message that nobody receives ends its action, and the graph goes on to its end. -/
theorem rejected_output_stays_inside :
    let graph : Value := .array
      [.object [("action", .string "EmitOutput"), ("text", .string "hello")],
        .object [("action", .string "Store"), ("key", .string "said"), ("value", .bool true)]]
    let run := (solitary {}).runGraph 3 graph
    (solitary {}).BuiltIn ∧
      (∀ failure, (solitary {}).host.Raises failure → failure.kind = .transport) ∧
      (solitary {}).host.Raises .sendRejected ∧
      run.StopsOnly (Stop.Avoids [.transport, .timeout]) ∧
      (run.on (Context.solitary [])).1 = .ok () := by
  obtain ⟨hgraph, -⟩ := transport_and_timeouts_stay_inside (solitary_builtIn {})
    (fun _ => solitary_raises) 3
  have hrejected : (solitary {}).host.Raises .sendRejected :=
    @Host.Raises.send _ _ _ () "" "" {} rfl
  have houtcome : (((solitary {}).runGraph 3 (.array
      [.object [("action", .string "EmitOutput"), ("text", .string "hello")],
        .object [("action", .string "Store"), ("key", .string "said"), ("value", .bool true)]])).on
      (Context.solitary [])).1 = .ok () := by
    cbv
  exact ⟨solitary_builtIn {}, fun _ => solitary_raises, hrejected, hgraph _, houtcome⟩

end Engine
end Dialogue
