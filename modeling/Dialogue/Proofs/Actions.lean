import Dialogue.Engine.Standard
import Dialogue.Proofs.Assembly
import Dialogue.Proofs.Keyed

/-!
# What actions do

An action of the library resolves values, runs graphs, changes its session, and reaches
the outside through the host.  `Acting` lists everything that it can do in one step;
`ActionLibrary.assembles_of_get?` says that each action is put together from such steps.
An action recovers from failures of the host only, never from those of the values and
graphs that it asks for.
-/

namespace Dialogue

/-- What the engine does for an action: resolving values and running graphs. -/
structure Crew (σ : Type) where
  resolve : Value → Eval σ Value
  runGraph : Value → Eval σ Unit

/-- A director whose work is done by a crew. -/
def Director.withCrew {σ : Type} (d : Director σ) (crew : Crew σ) : Director σ :=
  { d with resolve := crew.resolve, runGraph := crew.runGraph }

/-- Whoever does a director's work. -/
def Director.crew {σ : Type} (d : Director σ) : Crew σ := ⟨d.resolve, d.runGraph⟩

/-- The fields that an action takes as they stand: the graphs that it runs, now or later. -/
def ActionFields.graphNames : List String :=
  ["onStart", "onSuccess", "onFailure", "onDone", "onCancel"]

/-- Sends a message and remembers it, under a name if it has one. -/
def Director.post {σ : Type} (d : Director σ) (name : Option String) (text : String)
    (options : OutputOptions) : Eval σ MessageId := do
  let message ← d.send text options
  Eval.updateSession fun session => session.rememberMessage name message
  return message

/-- Edits a message, or forgets it if it is gone. -/
def Director.revise {σ : Type} (d : Director σ) (message : MessageId) (text : String)
    (options : OutputOptions) : Eval σ Unit :=
  (d.edit message text options).recover Failure.isGone fun _ =>
    Eval.updateSession fun session => session.forgetMessage message

/-- Adds a callback that the session at hand owns. -/
def Eval.insertOwnCallback {σ : Type} (graph : Value) (params : Fields) : Eval σ String := do
  let sessionId ← Eval.ask fun ctx => ctx.session.id
  Eval.insertCallback { sessionId, graph, params }

/-- The steps that an action with these fields is put together from. -/
inductive Acting {σ : Type} (d : Director σ) (fields : Fields) :
    ∀ α : Type, (Crew σ → Eval σ α) → Prop
  | resolve (name : String) (v : Value) (hname : name ∉ ActionFields.graphNames)
      (h : fields.get? name = some v) : Acting d fields Value fun crew => crew.resolve v
  | runGraph (graph : Value) : Acting d fields Unit fun crew => crew.runGraph graph
  | fail {α : Type} (failure : Failure) (h : failure.kind = .evaluation) :
      Acting d fields α fun _ => Eval.fail failure
  | ask {α : Type} (f : Context σ → α) : Acting d fields α fun _ => Eval.ask f
  | reset : Acting d fields Unit fun _ =>
      Eval.updateSession fun session => { session with navigation := session.navigation.reset }
  | navigate (target : String) (graph : Value) (add unique : Bool)
      (h : d.scenario.menuGraph? target = some graph) : Acting d fields Unit fun _ =>
      Eval.updateSession fun session =>
        { session with navigation := session.navigation.navigate target add unique }
  | back : Acting d fields BackOutcome fun _ =>
      Eval.changeSession fun session =>
        (session.navigation.back.1, { session with navigation := session.navigation.back.2 })
  | write (ns key : String) (v : Value) (clearAfterRead : Bool) : Acting d fields Unit fun _ =>
      Eval.updateSession fun session =>
        { session with storage := session.storage.write ns key v clearAfterRead }
  | read (ns key : String) (consume : Bool) : Acting d fields (Option Value) fun _ =>
      Eval.changeSession fun session => ((session.storage.read ns key consume).1,
        { session with storage := (session.storage.read ns key consume).2 })
  | save (path : String) (v : Value) (failure : Path.Obstacle → Failure)
      (h : ∀ obstacle, (failure obstacle).kind = .evaluation) :
      Acting d fields Unit fun _ => Eval.saveData path v failure
  | remove (path : String) : Acting d fields Unit fun _ =>
      Eval.updateSession fun session => (session.removeData path).2
  | arm (request : InputRequest) : Acting d fields Unit fun _ => Input.arm request
  | cancel : Acting d fields (Option PendingInput) fun _ =>
      Eval.changeSession fun session =>
        (session.awaiting.cancel.1, { session with awaiting := session.awaiting.cancel.2 })
  | callback (graph : Value) (params : Fields) : Acting d fields String fun _ =>
      Eval.insertOwnCallback graph params
  | post (name : Option String) (text : String) (options : OutputOptions) :
      Acting d fields MessageId fun _ => d.post name text options
  | edit (message : MessageId) (text : String) (options : OutputOptions) :
      Acting d fields Unit fun _ => d.revise message text options
  | delete (message : MessageId) : Acting d fields Unit fun _ => d.delete message
  | sweep (message : MessageId) : Acting d fields Unit fun _ =>
      (d.delete message).recover (fun _ => true) fun _ => return ()
  | perform (action : String) (p : EndpointCall.Plan) :
      Acting d fields (Except EndpointCall.Miss EndpointResponse) fun crew =>
        EndpointCall.perform ⟨action, d.withCrew crew, fields⟩ p

/-- Steps that suffice to read fields: resolving those that are no graphs, and refusing what is
found there. -/
class ReadingSteps {σ : Type} (fields : outParam Fields)
    (atom : ∀ α : Type, (Crew σ → Eval σ α) → Prop) : Prop where
  resolve : ∀ name v, name ∉ ActionFields.graphNames → fields.get? name = some v →
    atom Value fun crew => crew.resolve v
  fail : ∀ {α : Type} (failure : Failure), failure.kind = .evaluation →
    atom α fun _ => Eval.fail failure

/-- Steps that suffice to show a message as well: adding the callbacks of its buttons, and
sending it. -/
class ShowingSteps {σ : Type} (d : outParam (Director σ)) (fields : outParam Fields)
    (atom : ∀ α : Type, (Crew σ → Eval σ α) → Prop) : Prop extends ReadingSteps fields atom where
  callback : ∀ graph params, atom String fun _ => Eval.insertOwnCallback graph params
  post : ∀ name text options, atom MessageId fun _ => d.post name text options

instance {σ : Type} {d : Director σ} {fields : Fields} :
    ShowingSteps d fields (Acting d fields) where
  resolve := .resolve
  fail := .fail
  callback := .callback
  post := .post

/-- An action that is put together from steps. -/
def Processor.Assembles {σ : Type} (p : Processor σ) : Prop :=
  ∀ (d : Director σ) (fields : Fields),
    Composed (Acting d fields) fun crew => p (d.withCrew crew) fields

section

variable {σ : Type} {d : Director σ} {fields : Fields}
  {atom : ∀ α : Type, (Crew σ → Eval σ α) → Prop}

theorem composed_refusal [ReadingSteps fields atom] {α : Type} (failure : Failure)
    (h : failure.kind = .evaluation) : Composed atom fun _ => (Eval.fail failure : Eval σ α) :=
  .atom (ReadingSteps.fail failure h)

/-- An action makes itself the owner of the callbacks that it adds. -/
theorem callback_composed [ShowingSteps d fields atom] {α : Type} (graph : Value)
    (params : Fields) (f : String → α) :
    Composed atom fun _ => (do
      let sessionId ← Eval.ask fun ctx => ctx.session.id
      let id ← Eval.insertCallback { sessionId, graph, params }
      return f id : Eval σ α) := by
  have hcomposed : Composed atom fun _ =>
      Eval.insertOwnCallback graph params >>= fun id => pure (f id) :=
    .bind (.atom (ShowingSteps.callback graph params)) fun id => .done (f id)
  simpa only [Eval.insertOwnCallback, bind_assoc] using hcomposed

/-- A message that an action sends is remembered before anything else is done with it. -/
theorem post_composed [ShowingSteps d fields atom] {α : Type} (name : Option String)
    (text : String) (options : OutputOptions) {F : MessageId → Crew σ → Eval σ α}
    (hF : ∀ message, Composed atom (F message)) :
    Composed atom fun crew => (do
      let message ← (d.withCrew crew).send text options
      Eval.updateSession fun session => session.rememberMessage name message
      F message crew : Eval σ α) := by
  have hcomposed : Composed atom fun crew =>
      d.post name text options >>= fun message => F message crew :=
    .bind (.atom (ShowingSteps.post name text options)) hF
  simp only [Director.post, bind_assoc, pure_bind] at hcomposed
  exact hcomposed

/-! ## Fields -/

namespace ActionFields

variable (action : String) (fields : Fields) (name : String)

section

variable [ReadingSteps fields atom]

theorem invalid_composed {α : Type} (expected : String) :
    Composed atom fun crew =>
      (invalid ⟨action, d.withCrew crew, fields⟩ name expected : Eval σ α) :=
  composed_refusal (.invalidField action name expected) rfl

theorem missing_composed {α : Type} :
    Composed atom fun crew => (Eval.fail (.missingField
      (ActionFields.mk action (d.withCrew crew) fields).action name) : Eval σ α) :=
  composed_refusal (.missingField action name) rfl

theorem value_composed (hname : name ∉ graphNames) :
    Composed atom fun crew => value ⟨action, d.withCrew crew, fields⟩ name := by
  simp only [value]
  split
  · rename_i v hv
    exact .atom (ReadingSteps.resolve name v hname hv)
  · exact .done Value.null

theorem text?_composed (hname : name ∉ graphNames) :
    Composed atom fun crew => text? ⟨action, d.withCrew crew, fields⟩ name :=
  .bind (value_composed action fields name hname) fun _ => .done _

theorem requiredText_composed (hname : name ∉ graphNames) :
    Composed atom fun crew => requiredText ⟨action, d.withCrew crew, fields⟩ name := by
  refine .bind (text?_composed action fields name hname) fun found => ?_
  cases found with
  | none => exact missing_composed action fields name
  | some text => exact .ite _ (missing_composed action fields name) (.done text)

theorem flag_composed (default : Bool) (hname : name ∉ graphNames) :
    Composed atom fun crew => flag ⟨action, d.withCrew crew, fields⟩ name default :=
  .bind (value_composed action fields name hname) fun _ => .done _

theorem seconds?_composed (hname : name ∉ graphNames) :
    Composed atom fun crew => seconds? ⟨action, d.withCrew crew, fields⟩ name := by
  refine .bind (value_composed action fields name hname) fun v => .ite _ (.done none) ?_
  split
  · exact .done _
  · exact invalid_composed action fields _ _

theorem object_composed (hname : name ∉ graphNames) :
    Composed atom fun crew => object ⟨action, d.withCrew crew, fields⟩ name := by
  refine .bind (value_composed action fields name hname) fun v => ?_
  cases v with
  | null => exact .done []
  | object found => exact .done found
  | _ => exact invalid_composed action fields _ _

end

section

variable [ShowingSteps d fields atom]

theorem button_composed (description : Value) :
    Composed atom fun crew =>
      button ⟨action, d.withCrew crew, fields⟩ description := by
  cases description with
  | object description =>
      simp only [button]
      split
      · exact .done _
      · exact callback_composed _ _ _
  | _ => exact invalid_composed action fields _ _

theorem buttonRow_composed (row : Value) :
    Composed atom fun crew => buttonRow ⟨action, d.withCrew crew, fields⟩ row := by
  cases row with
  | array items => exact .mapM items fun item _ => button_composed action fields item
  | object description =>
      exact .bind (button_composed action fields _) fun button => .done [button]
  | _ => exact invalid_composed action fields _ _

theorem buttons_composed :
    Composed atom fun crew => buttons ⟨action, d.withCrew crew, fields⟩ := by
  refine .bind (value_composed action fields _ (by decide)) fun v => ?_
  cases v with
  | null => exact .done []
  | array rows =>
      exact .bind (.mapM rows fun row _ => buttonRow_composed action fields row)
        fun rows => .done _
  | _ => exact invalid_composed action fields _ _

theorem attachments_composed :
    Composed atom fun crew => attachments ⟨action, d.withCrew crew, fields⟩ := by
  refine .bind (value_composed action fields _ (by decide)) fun v => ?_
  cases v with
  | null => exact .done []
  | array items =>
      refine .mapM items fun item _ => ?_
      split
      · exact .done _
      · exact invalid_composed action fields _ _
  | _ => exact invalid_composed action fields _ _

theorem outputOptions_composed :
    Composed atom fun crew => outputOptions ⟨action, d.withCrew crew, fields⟩ := by
  refine .bind (text?_composed action fields _ (by decide)) fun parseMode => ?_
  refine .bind (buttons_composed action fields) fun buttons => ?_
  exact .bind (attachments_composed action fields) fun attachments => .done _

end

theorem target?_composed :
    Composed (Acting d fields) fun crew => target? ⟨action, d.withCrew crew, fields⟩ := by
  refine .bind (text?_composed action fields _ (by decide)) fun id? => ?_
  cases id? with
  | some id => exact .done _
  | none =>
      refine .bind (text?_composed action fields _ (by decide)) fun name? => ?_
      cases name? with
      | some name => exact .atom (.ask _)
      | none => exact .atom (.ask _)

end ActionFields

open ActionFields

/-! ## Asking the director -/

theorem restart_composed : Composed (Acting d fields) fun crew => (d.withCrew crew).restart :=
  .bind (.atom .reset) fun _ => .atom (.runGraph d.scenario.startActions)

theorem runGraphWithLocals_composed (graph : Value) (locals : Fields) :
    Composed (Acting d fields) fun crew => (d.withCrew crew).runGraphWithLocals graph locals :=
  .locals locals (.atom (.runGraph graph))

theorem unlessNull_composed (graph : Value) (locals : Fields) :
    Composed (Acting d fields) fun crew =>
      if graph.isNull then return () else (d.withCrew crew).runGraphWithLocals graph locals :=
  .ite _ (.done ()) (runGraphWithLocals_composed graph locals)

theorem delete_composed (message : MessageId) :
    Composed (Acting d fields) fun crew => (d.withCrew crew).delete message :=
  .atom (.delete message)

/-! ## Actions -/

namespace Output

theorem emit_assembles : (Processor.named (σ := σ) "EmitOutput" emit).2.Assembles := by
  intro d fields
  refine .bind (text?_composed _ fields _ (by decide)) fun text => ?_
  refine .bind (outputOptions_composed _ fields) fun options => ?_
  refine .bind (text?_composed _ fields _ (by decide)) fun name => ?_
  refine post_composed name _ options fun message => ?_
  exact unlessNull_composed ((fields.get? "onSuccess").getD .null) _

theorem edit_assembles : (Processor.named (σ := σ) "EditOutput" edit).2.Assembles := by
  intro d fields
  refine .bind (target?_composed _ fields) fun target => ?_
  cases target with
  | none => exact .done ()
  | some message =>
      refine .bind (text?_composed _ fields _ (by decide)) fun text => ?_
      refine .bind (outputOptions_composed _ fields) fun options => ?_
      exact .atom (.edit message _ options)

theorem delete_assembles : (Processor.named (σ := σ) "DeleteOutput" delete).2.Assembles := by
  intro d fields
  refine .bind (target?_composed _ fields) fun target => ?_
  cases target with
  | none => exact .done ()
  | some message => exact delete_composed message

end Output

namespace Menus

theorem navigate_assembles : (Processor.named (σ := σ) "Navigate" navigate).2.Assembles := by
  intro d fields
  refine .bind (requiredText_composed _ fields _ (by decide)) fun target => ?_
  refine .bind (flag_composed _ fields _ _ (by decide)) fun add => ?_
  refine .bind (flag_composed _ fields _ _ (by decide)) fun unique => ?_
  refine .bind (object_composed _ fields _ (by decide)) fun params => ?_
  simp only [Director.withCrew]
  split
  · exact restart_composed
  · rename_i graph hgraph
    refine .bind (.atom (.navigate target graph add unique hgraph)) fun _ => ?_
    exact .params params (.atom (.runGraph graph))

theorem removeLastMessage_composed :
    Composed (Acting d fields) fun crew => removeLastMessage (d.withCrew crew) := by
  refine .bind (.atom (.ask _)) fun last => ?_
  cases last with
  | none => exact .done ()
  | some message => exact .atom (.sweep message)

/-- Where a step back leads. -/
theorem arrive_composed (outcome : BackOutcome) :
    Composed (Acting d fields) fun crew =>
      match outcome with
      | .restart => (d.withCrew crew).restart
      | .menu name =>
        match d.scenario.menuGraph? name with
        | some graph => crew.runGraph graph
        | none => (d.withCrew crew).restart := by
  cases outcome with
  | restart => exact restart_composed
  | menu name =>
      simp only
      split
      · exact .atom (.runGraph _)
      · exact restart_composed

theorem back_assembles : (Processor.named (σ := σ) "Back" back).2.Assembles := by
  intro d fields
  refine .bind (flag_composed _ fields _ _ (by decide)) fun remove => ?_
  have hback : Composed (Acting d fields) fun crew => _ :=
    .bind (.atom .back) arrive_composed
  cases remove with
  | false => exact hback
  | true => exact .bind removeLastMessage_composed fun _ => hback

end Menus

namespace Input

theorem inputKind_composed (action : String) (fields : Fields) [ReadingSteps fields atom] :
    Composed atom fun crew => inputKind ⟨action, d.withCrew crew, fields⟩ := by
  refine .bind (text?_composed _ fields _ (by decide)) fun raw? => ?_
  cases raw? with
  | none => exact .done _
  | some raw =>
      simp only
      split
      · exact .done _
      · exact composed_refusal (.unknownInputType raw) rfl

theorem prompt?_composed (action : String) (fields : Fields) [ReadingSteps fields atom] :
    Composed atom fun crew => prompt? ⟨action, d.withCrew crew, fields⟩ := by
  refine .bind (text?_composed _ fields _ (by decide)) fun text? => ?_
  cases text? with
  | none => exact text?_composed _ fields _ (by decide)
  | some text => exact .done _

theorem cancelRow_composed [ShowingSteps d fields atom] (text : String) :
    Composed atom fun _ => cancelRow text :=
  callback_composed _ _ _

theorem showPrompt_composed (action : String) (fields : Fields) [ShowingSteps d fields atom]
    (text : String) (cancelText : Option String) :
    Composed atom fun crew =>
      showPrompt ⟨action, d.withCrew crew, fields⟩ text cancelText := by
  refine .bind (outputOptions_composed _ fields) fun options => ?_
  have hsend (options : OutputOptions) : Composed atom fun crew =>
      (d.withCrew crew).send text options >>= fun message =>
        Eval.updateSession fun session => session.rememberMessage none message := by
    have hposted : Composed atom fun crew => _ :=
      post_composed none text options fun _ => .done ()
    exact hposted
  cases cancelText with
  | none => exact .bind (.done options) hsend
  | some cancelText =>
      exact .bind (cancelRow_composed cancelText) fun row => .bind (.done _) hsend

theorem request_assembles : (Processor.named (σ := σ) "RequestInput" request).2.Assembles := by
  intro d fields
  refine .bind (requiredText_composed _ fields _ (by decide)) fun key => ?_
  refine .bind (inputKind_composed _ fields) fun inputKind => ?_
  refine .bind (prompt?_composed _ fields) fun prompt => ?_
  refine .bind (text?_composed _ fields _ (by decide)) fun cancelText => ?_
  refine .bind (flag_composed _ fields _ _ (by decide)) fun allowAttachments => ?_
  refine .bind (flag_composed _ fields _ _ (by decide)) fun clearAfter => ?_
  refine .bind (seconds?_composed _ fields _ (by decide)) fun timeout => ?_
  simp only [graph]
  refine .bind (.atom (.arm _)) fun _ => ?_
  cases prompt with
  | none => exact .done ()
  | some text => exact showPrompt_composed _ fields text cancelText

theorem cancel_assembles :
    (Processor.named (σ := σ) "CancelAwaitingInput" cancel).2.Assembles := by
  intro d fields
  refine .bind (.atom .cancel) fun pending? => ?_
  cases pending? with
  | none => exact .done ()
  | some pending => exact .atom (.runGraph _)

end Input

namespace Keeping

theorem entryNamespace_composed (action : String) (fields : Fields) [ReadingSteps fields atom] :
    Composed atom fun crew => entryNamespace ⟨action, d.withCrew crew, fields⟩ :=
  .bind (text?_composed _ fields _ (by decide)) fun _ => .done _

theorem store_assembles : (Processor.named (σ := σ) "Store" store).2.Assembles := by
  intro d fields
  refine .bind (entryNamespace_composed _ fields) fun ns => ?_
  refine .bind (requiredText_composed _ fields _ (by decide)) fun key => ?_
  refine .bind (value_composed _ fields _ (by decide)) fun value => ?_
  refine .bind (flag_composed _ fields _ _ (by decide)) fun clearAfterRead => ?_
  exact .atom (.write ns key value clearAfterRead)

theorem read_assembles : (Processor.named (σ := σ) "ReadStorage" read).2.Assembles := by
  intro d fields
  refine .bind (entryNamespace_composed _ fields) fun ns => ?_
  refine .bind (requiredText_composed _ fields _ (by decide)) fun key => ?_
  refine .bind (requiredText_composed _ fields _ (by decide)) fun saveTo => ?_
  refine .bind (flag_composed _ fields _ _ (by decide)) fun consume => ?_
  refine .bind (value_composed _ fields _ (by decide)) fun fallback => ?_
  refine .bind (.atom (.read ns key consume)) fun stored => ?_
  exact .ite _ (.atom (.remove saveTo)) (.atom (.save saveTo _ _ fun _ => rfl))

end Keeping

namespace EndpointCall

variable (action : String) (fields : Fields)

theorem request_composed :
    Composed (Acting d fields) fun crew => request ⟨action, d.withCrew crew, fields⟩ := by
  refine .bind (text?_composed _ fields _ (by decide)) fun rawMethod => ?_
  refine .bind (requiredText_composed _ fields _ (by decide)) fun url => ?_
  refine .ite _ (composed_refusal (.notHttp url) rfl) ?_
  refine .bind (object_composed _ fields _ (by decide)) fun query => ?_
  refine .bind (object_composed _ fields _ (by decide)) fun headers => ?_
  exact .bind (value_composed _ fields _ (by decide)) fun body => .done _

theorem plan_composed :
    Composed (Acting d fields) fun crew => plan ⟨action, d.withCrew crew, fields⟩ := by
  refine .bind (request_composed action fields) fun request => ?_
  refine .bind (seconds?_composed _ fields _ (by decide)) fun deadline => ?_
  refine .bind (text?_composed _ fields _ (by decide)) fun responseKey => ?_
  exact .bind (text?_composed _ fields _ (by decide)) fun saveTo => .done
    (Plan.mk request (deadline.getD d.settings.endpointTimeout) responseKey saveTo)

theorem save_composed (p : Plan) (response : EndpointResponse) :
    Composed (Acting d fields) fun _ => save p response := by
  simp only [save]
  split
  · exact .done ()
  · exact .atom (.save _ _ _ fun _ => rfl)

theorem finish_composed (p : Plan) (outcome : Except Miss EndpointResponse) :
    Composed (Acting d fields) fun crew => finish ⟨action, d.withCrew crew, fields⟩ p outcome := by
  cases outcome with
  | ok response =>
      simp only [finish, graph]
      exact .bind (save_composed fields p response) fun _ => runGraphWithLocals_composed _ _
  | error miss =>
      exact unlessNull_composed ((fields.get? "onFailure").getD .null) (failureLocals miss)

theorem call_assembles :
    (Processor.named (σ := σ) "CallExternalEndpoint" call).2.Assembles := by
  intro d fields
  refine .bind (plan_composed _ fields) fun p => ?_
  simp only [graph]
  refine .bind (.atom (.runGraph _)) fun _ => ?_
  exact .bind (.atom (.perform "CallExternalEndpoint" p)) fun outcome =>
    finish_composed _ fields p outcome

end EndpointCall

/-- Every action of the library is assembled from steps. -/
theorem ActionLibrary.assembles_of_get? {name : String} {p : Processor σ}
    (h : ActionLibrary.standard.get? name = some p) : p.Assembles := by
  have hmem := Keyed.mem_of_get?_ofEntries h
  simp only [Output.actions, Menus.actions, Input.actions, Keeping.actions,
    EndpointCall.actions, List.cons_append, List.nil_append, List.mem_cons,
    List.not_mem_nil, or_false] at hmem
  rcases hmem with h | h | h | h | h | h | h | h | h | h <;>
    obtain rfl := congrArg Prod.snd h
  · exact Output.emit_assembles
  · exact Output.edit_assembles
  · exact Output.delete_assembles
  · exact Menus.navigate_assembles
  · exact Menus.back_assembles
  · exact Input.request_assembles
  · exact Input.cancel_assembles
  · exact Keeping.store_assembles
  · exact Keeping.read_assembles
  · exact EndpointCall.call_assembles

end

end Dialogue
