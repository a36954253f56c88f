import Dialogue.Proofs.Decoders
import Dialogue.Scenario
import Dialogue.Session.Navigation
import Dialogue.Value.Path

/-!
# Written forms

Events, scenarios and the place of a session among its menus are written as JSON, and their
decoders read it back.  The forms differ: fields with other names than in memory, a payload that
carries the tag of its kind beside its fields, fields that are left out when they are absent or
empty, and fields that are written as null.

* `Event.reads`, `Scenario.reads`, `Navigation.reads`: a written form is read as what it was
  written from.
* `Scenario.yields_ordered`: whatever is read as a scenario is in order.
* `written_forms_are_read_back`: all three types are read back, and writing what was read gives a
  normal form.
-/

namespace Dialogue

open Decoder

/-! ## Events -/

/-- An attachment is read back, with or without a file name. -/
theorem Attachment.reads (a : Attachment) : Attachment.decoder.Reads a.toValue a := by
  obtain ⟨kind, fileId, fileName⟩ := a
  intro depth hdepth
  unfold Attachment.toValue at hdepth ⊢
  obtain ⟨r, hopen, hshows⟩ := Record.exists_open? ["kind", "fileId", "fileName"]
    (by cases fileName <;> simp) (by cases fileName <;> simp) hdepth
  have hkind := hshows.required "kind" (by simp [Keyed.get?_cons]) (reads_text kind)
  have hid := hshows.required "fileId" (by simp [Keyed.get?_cons]) (reads_text fileId)
  have hname : r.getD "fileName" none (nullable text) = some fileName := by
    cases fileName with
    | none => exact hshows.getD_default "fileName" none _ (by simp [Keyed.get?_cons])
    | some name =>
        exact hshows.getD "fileName" none (by simp [Keyed.get?_cons, Value.ofText?])
          (reads_nullable (some name))
  simp only [Attachment.decoder, hopen, hkind, hid, hname, Option.bind_eq_bind, Option.bind_some]

/-- A contact is read back. -/
theorem Contact.reads (c : Contact) : Contact.decoder.Reads c.toValue c := by
  intro depth hdepth
  unfold Contact.toValue at hdepth ⊢
  obtain ⟨r, hopen, hshows⟩ :=
    Record.exists_open? ["phone", "firstName", "lastName"] (by simp) (by simp) hdepth
  have hphone := hshows.required "phone" (by simp [Keyed.get?_cons]) (reads_text c.phone)
  have hfirst := hshows.getD "firstName" "" (by simp [Keyed.get?_cons]) (reads_text c.firstName)
  have hlast := hshows.getD "lastName" "" (by simp [Keyed.get?_cons]) (reads_text c.lastName)
  simp only [Contact.decoder, hopen, hphone, hfirst, hlast, Option.bind_eq_bind, Option.bind_some]

namespace Payload

/-- The tag of an object is separated from its other fields. -/
theorem untag?_ofValue {m : Fields} (hordered : Keyed.Ordered m) {kind : EventKind}
    (hget : Keyed.get? m "kind" = some (.string kind.name)) :
    untag? (Document.ofValue (.object m)) =
      some (kind, Document.ofValue (.object (Keyed.drop "kind" m))) := by
  have htags : (Document.ofFields m).filter (fun member => member.1 == some "kind") =
      [(some "kind", .string (some kind.name))] := by
    have htag := Keyed.filter_key hordered hget
    rw [Document.ofFields_eq, List.filter_map]
    change ((m.filter fun entry => some entry.1 == some "kind").map _) = _
    simp only [Option.some_beq_some]
    rw [htag]
    rfl
  have hothers : (Document.ofFields m).filter (fun member => member.1 != some "kind") =
      Document.ofFields (Keyed.drop "kind" m) := by
    rw [Document.ofFields_eq, Document.ofFields_eq, List.filter_map]
    rfl
  rw [Document.ofValue, untag?, htags]
  simp only [EventKind.ofName?_name, Option.bind_eq_bind, Option.bind_some, hothers,
    Document.ofValue]

/-- The fields beside a tag are read as a record of the kind that the tag names. -/
theorem exists_open?_beside_tag (kind : EventKind) (names : List String)
    {written : List (String × Value)} {depth : Nat}
    (hnodup : ("kind" :: written.map Prod.fst).Nodup)
    (hnames : ∀ field ∈ written, field.1 ∈ names)
    (hdepth : (Document.ofValue (.record (("kind", .string kind.name) :: written))).height ≤
      depth) :
    ∃ d r, Payload.decoder depth
        (Document.ofValue (.record (("kind", .string kind.name) :: written))) =
          ofKind? kind depth d ∧
      Record.open? names depth d = some r ∧ r.Shows written := by
  let m : Fields := Keyed.ofEntries (("kind", .string kind.name) :: written)
  have hordered : Keyed.Ordered m := Keyed.ordered_ofEntries _
  have hfound : ∀ name, Keyed.get? m name =
      Keyed.get? (("kind", .string kind.name) :: written) name :=
    Keyed.get?_ofEntries_of_nodup hnodup
  obtain ⟨hpos, hroom⟩ := Document.height_object_le_iff.1 hdepth
  have hothers : (Document.ofValue (.object (Keyed.drop "kind" m))).height ≤ depth :=
    Document.height_object_le_iff.2
      ⟨hpos, fun field hfield => hroom field (List.mem_filter.1 hfield).1⟩
  have hothersNames : ∀ field ∈ Keyed.drop "kind" m, field.1 ∈ names := by
    intro field hfield
    obtain ⟨hmem, hkind⟩ := List.mem_filter.1 hfield
    rcases List.mem_cons.1 (Keyed.mem_of_mem_ofEntries hmem) with rfl | hmem
    · simp at hkind
    · exact hnames field hmem
  obtain ⟨r, hopen, hshows⟩ := Record.exists_open?_of_object names
    (Keyed.ordered_drop hordered "kind") hothersNames hothers
  have htag : untag? (Document.ofValue (.object m)) = some (kind, _) :=
    untag?_ofValue hordered ((hfound "kind").trans (by rw [Keyed.get?_cons, if_pos rfl]))
  refine ⟨_, r, ?_, hopen, hshows.of_get?_eq fun name => ?_⟩
  · change Payload.decoder depth (Document.ofValue (.object m)) = _
    rw [Payload.decoder, htag]
    rfl
  · rw [Keyed.get?_drop, hfound, Keyed.get?_cons]
    by_cases hname : name = "kind"
    · rw [if_pos hname, hname, Keyed.get?_of_not_mem (List.nodup_cons.1 hnodup).1]
    · rw [if_neg hname, if_neg hname]

/-- A payload is read back. -/
theorem reads (p : Payload) : Payload.decoder.Reads p.toValue p := by
  intro depth hdepth
  cases p with
  | text body =>
      obtain ⟨d, r, hdecode, hopen, hshows⟩ :=
        exists_open?_beside_tag .text ["text"] (by simp) (by simp) hdepth
      have hbody := hshows.required "text" (by simp [Keyed.get?_cons]) (reads_text body)
      refine hdecode.trans ?_
      simp only [ofKind?, hopen, hbody, Option.bind_eq_bind, Option.bind_some]
  | document file caption =>
      obtain ⟨d, r, hdecode, hopen, hshows⟩ :=
        exists_open?_beside_tag .document ["attachment", "caption"] (by simp) (by simp) hdepth
      have hfile := hshows.required "attachment" (by simp [Keyed.get?_cons]) file.reads
      have hcaption :=
        hshows.getD "caption" none (by simp [Keyed.get?_cons]) (reads_nullable caption)
      refine hdecode.trans ?_
      simp only [ofKind?, hopen, hfile, hcaption, Option.bind_eq_bind, Option.bind_some]
  | contact person =>
      obtain ⟨d, r, hdecode, hopen, hshows⟩ :=
        exists_open?_beside_tag .contact ["contact"] (by simp) (by simp) hdepth
      have hperson := hshows.required "contact" (by simp [Keyed.get?_cons]) person.reads
      refine hdecode.trans ?_
      simp only [ofKind?, hopen, hperson, Option.bind_eq_bind, Option.bind_some]
  | callback data message =>
      obtain ⟨d, r, hdecode, hopen, hshows⟩ :=
        exists_open?_beside_tag .callback ["data", "messageRef"] (by simp) (by simp) hdepth
      have hdata := hshows.required "data" (by simp [Keyed.get?_cons]) (reads_text data)
      have hmessage :=
        hshows.getD "messageRef" none (by simp [Keyed.get?_cons]) (reads_nullable message)
      refine hdecode.trans ?_
      simp only [ofKind?, hopen, hdata, hmessage, Option.bind_eq_bind, Option.bind_some]

end Payload

/-- An event is read back. -/
theorem Event.reads (event : Event) : Event.decoder.Reads event.toValue event := by
  intro depth hdepth
  obtain ⟨r, hopen, hshows⟩ :=
    Record.exists_open? ["sessionId", "payload"] (by simp) (by simp) hdepth
  have hid := hshows.required "sessionId" (by simp [Keyed.get?_cons]) (reads_text event.sessionId)
  have hpayload := hshows.required "payload" (by simp [Keyed.get?_cons]) event.payload.reads
  unfold Event.toValue
  simp only [Event.decoder, hopen, hid, hpayload, Option.bind_eq_bind, Option.bind_some]

theorem Value.at?_record {written : List (String × Value)} (hnodup : (written.map Prod.fst).Nodup)
    (name : String) (path : Path) :
    (Value.record written).at? (name :: path) =
      (Keyed.get? written name).bind fun v => v.at? path := by
  rw [Value.at?, Value.record, Value.child?, Keyed.get?_ofEntries_of_nodup hnodup]

/-- The tag of a written event names its kind. -/
theorem Event.tag_toValue (event : Event) :
    event.toValue.at? ["payload", "kind"] = some (.string event.kind.name) := by
  have htag : event.payload.toValue.at? ["kind"] = some (.string event.kind.name) := by
    unfold Payload.toValue
    rw [Value.at?_record (by cases event.payload <;> simp), Keyed.get?_cons, if_pos rfl]
    rfl
  unfold Event.toValue
  rw [Value.at?_record (by simp), Keyed.get?_cons, if_neg (by decide), Keyed.get?_cons,
    if_pos rfl]
  exact htag

/-! ## Places among the menus -/

/-- The place of a session among its menus is read back. -/
theorem Navigation.reads (n : Navigation) : Navigation.decoder.Reads n.toValue n := by
  intro depth hdepth
  obtain ⟨r, hopen, hshows⟩ :=
    Record.exists_open? ["backStack", "currentMenu"] (by simp) (by simp) hdepth
  have hstack := hshows.required "backStack" (by simp [Keyed.get?_cons])
    (reads_texts n.backStack)
  have hmenu := hshows.getD "currentMenu" none (by simp [Keyed.get?_cons])
    (reads_nullable n.currentMenu)
  unfold Navigation.toValue
  simp only [Navigation.decoder, hopen, hstack, hshows.named, hmenu, Option.bind_eq_bind,
    Option.bind_some, Bool.false_eq_true, if_false]

/-! ## Scenarios -/

/-- The maps of a scenario are in order, at every depth. -/
structure Scenario.Ordered (s : Scenario) : Prop where
  startActions : s.startActions.Ordered
  menuItems : Keyed.Ordered s.menuItems
  menus : ∀ entry ∈ s.menuItems, entry.2.onNavigation.Ordered
  functions : Keyed.Ordered s.functions
  params : ∀ entry ∈ s.functions, (Value.object entry.2.params).Ordered
  results : ∀ entry ∈ s.functions, entry.2.result.Ordered
  data : (Value.object s.data).Ordered
  commands : (Value.object s.commands).Ordered

theorem Menu.reads {m : Menu} (h : m.onNavigation.Ordered) : Menu.decoder.Reads m.toValue m := by
  intro depth hdepth
  obtain ⟨r, hopen, hshows⟩ := Record.exists_open? ["onNavigation"] (by simp) (by simp) hdepth
  have hgraph := hshows.getD "onNavigation" .null (by simp [Keyed.get?_cons]) (reads_value h)
  unfold Menu.toValue
  simp only [Menu.decoder, hopen, hgraph, Option.bind_eq_bind, Option.bind_some]

theorem Menu.yields_ordered : Menu.decoder.Yields fun m => m.onNavigation.Ordered := by
  intro depth d m hm
  simp only [Menu.decoder, Option.bind_eq_bind, Option.bind_eq_some_iff] at hm
  obtain ⟨r, -, graph, hgraph, heq⟩ := hm
  cases heq
  exact Record.ordered_of_getD_value hgraph

theorem ScenarioFunction.reads {f : ScenarioFunction} (hparams : (Value.object f.params).Ordered)
    (hresult : f.result.Ordered) : ScenarioFunction.decoder.Reads f.toValue f := by
  intro depth hdepth
  obtain ⟨r, hopen, hshows⟩ := Record.exists_open? ["params", "result"] (by simp) (by simp) hdepth
  have hreadParams := hshows.getD "params" [] (by simp [Keyed.get?_cons]) (reads_fields hparams)
  have hreadResult := hshows.getD "result" .null (by simp [Keyed.get?_cons]) (reads_value hresult)
  unfold ScenarioFunction.toValue
  simp only [ScenarioFunction.decoder, hopen, hreadParams, hreadResult, Option.bind_eq_bind,
    Option.bind_some]

theorem ScenarioFunction.yields_ordered : ScenarioFunction.decoder.Yields fun f =>
    (Value.object f.params).Ordered ∧ f.result.Ordered := by
  intro depth d f hf
  simp only [ScenarioFunction.decoder, Option.bind_eq_bind, Option.bind_eq_some_iff] at hf
  obtain ⟨r, -, params, hparams, result, hresult, heq⟩ := hf
  cases heq
  exact ⟨Record.ordered_of_getD_fields hparams, Record.ordered_of_getD_value hresult⟩

namespace Scenario

variable {s : Scenario}

/-- A scenario is read back, with or without modules. -/
theorem reads (h : s.Ordered) : Scenario.decoder.Reads s.toValue s := by
  obtain ⟨startActions, menuItems, functions, data, commands, modules⟩ := s
  intro depth hdepth
  unfold Scenario.toValue at hdepth ⊢
  obtain ⟨r, hopen, hshows⟩ := Record.exists_open? fieldNames
    (by cases modules <;> simp) (by cases modules <;> simp [fieldNames]) hdepth
  have hstart := hshows.getD "startActions" .null (by simp [Keyed.get?_cons])
    (reads_value h.startActions)
  have hmenus := hshows.getD "menuItems" [] (by simp [Keyed.get?_cons])
    (reads_keyed h.menuItems fun entry hentry => Menu.reads (h.menus entry hentry))
  have hfunctions := hshows.getD "functions" [] (by simp [Keyed.get?_cons])
    (reads_keyed h.functions fun entry hentry =>
      ScenarioFunction.reads (h.params entry hentry) (h.results entry hentry))
  have hdata := hshows.getD "data" [] (by simp [Keyed.get?_cons]) (reads_fields h.data)
  have hcommands := hshows.getD "commands" [] (by simp [Keyed.get?_cons])
    (reads_fields h.commands)
  have hmodules : r.getD "modules" [] (list text) = some modules := by
    cases modules with
    | nil => exact hshows.getD_default "modules" [] _ (by simp [Keyed.get?_cons])
    | cons first rest =>
        exact hshows.getD "modules" [] (by simp [Keyed.get?_cons]) (reads_texts (first :: rest))
  simp only [Scenario.decoder, hopen, hstart, hmenus, hfunctions, hdata, hcommands, hmodules,
    Option.bind_eq_bind, Option.bind_some]

/-- Whatever is read as a scenario is in order. -/
theorem yields_ordered : Scenario.decoder.Yields Scenario.Ordered := by
  intro depth d s hs
  simp only [Scenario.decoder, Option.bind_eq_bind, Option.bind_eq_some_iff] at hs
  obtain ⟨r, -, _, hstart, _, hmenus, _, hfunctions, _, hdata, _, hcommands, _, -, heq⟩ := hs
  cases heq
  have hmenusOrdered := Record.ordered_of_getD_keyed Menu.yields_ordered hmenus
  have hfunctionsOrdered :=
    Record.ordered_of_getD_keyed ScenarioFunction.yields_ordered hfunctions
  exact
    { startActions := Record.ordered_of_getD_value hstart
      menuItems := hmenusOrdered.1
      menus := hmenusOrdered.2
      functions := hfunctionsOrdered.1
      params := fun entry hentry => (hfunctionsOrdered.2 entry hentry).1
      results := fun entry hentry => (hfunctionsOrdered.2 entry hentry).2
      data := Record.ordered_of_getD_fields hdata
      commands := Record.ordered_of_getD_fields hcommands }

end Scenario

/-! ## All of them -/

/-- Every event, every scenario (a scenario's maps are in order) and every place among the menus
is read back from what it is written as, and the tag of a written event names the kind of the
event.  Whatever is accepted as one of them has a normal form, what it is written as once it was
read, which is read as the same and is its own normal form. -/
theorem written_forms_are_read_back :
    (∀ event : Event, Event.decoder.ofValue? event.toValue = some event ∧
      event.toValue.at? ["payload", "kind"] = some (.string event.kind.name)) ∧
    (∀ s : Scenario, s.Ordered → Scenario.decoder.ofValue? s.toValue = some s) ∧
    (∀ n : Navigation, Navigation.decoder.ofValue? n.toValue = some n) ∧
    Event.decoder.Normalizes Event.toValue ∧ Scenario.decoder.Normalizes Scenario.toValue ∧
    Navigation.decoder.Normalizes Navigation.toValue := by
  refine ⟨fun event => ⟨event.reads.ofValue?, event.tag_toValue⟩, fun s hs => ?_, fun n => ?_,
    ?_, ?_, ?_⟩
  · exact (Scenario.reads hs).ofValue?
  · exact n.reads.ofValue?
  · exact normalizes_of_reads (P := fun _ => True) (fun _ _ _ _ => trivial) fun event _ =>
      event.reads
  · exact normalizes_of_reads Scenario.yields_ordered fun s hs => Scenario.reads hs
  · exact normalizes_of_reads (P := fun _ => True) (fun _ _ _ _ => trivial) fun n _ => n.reads

/-- An uploaded file without a name and without a caption. -/
def upload : Event := ⟨"s", .document { kind := "photo", fileId := "f1" } none⟩

/-- The upload as an object with a member that nobody knows, and with the payload as a list. -/
def uploadAsList : Value :=
  .object [("extra", .null), ("payload", .array [.string "document",
    .object [("fileId", .string "f1"), ("fileName", .null), ("kind", .string "photo")]]),
    ("sessionId", .string "s")]

/-- A scenario with a menu, a function and a command, and without modules. -/
def brief : Scenario where
  startActions := .object [("action", .string "Back")]
  menuItems := [("Hall", { onNavigation := .array [] })]
  functions := [("twice", { params := [("text", .null)], result := .string "{{text}}{{text}}" })]
  commands := [("/hall", .null)]

/-- The upload is read from the list, and from its normal form, which leaves out the name and
writes the caption as null; the scenario is read back as well. -/
theorem upload_has_normal_form :
    Event.decoder.ofValue? uploadAsList = some upload ∧
      Event.decoder.normalForm? Event.toValue uploadAsList = some upload.toValue ∧
      Event.decoder.ofValue? upload.toValue = some upload ∧
      upload.toValue.at? ["payload", "kind"] = some (.string "document") ∧
      brief.Ordered ∧ Scenario.decoder.ofValue? brief.toValue = some brief := by
  obtain ⟨hevents, hscenarios, -, hnormal, -, -⟩ := written_forms_are_read_back
  have hread : Event.decoder.ofValue? uploadAsList = some upload := by decide
  have hbrief : brief.Ordered := by
    constructor <;>
      simp [brief, Value.Ordered, Value.OrderedItems, Value.OrderedFields, Keyed.Ordered]
  obtain ⟨hform, hback, -⟩ := hnormal uploadAsList upload hread
  exact ⟨hread, hform, hback, (hevents upload).2, hbrief, hscenarios brief hbrief⟩

end Dialogue
