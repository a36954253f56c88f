import Dialogue.Proofs.Buttons
import Dialogue.Proofs.Effects

/-!
# Keyboards

The buttons of a message are rows of objects in one field of its action.  The field is
interpolated as a whole, and then each button parks the graph that it runs when it is pressed.

Interpolation leaves actions alone, so where the entries of the graph of a button are actions,
it takes the same course as one that holds this graph back (`Engine.interpolate_keyboard`), and
what is parked is the graph as it was written, whatever the buttons beside it are
(`Engine.keyboards_park_graphs`).  It does not leave functions alone: an entry that is a
function is evaluated when the button is shown, and its value is parked in its place
(`Engine.function_entry_is_evaluated_when_shown`).
-/

namespace Dialogue

/-- Every entry of a graph is an action. -/
def Value.onlyActions : Value → Bool
  | .array items => items.all Value.isAction
  | graph => graph.isAction

/-- The field of a button that holds its graph. -/
def onClickKey : String := "onClick"

/-- The graph of a button. -/
def buttonGraph (button : Fields) : Value := (Keyed.get? button onClickKey).getD .null

/-- The object of a button is no function, and the entries of its graph are actions; or the
object is an action itself. -/
def PlainButton (fields : Fields) : Prop :=
  (Value.object fields).isAction = true ∨ ((Value.object fields).isFunction = false ∧
    ∀ entry ∈ fields, entry.1 = onClickKey → entry.2.onlyActions = true)

instance (fields : Fields) : Decidable (PlainButton fields) :=
  inferInstanceAs (Decidable (_ ∨ (_ ∧ ∀ entry ∈ fields, _ → _)))

/-- What a plain button is resolved to has the graph of the button. -/
def KeepsGraph (button resolved : Value) : Prop :=
  ∀ fields, button = .object fields → PlainButton fields →
    ∃ shown, resolved = .object shown ∧ buttonGraph shown = buttonGraph fields

/-- What a row is resolved to has the graphs of its plain buttons, each in its place. -/
def KeepsGraphs : Value → Value → Prop
  | .array buttons, resolved =>
    ∃ shown, resolved = .array shown ∧ List.Forall₂ KeepsGraph buttons shown
  | row, resolved => KeepsGraph row resolved

/-- The fields of a button. -/
def buttonFields : Value → List Fields
  | .object fields => [fields]
  | _ => []

/-- The buttons of a row; one button alone is a row too. -/
def rowButtons : Value → List Fields
  | .array buttons => buttons.flatMap buttonFields
  | row => buttonFields row

/-! ## Computing item by item -/

section

variable {σ α β : Type}

/-- What holds of an item and its value, whatever the context, holds of all. -/
theorem Eval.forall₂_of_mapM {R : α → β → Prop} {f : α → Eval σ β} {items : List α}
    (h : ∀ a ctx b after, (f a).on ctx = (.ok b, after) → R a b)
    {ctx after : Context σ} {values : List β}
    (hvalues : (items.mapM f).on ctx = (.ok values, after)) :
    List.Forall₂ R items values := by
  induction items generalizing ctx values with
  | nil =>
      cases hvalues
      exact .nil
  | cons a rest ih =>
      rw [List.mapM_cons] at hvalues
      obtain ⟨b, between, hb, hrest⟩ := Eval.exists_of_on_bind hvalues
      obtain ⟨others, last, hothers, hlast⟩ := Eval.exists_of_on_bind hrest
      cases hlast
      exact .cons (h a ctx b between hb) (ih hothers)

/-- Leaving every item alone. -/
theorem Eval.mapM_eq_pure {f : α → Eval σ α} {items : List α} (h : ∀ a ∈ items, f a = pure a) :
    items.mapM f = pure items := by
  induction items with
  | nil => rfl
  | cons a rest ih =>
      have hrest := ih fun other hother => h other (List.mem_cons_of_mem a hother)
      simp only [List.mapM_cons, h a List.mem_cons_self, hrest, pure_bind]

end

namespace Engine

variable {σ : Type} {e : Engine σ}

/-! ## Interpolation -/

/-- An action is left alone. -/
theorem interpolate_of_isAction (bound : Nat) {v : Value} (h : v.isAction = true) :
    e.interpolate (bound + 1) v = pure v := by
  cases v with
  | object fields => simp only [interpolate, interpolateWith, h, if_true]
  | _ => cases h

/-- A graph of actions is left alone. -/
theorem interpolate_of_onlyActions (bound : Nat) {graph : Value} (h : graph.onlyActions = true) :
    e.interpolate (bound + 2) graph = pure graph := by
  unfold Value.onlyActions at h
  split at h
  · rename_i items
    have hitems : items.mapM (e.interpolate (bound + 1)) = pure items :=
      Eval.mapM_eq_pure fun item hitem =>
        interpolate_of_isAction bound (List.all_eq_true.1 h item hitem)
    unfold interpolate
    simp only [interpolateWith, hitems, pure_bind]
  · exact interpolate_of_isAction (bound + 1) h

/-- Interpolating the fields of a button is the same as interpolating all but its graph. -/
theorem fieldsWith_eq_eagerWith {self : Interpolation σ} {fields : Fields}
    (h : ∀ entry ∈ fields, entry.1 = onClickKey → self entry.2 = pure entry.2) :
    fieldsWith self fields = eagerWith self [onClickKey] fields := by
  refine Eval.mapM_congr fun entry hentry => ?_
  by_cases hkey : entry.1 = onClickKey
  · simp [hkey, h entry hentry hkey]
  · simp [hkey]

/-- The fields of a plain button, interpolated but for the graph. -/
def showFields (e : Engine σ) (bound : Nat) (fields : Fields) : Eval σ Fields :=
  if (Value.object fields).isAction then return fields
  else eagerWith (e.interpolate bound) [onClickKey] fields

/-- A button, interpolated but for its graph if it is a plain one. -/
def showButton (e : Engine σ) (bound : Nat) (button : Value) : Eval σ Value :=
  match button with
  | .object fields =>
    if PlainButton fields then do return .object (← e.showFields (bound + 2) fields)
    else e.interpolate (bound + 3) button
  | _ => e.interpolate (bound + 3) button

/-- A row, interpolated but for the graphs of its plain buttons. -/
def showRow (e : Engine σ) (bound : Nat) (row : Value) : Eval σ Value :=
  match row with
  | .array buttons => do return .array (← buttons.mapM (e.showButton bound))
  | _ => e.showButton (bound + 1) row

theorem interpolate_plainButton (bound : Nat) {fields : Fields} (h : PlainButton fields) :
    e.interpolate (bound + 3) (.object fields) = (do
      return .object (← e.showFields (bound + 2) fields)) := by
  -- an object that is an action and a function as well is taken for an action
  by_cases haction : (Value.object fields).isAction = true
  · rw [interpolate_of_isAction (bound + 2) haction]
    simp only [showFields, haction, if_true, pure_bind]
  · obtain ⟨hfunction, hgraph⟩ := h.resolve_left haction
    have hfields : fieldsWith (e.interpolate (bound + 2)) fields =
        eagerWith (e.interpolate (bound + 2)) [onClickKey] fields :=
      fieldsWith_eq_eagerWith fun entry hentry hkey =>
        interpolate_of_onlyActions bound (hgraph entry hentry hkey)
    rw [interpolate, interpolateWith]
    simp only [showFields, haction, hfunction, hfields, Bool.false_eq_true, if_false]

theorem interpolate_button (bound : Nat) (button : Value) :
    e.interpolate (bound + 3) button = e.showButton bound button := by
  unfold showButton
  split
  · split
    · rename_i hplain
      exact interpolate_plainButton bound hplain
    · rfl
  · rfl

theorem interpolate_row (bound : Nat) (row : Value) :
    e.interpolate (bound + 4) row = e.showRow bound row := by
  unfold showRow
  split
  · rename_i buttons
    have hbuttons : buttons.mapM (e.interpolate (bound + 3)) = buttons.mapM (e.showButton bound) :=
      Eval.mapM_congr fun button _ => interpolate_button bound button
    rw [interpolate, interpolateWith, hbuttons]
  · exact interpolate_button (bound + 1) row

/-- A keyboard is interpolated as if the graphs of its plain buttons were held back. -/
theorem interpolate_keyboard (bound : Nat) (rows : List Value) :
    e.interpolate (bound + 5) (.array rows) = (do
      return .array (← rows.mapM (e.showRow bound))) := by
  have hrows : rows.mapM (e.interpolate (bound + 4)) = rows.mapM (e.showRow bound) :=
    Eval.mapM_congr fun row _ => interpolate_row bound row
  rw [interpolate, interpolateWith, hrows]

/-! ## What is held back -/

/-- What is held back is found as it was. -/
theorem get?_of_eagerWith {self : Interpolation σ} {deferred : List String} {fields shown : Fields}
    {ctx after : Context σ} (h : (eagerWith self deferred fields).on ctx = (.ok shown, after))
    {key : String} (hkey : key ∈ deferred) : shown.get? key = fields.get? key := by
  have hentries : List.Forall₂ (fun entry other : String × Value =>
      other.1 = entry.1 ∧ (entry.1 ∈ deferred → other.2 = entry.2)) fields shown := by
    refine Eval.forall₂_of_mapM (fun entry before other between hother => ?_) h
    dsimp only at hother
    split at hother
    · cases hother
      exact ⟨rfl, fun _ => rfl⟩
    · rename_i hnot
      obtain ⟨value, _, -, hlast⟩ := Eval.exists_of_on_bind hother
      cases hlast
      exact ⟨rfl, fun hmem => absurd (List.contains_iff_mem.2 hmem) hnot⟩
  clear h
  -- both lists have the same keys in the same order, so a search ends at the same place
  induction hentries with
  | nil => rfl
  | @cons entry other rest others hentry _ ih =>
      obtain ⟨name, value⟩ := entry
      obtain ⟨name', value'⟩ := other
      obtain ⟨rfl, hvalue⟩ := hentry
      rw [Keyed.get?_cons, Keyed.get?_cons]
      split
      · rename_i hname
        exact congrArg some (hvalue (hname ▸ hkey))
      · exact ih

theorem graph_of_showFields {bound : Nat} {fields shown : Fields} {ctx after : Context σ}
    (h : (e.showFields bound fields).on ctx = (.ok shown, after)) :
    buttonGraph shown = buttonGraph fields := by
  unfold showFields at h
  split at h
  · cases h
    rfl
  · have hget : Keyed.get? shown onClickKey = Keyed.get? fields onClickKey :=
      get?_of_eagerWith h List.mem_cons_self
    rw [buttonGraph, hget, buttonGraph]

theorem keepsGraph_of_showButton {bound : Nat} {button resolved : Value} {ctx after : Context σ}
    (h : (e.showButton bound button).on ctx = (.ok resolved, after)) :
    KeepsGraph button resolved := by
  rintro fields rfl hplain
  rw [showButton, if_pos hplain] at h
  obtain ⟨shown, _, hshown, hlast⟩ := Eval.exists_of_on_bind h
  cases hlast
  exact ⟨shown, rfl, graph_of_showFields hshown⟩

theorem keepsGraphs_of_showRow {bound : Nat} {row resolved : Value} {ctx after : Context σ}
    (h : (e.showRow bound row).on ctx = (.ok resolved, after)) : KeepsGraphs row resolved := by
  unfold showRow at h
  split at h
  · obtain ⟨shown, _, hshown, hlast⟩ := Eval.exists_of_on_bind h
    cases hlast
    refine ⟨shown, rfl, Eval.forall₂_of_mapM (fun button _ other _ hother => ?_) hshown⟩
    exact keepsGraph_of_showButton hother
  · rename_i hsingle
    unfold KeepsGraphs
    split
    · exact absurd rfl (hsingle _)
    · exact keepsGraph_of_showButton h

/-! ## Parking -/

/-- The callback of a button as it is shown, unless the button opens a link. -/
def callback? (sessionId : String) (button : Fields) : Option Callback :=
  match (Keyed.get? button "url").filter fun url => !url.isNull with
  | some _ => none
  | none => some
    { sessionId, graph := buttonGraph button,
      params := ((Keyed.get? button "params").bind Value.fields?).getD [] }

/-- Parks the callback of a button, if it has one, and says under which identifier. -/
def park (ctx : Context σ) (button : Fields) : Option String × Context σ :=
  match callback? ctx.session.id button with
  | some entry =>
    let (id, callbacks) := ctx.callbacks.insert entry
    (some id, { ctx with callbacks })
  | none => (none, ctx)

/-- Parks the callbacks of buttons, in order. -/
def parkAll (ctx : Context σ) : List Fields → List (Option String) × Context σ
  | [] => ([], ctx)
  | button :: rest =>
    let first := park ctx button
    let others := parkAll first.2 rest
    (first.1 :: others.1, others.2)

theorem parkAll_append {ctx between after : Context σ} {first second : List Fields}
    {ids others : List (Option String)} (hfirst : parkAll ctx first = (ids, between))
    (hsecond : parkAll between second = (others, after)) :
    parkAll ctx (first ++ second) = (ids ++ others, after) := by
  induction first generalizing ctx ids with
  | nil =>
      cases hfirst
      exact hsecond
  | cons button rest ih =>
      cases hfirst
      have hrest : parkAll (park ctx button).2 (rest ++ second) =
          ((parkAll (park ctx button).2 rest).1 ++ others, after) := ih rfl
      rw [List.cons_append, parkAll, hrest]
      rfl

/-- Showing a button parks its callback under the identifier that it shows, and does nothing
else. -/
theorem parkAll_of_button {f : ActionFields σ} {button : Value} {shown : Button}
    {ctx after : Context σ} (h : (f.button button).on ctx = (.ok shown, after)) :
    parkAll ctx (buttonFields button) = ([shown.callbackId], after) := by
  cases button with
  | object fields =>
      simp only [ActionFields.button] at h
      cases hurl : (Keyed.get? fields "url").filter fun url => !url.isNull with
      | some url =>
          rw [hurl] at h
          cases h
          simp only [buttonFields, parkAll, park, callback?, hurl]
      | none =>
          rw [hurl] at h
          cases h
          simp only [buttonFields, parkAll, park, callback?, hurl]
          rfl
  | _ => cases h

/-- Showing items, each of which has buttons to park. -/
theorem parkAll_of_mapM {α β : Type} {f : α → Eval σ β} {buttons : α → List Fields}
    {ids : β → List (Option String)}
    (h : ∀ a ctx b after, (f a).on ctx = (.ok b, after) → parkAll ctx (buttons a) = (ids b, after))
    {items : List α} {shown : List β} {ctx after : Context σ}
    (hshown : (items.mapM f).on ctx = (.ok shown, after)) :
    parkAll ctx (items.flatMap buttons) = (shown.flatMap ids, after) := by
  induction items generalizing ctx shown with
  | nil =>
      cases hshown
      rfl
  | cons a rest ih =>
      rw [List.mapM_cons] at hshown
      obtain ⟨b, between, hb, hrest⟩ := Eval.exists_of_on_bind hshown
      obtain ⟨others, last, hothers, hlast⟩ := Eval.exists_of_on_bind hrest
      cases hlast
      exact parkAll_append (h a ctx b between hb) (ih hothers)

theorem parkAll_of_buttonRow {f : ActionFields σ} {row : Value} {shown : List Button}
    {ctx after : Context σ} (h : (f.buttonRow row).on ctx = (.ok shown, after)) :
    parkAll ctx (rowButtons row) = (shown.map Button.callbackId, after) := by
  cases row with
  | array buttons =>
      have hbuttons := parkAll_of_mapM (fun _ _ _ _ => parkAll_of_button) h
      rw [← List.map_eq_flatMap] at hbuttons
      exact hbuttons
  | object fields =>
      obtain ⟨button, _, hbutton, hlast⟩ := Eval.exists_of_on_bind h
      cases hlast
      exact parkAll_of_button hbutton
  | _ => cases h

/-- Showing the buttons of an action whose keyboard is resolved: the callbacks are parked in
order, each under the identifier that its button shows, and nothing else happens. -/
theorem parkAll_of_buttons {f : ActionFields σ} {rows : List Value} {shown : List (List Button)}
    {ctx between after : Context σ}
    (hvalue : (f.value "buttons").on ctx = (.ok (.array rows), between))
    (h : f.buttons.on ctx = (.ok shown, after)) :
    parkAll between (rows.flatMap rowButtons) = (shown.flatten.map Button.callbackId, after) := by
  unfold ActionFields.buttons at h
  rw [Eval.on_bind_ok hvalue] at h
  obtain ⟨all, _, hall, hlast⟩ := Eval.exists_of_on_bind h
  cases hlast
  have hparked := parkAll_of_mapM (fun _ _ _ _ => parkAll_of_buttonRow) hall
  rw [List.flatten_filter_not_isEmpty, List.map_flatten, ← List.flatMap_def]
  exact hparked

/-- What is resolved to a value was interpolated to it. -/
theorem exists_of_on_flushWith {run : Value → Eval σ Unit} {x : Eval σ Value} {v : Value}
    {ctx after : Context σ} (h : (flushWith run x).on ctx = (.ok v, after)) :
    ∃ between, x.on ctx = (.ok v, between) := by
  cases hx : x.on ctx with
  | mk outcome between =>
      unfold flushWith at h
      rw [Eval.on_thenAlways, hx] at h
      obtain ⟨effects, _, -, hrest⟩ := Eval.exists_of_on_bind h
      obtain ⟨value, _, hvalue, hlast⟩ := Eval.exists_of_on_bind hrest
      obtain ⟨_, _, -, hreturn⟩ := Eval.exists_of_on_bind hlast
      cases hreturn
      cases outcome with
      | ok w =>
          cases hvalue
          exact ⟨between, rfl⟩
      | error stop => cases hvalue

/-- Interpolating a keyboard is the same as holding back the graphs of its plain buttons, that
is those whose graphs have only actions.  Showing a keyboard resolves it, to one with the very
graphs of the plain buttons, each in its place, and parks the graph of each button under the
identifier that the button shows; this is all it does.  A press runs the graph that is parked,
with the parameters that are parked along with it. -/
theorem keyboards_park_graphs (e : Engine σ) (bound : Nat) :
    (∀ rows : List Value,
      e.interpolate (bound + 5) (.array rows) = (do
        return .array (← rows.mapM (e.showRow bound))) ∧
      ∀ (f : ActionFields σ) ctx shown after, f.director = e.director (bound + 5) →
        f.fields.get? "buttons" = some (.array rows) →
        f.buttons.on ctx = (.ok shown, after) →
        ∃ resolved between,
          (f.director.resolve (.array rows)).on ctx = (.ok (.array resolved), between) ∧
          List.Forall₂ KeepsGraphs rows resolved ∧
          parkAll between (resolved.flatMap rowButtons) =
            (shown.flatten.map Button.callbackId, after)) ∧
    ∀ (ctx : Context σ) id message entry, ctx.callbacks.get? id = some entry →
      entry.sessionId = ctx.session.id →
      (e.routeCallback bound id message).on ctx = (Eval.withParams entry.params
        (Eval.withLocals (pressLocals message) (e.runGraph bound entry.graph))).on ctx := by
  refine ⟨fun rows => ⟨interpolate_keyboard bound rows, ?_⟩, ?_⟩
  · intro f ctx shown after hdirector hfield hshown
    have hvalue : f.value "buttons" = f.director.resolve (.array rows) := by
      rw [ActionFields.value, hfield]
    have hresolve : f.director.resolve (.array rows) =
        flushWith (e.runAction (bound + 5)) (e.interpolate (bound + 5) (.array rows)) := by
      rw [hdirector]
      rfl
    obtain ⟨v, between, hv, -⟩ := Eval.exists_of_on_bind hshown
    -- effects are carried out between the interpolation and the parking, on the same value
    rw [hvalue, hresolve] at hv
    obtain ⟨mid, hinterpolated⟩ := exists_of_on_flushWith hv
    rw [interpolate_keyboard] at hinterpolated
    obtain ⟨resolved, _, hrows, hlast⟩ := Eval.exists_of_on_bind hinterpolated
    cases hlast
    rw [← hresolve] at hv
    have hkept : List.Forall₂ KeepsGraphs rows resolved :=
      Eval.forall₂_of_mapM (fun _ _ _ _ => keepsGraphs_of_showRow) hrows
    exact ⟨resolved, between, hv, hkept, parkAll_of_buttons (hvalue ▸ hv) hshown⟩
  · intro ctx id message entry hentry howner
    exact on_routeCallback bound id message hentry howner

/-- A message with one button. -/
def withButton (graph : Value) : Fields :=
  [("action", .string "EmitOutput"),
    ("buttons", .array [.array [.object [("onClick", graph), ("text", .string "{{label}}")]]]),
    ("text", .string "Choose")]

/-- The fields of that message, as its action reads them. -/
def choosing (graph : Value) : ActionFields (List String) :=
  ⟨"EmitOutput", scribe.director 8, withButton graph⟩

/-- A graph of one action, with a template. -/
def greeting : Value := .object (saying "Hi {{name}}")

/-- The graph is parked with its template, though the variable has a value. -/
theorem greeting_is_parked :
    let ctx := unsent [("label", .string "Greet"), ("name", .string "Ada")]
    ∃ shown after, (choosing greeting).buttons.on ctx = (.ok shown, after) ∧
      ∃ (button : Fields) (between : Context (List String)), buttonGraph button = greeting ∧
        parkAll between [button] = ([some "cb:0"], after) := by
  intro ctx
  have hshown : ((choosing greeting).buttons.on ctx).1 =
      .ok [[{ text := "Greet", callbackId := some "cb:0" }]] := by
    cbv
  obtain ⟨hkeyboards, -⟩ := keyboards_park_graphs scribe 3
  obtain ⟨-, hpark⟩ := hkeyboards _
  obtain ⟨resolved, between, -, hkept, hparked⟩ :=
    hpark (choosing greeting) ctx _ _ rfl rfl (Prod.ext hshown rfl)
  rcases hkept with _ | ⟨⟨shown, rfl, hshownRow⟩, _ | _⟩
  rcases hshownRow with _ | ⟨hbutton, _ | _⟩
  obtain ⟨button, rfl, hgraph⟩ := hbutton _ rfl (by decide)
  exact ⟨_, _, Prod.ext hshown rfl, button, between, hgraph, hparked⟩

/-- A graph of one entry, which is a function. -/
def joining : Value :=
  .array [.object [("function", .string "JoinToString"),
    ("values", .array [.string "a", .string "b"])]]

/-- The function is evaluated when the button is shown, and what is parked is its value. -/
theorem function_entry_is_evaluated_when_shown :
    let ctx := unsent [("label", .string "Join")]
    ((choosing joining).buttons.on ctx).1 =
      .ok [[{ text := "Join", callbackId := some "cb:0" }]] ∧
    ((choosing joining).buttons.on ctx).2.callbacks.entries.map Callback.graph =
      [.array [.string "a, b"]] ∧
    joining ≠ .array [.string "a, b"] := by
  refine ⟨by cbv, by cbv, ?_⟩
  simp [joining]

end Engine
end Dialogue
