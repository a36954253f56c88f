import Dialogue.Proofs.Capacity
import Dialogue.Proofs.Keyboards

/-!
# What a callback table keeps

A table that callbacks are added to, one after the other, always holds the newest of them: the
numbers that are held run without a gap up to the last one that was given out
(`CallbackTable.Recent`).  Whenever a full table drops its older half, the larger half stays and
the new callback joins it, so a table that has been full at least once holds more than half of
its capacity.

So the buttons that were shown last can be pressed, as long as they are no more than that
(`CallbackTable.Recent.get?_of_recent`), and this is what a keyboard of moderate size needs
(`Engine.newest_callbacks_are_kept`).
-/

namespace Dialogue
namespace CallbackTable

/-- Adds entries one after the other and returns their identifiers. -/
def insertEach (t : CallbackTable) : List Callback → List String × CallbackTable
  | [] => ([], t)
  | entry :: rest =>
    let first := t.insert entry
    let others := insertEach first.2 rest
    (first.1 :: others.1, others.2)

/-- The number of the oldest entry that is held; the next number, if none is. -/
def oldest (t : CallbackTable) : Nat := t.nextNumber - t.size

/-- So many of the newest entries are held at least, once they were added. -/
def assured (capacity : Nat) : Nat := (capacity + 1) / 2 + 1

/-- The table holds the newest of the entries that were added to it, under their numbers. -/
structure Recent (t : CallbackTable) (past : List Callback) : Prop where
  two_le : 2 ≤ t.capacity
  nextNumber : t.nextNumber = past.length
  entries : t.entries = past.reverse.take t.size
  size_le : t.size ≤ t.capacity
  size_le_length : t.size ≤ past.length
  assured : min past.length (assured t.capacity) ≤ t.size

variable {t : CallbackTable} {past present : List Callback} {entry : Callback} {n : Nat}

/-! ## Adding entries one by one -/

theorem insertEach_fst (t : CallbackTable) (entries : List Callback) :
    (t.insertEach entries).1 =
      (List.range entries.length).map fun k => identifier (t.nextNumber + k) := by
  induction entries generalizing t with
  | nil => rfl
  | cons entry rest ih =>
      simp only [insertEach, ih, nextNumber_insert, List.length_cons, List.range_succ_eq_map,
        List.map_cons, List.map_map]
      refine congrArg₂ _ rfl (List.map_congr_left fun k _ => ?_)
      simp only [Function.comp, Nat.succ_eq_add_one]
      rw [Nat.add_assoc, Nat.add_comm 1 k]

theorem insertEach_snd (t : CallbackTable) (entries : List Callback) :
    (t.insertEach entries).2 = t.insertAll entries := by
  induction entries generalizing t with
  | nil => rfl
  | cons entry rest ih => exact ih (t.insert entry).2

theorem capacity_insertAll (t : CallbackTable) (entries : List Callback) :
    (t.insertAll entries).capacity = t.capacity := by
  induction entries generalizing t with
  | nil => rfl
  | cons entry rest ih => exact (ih (t.insert entry).2).trans (capacity_insert t entry)

/-! ## Making room -/

theorem size_makeRoom (t : CallbackTable) :
    t.makeRoom.size = if t.capacity ≤ t.size then t.size - t.size / 2 else t.size := by
  unfold makeRoom
  split <;> rfl

/-- What stays when room is made are the newest entries. -/
theorem entries_makeRoom (t : CallbackTable) :
    t.makeRoom.entries = t.entries.take t.makeRoom.size := by
  unfold makeRoom
  split
  · rfl
  · rw [t.size_eq, List.take_length]

theorem recent_empty (capacity : Nat) : (empty capacity).Recent [] where
  two_le := Nat.le_max_right capacity 2
  nextNumber := rfl
  entries := rfl
  size_le := Nat.zero_le _
  size_le_length := Nat.le_refl 0
  assured := by simp

/-- Adding an entry keeps the newest ones. -/
theorem Recent.insert (h : t.Recent past) (entry : Callback) :
    (t.insert entry).2.Recent (past ++ [entry]) := by
  obtain ⟨two_le, hnumber, hentries, hsize, hlength, hassured⟩ := h
  have hroom := size_makeRoom t
  have hinserted : (t.insert entry).2.size = t.makeRoom.size + 1 := rfl
  have hcapacity := capacity_insert t entry
  have hle : t.makeRoom.size ≤ t.size := by
    rw [hroom]
    split <;> omega
  have hkept : t.makeRoom.entries = past.reverse.take t.makeRoom.size := by
    rw [entries_makeRoom, hentries, List.take_take, Nat.min_eq_left hle]
  constructor
  · rw [hcapacity]
    exact two_le
  · rw [nextNumber_insert, hnumber, List.length_append, List.length_singleton]
  · change entry :: t.makeRoom.entries = _
    rw [hkept, hinserted, List.reverse_append, List.reverse_singleton, List.singleton_append,
      List.take_succ_cons]
  · rw [hcapacity]
    exact size_insert_le t entry two_le hsize
  · rw [hinserted, List.length_append, List.length_singleton]
    omega
  · rw [hcapacity, hinserted, List.length_append, List.length_singleton]
    unfold CallbackTable.assured at hassured ⊢
    -- a full table keeps the larger half, any other table keeps all
    split at hroom <;> omega

theorem Recent.insertAll (h : t.Recent past) (present : List Callback) :
    (t.insertAll present).Recent (past ++ present) := by
  induction present generalizing t past with
  | nil =>
      rw [List.append_nil]
      exact h
  | cons entry rest ih =>
      have hrest := ih (h.insert entry)
      rw [List.append_assoc] at hrest
      exact hrest

/-- A table that callbacks were added to from the start holds the newest of them. -/
theorem recent_insertAll (capacity : Nat) (past : List Callback) :
    ((empty capacity).insertAll past).Recent past :=
  (recent_empty capacity).insertAll past

theorem capacity_insertAll_empty (capacity : Nat) (past : List Callback) :
    ((empty capacity).insertAll past).capacity = max capacity 2 :=
  capacity_insertAll (empty capacity) past

/-! ## Looking up -/

/-- The numbers that are held are those from the oldest one on, each with the entry that was
added under it. -/
theorem Recent.numbered? (h : t.Recent past) (n : Nat) :
    t.numbered? n = if t.oldest ≤ n then past[n]? else none := by
  have hlength := h.size_le_length
  rw [CallbackTable.numbered?, h.nextNumber, h.entries, oldest, h.nextNumber]
  by_cases hn : n < past.length
  · rw [if_pos hn, List.getElem?_take]
    have hplace : past.length - 1 - (past.length - 1 - n) = n := by omega
    by_cases hrecent : past.length - t.size ≤ n
    · rw [if_pos hrecent, if_pos (by omega), List.getElem?_reverse (by omega), hplace]
    · rw [if_neg hrecent, if_neg (by omega)]
  · rw [if_neg hn, List.getElem?_eq_none (Nat.le_of_not_lt hn), ite_self]

theorem get?_identifier (t : CallbackTable) (h : n ≤ Decimal.wordLimit) :
    t.get? (identifier n) = t.numbered? n := by
  rw [get?, number?_identifier h, Option.bind_some]

/-- The entries that were added last are found as long as they are few. -/
theorem Recent.get?_of_recent (h : t.Recent past) (hlt : n < 2 ^ 64)
    (hrecent : past.length ≤ n + CallbackTable.assured t.capacity) :
    t.get? (identifier n) = past[n]? := by
  have hassured := h.assured
  have hheld : t.oldest ≤ n := by
    rw [oldest, h.nextNumber]
    omega
  rw [get?_identifier t (Nat.le_sub_one_of_lt hlt), h.numbered?, if_pos hheld]

/-- What was dropped does not come back. -/
theorem Recent.oldest_le (h : t.Recent past) (present : List Callback) :
    t.oldest ≤ (t.insertAll present).oldest := by
  induction present generalizing t past with
  | nil => exact Nat.le_refl _
  | cons entry rest ih =>
      have hlength := h.size_le_length
      have hroom := size_makeRoom t
      refine Nat.le_trans ?_ (ih (h.insert entry))
      change t.nextNumber - t.size ≤ t.makeRoom.nextNumber + 1 - (t.makeRoom.size + 1)
      rw [nextNumber_makeRoom]
      split at hroom <;> omega

/-- Callbacks that are added one after the other are found under their identifiers, until more
are added than the table holds for sure. -/
theorem get?_insertEach (capacity : Nat) {past present later : List Callback}
    (hnumber : (past ++ present ++ later).length < 2 ^ 64)
    (hfew : present.length + later.length ≤ CallbackTable.assured (max capacity 2)) :
    let inserted := ((empty capacity).insertAll past).insertEach present
    List.Forall₂ (fun id entry => (inserted.2.insertAll later).get? id = some entry)
      inserted.1 present := by
  intro inserted
  have htable : inserted.2.insertAll later =
      (empty capacity).insertAll (past ++ present ++ later) := by
    rw [insertEach_snd, insertAll_append, insertAll_append]
  have hids : inserted.1 =
      (List.range present.length).map fun k => identifier (past.length + k) := by
    rw [insertEach_fst, (recent_insertAll capacity past).nextNumber]
  rw [hids, htable]
  refine List.forall₂_iff_get.2 ⟨by simp, fun k hk hpresent => ?_⟩
  simp only [List.get_eq_getElem, List.getElem_map, List.getElem_range]
  have hfound := (recent_insertAll capacity (past ++ present ++ later)).get?_of_recent
    (n := past.length + k)
  rw [capacity_insertAll_empty] at hfound
  simp only [List.length_append] at hnumber hfound
  rw [hfound (by omega) (by omega)]
  simp [List.getElem?_append_left, List.getElem?_append_right, hpresent]

end CallbackTable

open CallbackTable

namespace Engine

variable {σ : Type} {e : Engine σ}

/-! ## Runs -/

/-- Whatever a dispatch does, it only adds callbacks to the table. -/
theorem adds_lasting (e : Engine σ) :
    e.Lasting fun before after : Context σ =>
      ∃ added, after.callbacks = before.callbacks.insertAll added where
  framing :=
    { refl := fun _ => ⟨[], rfl⟩
      trans := by
        rintro before between after ⟨first, hfirst⟩ ⟨second, hsecond⟩
        exact ⟨first ++ second, by rw [hsecond, hfirst, insertAll_append]⟩
      locals := fun _ h => h
      action := fun _ h => h
      params := fun _ h => h }
  advances := by
    rintro before _ ⟨storage, effects, -, -, rfl⟩
    exact ⟨[], rfl⟩
  effects _ := ⟨[], rfl⟩
  belongings _ _ _ _ _ := ⟨[], rfl⟩
  navigation _ _ _ := ⟨[], rfl⟩
  arm _ _ := ⟨[], rfl⟩
  clear _ := ⟨[], rfl⟩
  callback _ graph params := ⟨[{ sessionId := _, graph, params }], rfl⟩
  message _ _ _ := ⟨[], rfl⟩
  call _ _ _ := ⟨[], rfl⟩

/-- The table of a run came about by adding callbacks to an empty one. -/
theorem Reachable.callbacks (builtIn : e.BuiltIn) {house : House σ} (h : e.Reachable house) :
    ∃ past, house.callbacks = (empty e.settings.callbackCapacity).insertAll past := by
  refine h.induct (P := fun house => ∃ past,
    house.callbacks = (empty e.settings.callbackCapacity).insertAll past)
    (fun _ => ⟨[], rfl⟩) ?_
  rintro house later hstep ⟨past, hpast⟩
  cases hstep with
  | event bound house event =>
      obtain ⟨added, hadded⟩ := e.adds_lasting.route builtIn bound event.payload
        (e.checkOut house event.sessionId).2 (e.received house event)
      refine ⟨past ++ added, ?_⟩
      rw [handle_eq, callbacks_checkIn, callbacks_touch, insertAll_append, ← hpast,
        ← callbacks_received (e := e) house event]
      exact hadded
  | watch house =>
      rw [callbacks_watchIdle]
      exact ⟨past, hpast⟩
  | _ => exact ⟨past, hpast⟩

/-! ## Keyboards -/

/-- The buttons of a keyboard, row by row, as its value describes them. -/
def keyboardButtons : Value → List Fields
  | .array rows => rows.flatMap rowButtons
  | _ => []

/-- The button leads to its own callback, or has none and opens a link. -/
def LeadsBack (table : CallbackTable) (sessionId : String) (button : Fields) (id : Option String) :
    Prop :=
  id.map table.get? = (callback? sessionId button).map some

/-- Parking buttons adds their callbacks to the table, and does nothing else. -/
theorem parkAll_snd (ctx : Context σ) (buttons : List Fields) :
    (parkAll ctx buttons).2 = { ctx with
      callbacks := ctx.callbacks.insertAll (buttons.filterMap (callback? ctx.session.id)) } := by
  induction buttons generalizing ctx with
  | nil => rfl
  | cons button rest ih =>
      rw [parkAll, ih]
      cases hcallback : callback? ctx.session.id button with
      | none => simp only [park, hcallback, List.filterMap_cons]
      | some entry =>
          simp only [park, hcallback, List.filterMap_cons]
          rfl

/-- As many identifiers are shown as callbacks are parked. -/
theorem length_parkAll_fst (ctx : Context σ) (buttons : List Fields) :
    (parkAll ctx buttons).1.reduceOption.length =
      (buttons.filterMap (callback? ctx.session.id)).length := by
  induction buttons generalizing ctx with
  | nil => rfl
  | cons button rest ih =>
      rw [parkAll]
      cases hcallback : callback? ctx.session.id button with
      | none =>
          simp only [park, hcallback, List.reduceOption_cons_of_none, List.filterMap_cons]
          exact ih ctx
      | some entry =>
          simp only [park, hcallback, List.reduceOption_cons_of_some, List.filterMap_cons,
            List.length_cons]
          exact congrArg (· + 1) (ih _)

/-- Parked buttons lead to their callbacks wherever the table holds what was added from the first
of them on. -/
theorem leads_of_parkAll {table : CallbackTable} {all past : List Callback} {ctx : Context σ}
    (hheld : ∀ n, past.length ≤ n → n < all.length → table.get? (identifier n) = all[n]?)
    (hnumber : ctx.callbacks.nextNumber = past.length) (buttons : List Fields)
    (hadded : past ++ buttons.filterMap (callback? ctx.session.id) <+: all) :
    List.Forall₂ (LeadsBack table ctx.session.id) buttons (parkAll ctx buttons).1 := by
  induction buttons generalizing ctx past with
  | nil => exact .nil
  | cons button rest ih =>
      rw [parkAll]
      cases hcallback : callback? ctx.session.id button with
      | none =>
          rw [List.filterMap_cons, hcallback] at hadded
          simp only [park, hcallback]
          refine .cons ?_ (ih hheld hnumber hadded)
          simp [LeadsBack, hcallback]
      | some entry =>
          rw [List.filterMap_cons, hcallback] at hadded
          simp only [park, hcallback]
          -- the callback of the first button is the next one after the past
          have hnext : past.length < all.length := by
            have hlength := hadded.length_le
            rw [List.length_append, List.length_cons] at hlength
            omega
          have hentry : all[past.length]? = some entry := by
            obtain ⟨later, rfl⟩ := hadded
            simp
          have hfound := hheld past.length (Nat.le_refl _) hnext
          rw [hentry, ← hnumber] at hfound
          have hlater : ∀ n, (past ++ [entry]).length ≤ n → n < all.length →
              table.get? (identifier n) = all[n]? := by
            intro n hn
            rw [List.length_append, List.length_singleton] at hn
            exact hheld n (Nat.le_of_succ_le hn)
          let after : Context σ := { ctx with callbacks := (ctx.callbacks.insert entry).2 }
          have hrest : List.Forall₂ (LeadsBack table after.session.id) rest
              (parkAll after rest).1 := by
            refine ih hlater ?_ ?_
            · rw [nextNumber_insert, hnumber, List.length_append, List.length_singleton]
            · rw [List.append_assoc]
              exact hadded
          refine .cons ?_ hrest
          simp [LeadsBack, hcallback, CallbackTable.insert, hfound]

/-- Resolving a field only adds callbacks to the table. -/
theorem adds_of_value (builtIn : e.BuiltIn) {bound : Nat} {f : ActionFields σ}
    (hdirector : f.director = e.director bound) {name : String}
    (hname : name ∉ ActionFields.graphNames) (ctx : Context σ) :
    ∃ added, ((f.value name).on ctx).2.callbacks = ctx.callbacks.insertAll added := by
  obtain ⟨action, director, fields⟩ := f
  subst hdirector
  have hcomposed : Composed (Acting (e.director bound) fields) fun crew =>
      ActionFields.value ⟨action, (e.director bound).withCrew crew, fields⟩ name :=
    ActionFields.value_composed action fields name hname
  exact hcomposed.assembled.keeps e.adds_lasting.framing (e.director bound).crew
    (e.adds_lasting.steady.step builtIn bound) ctx

/-- The buttons that are shown are those that the value of the keyboard describes: they are
parked, and nothing else happens once the value is there. -/
theorem parkAll_of_keyboard {f : ActionFields σ} {keyboard : Value} {shown : List (List Button)}
    {ctx between after : Context σ}
    (hvalue : (f.value "buttons").on ctx = (.ok keyboard, between))
    (hshown : f.buttons.on ctx = (.ok shown, after)) :
    parkAll between (keyboardButtons keyboard) =
      (shown.flatten.map Button.callbackId, after) := by
  cases keyboard with
  | array rows => exact parkAll_of_buttons hvalue hshown
  | null =>
      unfold ActionFields.buttons at hshown
      rw [Eval.on_bind_ok hvalue] at hshown
      cases hshown
      rfl
  | _ =>
      unfold ActionFields.buttons at hshown
      rw [Eval.on_bind_ok hvalue] at hshown
      cases hshown

/-- A keyboard is shown.  Its buttons lead to their callbacks as long as no more callbacks were
added, from the first of them on, than the table holds for sure. -/
theorem leadsBack_of_buttons (builtIn : e.BuiltIn) {bound : Nat} {f : ActionFields σ}
    (hdirector : f.director = e.director bound) {ctx after : Context σ}
    {shown : List (List Button)} (hshown : f.buttons.on ctx = (.ok shown, after))
    {past : List Callback} (hpast : ctx.callbacks.Recent past) (later : List Callback)
    (hnumber : (after.callbacks.insertAll later).nextNumber < 2 ^ 64)
    (hfew : (shown.flatten.filterMap Button.callbackId).length + later.length ≤
      assured ctx.callbacks.capacity) :
    ∃ keyboard between, (f.value "buttons").on ctx = (.ok keyboard, between) ∧
      List.Forall₂ (fun fields button => LeadsBack (after.callbacks.insertAll later)
        between.session.id fields button.callbackId) (keyboardButtons keyboard) shown.flatten := by
  obtain ⟨keyboard, between, hkeyboard, -⟩ := Eval.exists_of_on_bind hshown
  refine ⟨keyboard, between, hkeyboard, ?_⟩
  have hname : "buttons" ∉ ActionFields.graphNames := by decide
  obtain ⟨added, hadded⟩ := adds_of_value builtIn hdirector hname ctx
  rw [hkeyboard] at hadded
  have hbetween : between.callbacks.Recent (past ++ added) := hadded ▸ hpast.insertAll added
  -- the buttons are parked behind what the resolution of the field has added
  have hparked := parkAll_of_keyboard hkeyboard hshown
  let entries := (keyboardButtons keyboard).filterMap (callback? between.session.id)
  have hafter : after.callbacks = between.callbacks.insertAll entries := by
    have hsnd := parkAll_snd between (keyboardButtons keyboard)
    rw [hparked] at hsnd
    exact congrArg Context.callbacks hsnd
  have htable : after.callbacks.insertAll later =
      between.callbacks.insertAll (entries ++ later) := by
    rw [hafter, insertAll_append]
  have hrecent := hbetween.insertAll (entries ++ later)
  rw [← htable] at hrecent
  have hcount : entries.length = (shown.flatten.filterMap Button.callbackId).length := by
    have hlength := length_parkAll_fst between (keyboardButtons keyboard)
    rw [hparked, List.reduceOption, List.filterMap_map] at hlength
    exact hlength.symm
  have hcapacity : (after.callbacks.insertAll later).capacity = ctx.callbacks.capacity := by
    rw [htable, capacity_insertAll, hadded, capacity_insertAll]
  have hheld : ∀ n, (past ++ added).length ≤ n → n < (past ++ added ++ (entries ++ later)).length →
      (after.callbacks.insertAll later).get? (identifier n) =
        (past ++ added ++ (entries ++ later))[n]? := by
    intro n hfirst hlast
    rw [hrecent.nextNumber] at hnumber
    refine hrecent.get?_of_recent (lt_trans hlast hnumber) ?_
    simp only [List.length_append] at hfirst ⊢
    rw [hcapacity]
    omega
  have hleads := leads_of_parkAll hheld hbetween.nextNumber (keyboardButtons keyboard) (by
    rw [← List.append_assoc]
    exact List.prefix_append _ _)
  rw [hparked] at hleads
  exact List.forall₂_map_right_iff.1 hleads

end Engine

/-- Of the callbacks that were added to a table the newest are held: the identifiers count up
from zero, the table keeps to its capacity, and those that lead to an entry run without a gap up
to the last one, each to its own entry; the others lead nowhere, and never will again.  So a
keyboard whose callbacks are no more than the larger half of the capacity and one is completely
live when it has been shown, whatever was in the table before. -/
theorem newest_callbacks_are_kept (capacity : Nat) :
    (∀ past : List Callback, past.length < 2 ^ 64 →
      let inserted := (empty capacity).insertEach past
      let table := inserted.2
      inserted.1 = (List.range past.length).map identifier ∧
      table.size ≤ max capacity 2 ∧ table.oldest + table.size = past.length ∧
      min past.length (assured (max capacity 2)) ≤ table.size ∧
      (∀ n < 2 ^ 64, table.get? (identifier n) = if table.oldest ≤ n then past[n]? else none) ∧
      ∀ later, table.oldest ≤ (table.insertAll later).oldest) ∧
    (∀ past present later : List Callback, (past ++ present ++ later).length < 2 ^ 64 →
      present.length + later.length ≤ assured (max capacity 2) →
      let inserted := ((empty capacity).insertAll past).insertEach present
      List.Forall₂ (fun id entry => (inserted.2.insertAll later).get? id = some entry)
        inserted.1 present) ∧
    ∀ {σ : Type} (e : Engine σ), e.BuiltIn →
      (∀ house, e.Reachable house →
        ∃ past, house.callbacks = (empty e.settings.callbackCapacity).insertAll past) ∧
      ∀ bound (f : ActionFields σ) ctx shown after past later, f.director = e.director bound →
        ctx.callbacks = (empty capacity).insertAll past →
        f.buttons.on ctx = (.ok shown, after) →
        (after.callbacks.insertAll later).nextNumber < 2 ^ 64 →
        (shown.flatten.filterMap Button.callbackId).length + later.length ≤
          assured (max capacity 2) →
        ∃ keyboard between, (f.value "buttons").on ctx = (.ok keyboard, between) ∧
          List.Forall₂ (fun fields button => Engine.LeadsBack (after.callbacks.insertAll later)
            between.session.id fields button.callbackId)
            (Engine.keyboardButtons keyboard) shown.flatten := by
  refine ⟨fun past hpast => ?_, fun past present later hnumber hfew => ?_, fun e builtIn =>
    ⟨fun house hhouse => hhouse.callbacks builtIn, ?_⟩⟩
  · intro inserted table
    have htable : table = (empty capacity).insertAll past := insertEach_snd _ past
    have hrecent : table.Recent past := htable ▸ recent_insertAll capacity past
    rw [← capacity_insertAll_empty capacity past, ← htable]
    refine ⟨?_, hrecent.size_le, ?_, hrecent.assured, fun n hn => ?_, hrecent.oldest_le⟩
    · simp only [inserted, insertEach_fst, empty, Nat.zero_add]
    · rw [oldest, hrecent.nextNumber]
      exact Nat.sub_add_cancel hrecent.size_le_length
    · rw [get?_identifier table (Nat.le_sub_one_of_lt hn), hrecent.numbered? n]
  · exact get?_insertEach capacity hnumber hfew
  · intro bound f ctx shown after past later hdirector hpast hshown hnumber hfew
    have hrecent : ctx.callbacks.Recent past := hpast ▸ recent_insertAll capacity past
    rw [← capacity_insertAll_empty capacity past, ← hpast] at hfew
    exact Engine.leadsBack_of_buttons builtIn hdirector hshown hrecent later hnumber hfew

/-- A message with a row of two buttons. -/
def yesOrNo : Fields :=
  [("action", .string "EmitOutput"),
    ("buttons", .array [.array [.object [("text", .string "Yes")],
      .object [("text", .string "No")]]]),
    ("text", .string "Sure?")]

/-- Five callbacks of earlier messages. -/
def earlierCallbacks : List Callback :=
  List.replicate 5 { sessionId := "s", graph := .null, params := [] }

/-- A table for three callbacks has seen five, and then a row of two buttons is shown: both
buttons work, and one callback of an earlier message is left. -/
theorem yesOrNo_stays_live :
    let ctx := { Engine.unsent [] with callbacks := (empty 3).insertAll earlierCallbacks }
    let f : ActionFields (List String) := ⟨"EmitOutput", Engine.scribe.director 6, yesOrNo⟩
    earlierCallbacks.length < 2 ^ 64 ∧ ctx.callbacks.oldest = 2 ∧ ctx.callbacks.get? "cb:1" = none ∧
      Engine.scribe.BuiltIn ∧
      ∃ shown after, f.buttons.on ctx = (.ok shown, after) ∧
        shown.flatten.map Button.callbackId = [some "cb:5", some "cb:6"] ∧
        ∃ keyboard between, (f.value "buttons").on ctx = (.ok keyboard, between) ∧
          List.Forall₂ (fun fields button => Engine.LeadsBack after.callbacks
            between.session.id fields button.callbackId)
            (Engine.keyboardButtons keyboard) shown.flatten := by
  intro ctx f
  obtain ⟨htable, -, hengine⟩ := newest_callbacks_are_kept 3
  obtain ⟨-, -, -, -, hget, -⟩ := htable earlierCallbacks (by decide)
  rw [insertEach_snd] at hget
  have holdest : ctx.callbacks.oldest = 2 := by decide
  have hgone : ctx.callbacks.get? "cb:1" = none := by
    have hone := hget 1 (by decide)
    rw [if_neg (by decide)] at hone
    exact hone
  have hshown : (f.buttons.on ctx).1 =
      .ok [[{ text := "Yes", callbackId := some "cb:5" },
        { text := "No", callbackId := some "cb:6" }]] := by
    cbv
  have hnumber : ((f.buttons.on ctx).2.callbacks.insertAll []).nextNumber < 2 ^ 64 := by
    have hseven : ((f.buttons.on ctx).2.callbacks.insertAll []).nextNumber = 7 := by cbv
    rw [hseven]
    decide
  obtain ⟨-, hkeyboard⟩ := hengine Engine.scribe Engine.scribe_builtIn
  have hlive := hkeyboard 6 f ctx _ _ earlierCallbacks [] rfl rfl (Prod.ext hshown rfl) hnumber
    (by decide)
  exact ⟨by decide, holdest, hgone, Engine.scribe_builtIn, _, _, Prod.ext hshown rfl, rfl, hlive⟩

end Dialogue
