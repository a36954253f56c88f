import Dialogue.Proofs.Paths

/-!
# Laws of paths

Data, captured input and copies of stored values are read, written and removed at paths.
Reading descends through objects and lists, writing and removing through objects only, and
writing makes the objects that are missing on its way.

* `Fields.Leads`: a path leads through objects to a value.  What was written is led to
  (`Fields.leads_write`), and what is led to is what is read and removed (`Fields.Leads.at?`,
  `Fields.Leads.remove`, `Fields.Leads.at?_remove`).
* `Fields.write_eq_error_iff`: what stands in the way of a write.
* `Fields.at?_write_of_apart`, `Fields.at?_remove_of_apart`: neither writing nor removing
  changes what is read at a path that parts from theirs.
* `Fields.at?_of_remove`, `Fields.Unlisted.at?_remove`: a removal brings nothing about, and leaves
  nothing at its path, unless a list stands on the way.
* `Fields.writeInPlace_eq`: a write that makes the missing objects before it descends leaves
  none of them behind when it fails.
* `Fields.paths_keep_their_laws` collects what holds of a path, a map and a value.
-/

namespace Dialogue

namespace Path

/-- The paths part somewhere: neither is a beginning of the other. -/
def Apart (p q : Path) : Prop := ¬ p <+: q ∧ ¬ q <+: p

instance (p q : Path) : Decidable (Apart p q) := inferInstanceAs (Decidable (_ ∧ _))

theorem apart_cons_iff {segment other : String} {p q : Path} :
    Apart (segment :: p) (other :: q) ↔ (segment = other → Apart p q) := by
  simp only [Apart, List.cons_prefix_cons, not_and, eq_comm (a := other), forall_and]

theorem Apart.left_ne_nil {p q : Path} (h : Apart p q) : p ≠ [] := by
  rintro rfl
  exact h.1 List.nil_prefix

theorem Apart.right_ne_nil {p q : Path} (h : Apart p q) : q ≠ [] := by
  rintro rfl
  exact h.2 List.nil_prefix

end Path

namespace Value

/-- Only an object or null makes room for what is written below. -/
theorem room?_some_eq_none_iff {v : Value} :
    room? (some v) = none ↔ v ≠ .null ∧ ∀ inner, v ≠ .object inner := by
  cases v <;> simp [room?]

/-- There is room in an object, and in a new one where there is nothing or null. -/
theorem room?_eq_some_iff {v? : Option Value} {inner : Fields} :
    room? v? = some inner ↔
      v? = some (.object inner) ∨ inner = [] ∧ (v? = none ∨ v? = some .null) := by
  rcases v? with _ | _ | _ | _ | _ | _ | _ <;> simp [room?, eq_comm]

end Value

namespace Fields

variable {fields inner after : Fields} {segment : String} {path other : Path} {v w : Value}
  {obstacle : Path.Obstacle}

@[simp] theorem at?_singleton (fields : Fields) (segment : String) :
    fields.at? [segment] = fields.get? segment := by
  simp only [at?]
  cases fields.get? segment <;> rfl

theorem at?_nil (path : Path) : at? [] path = none := by
  cases path <;> rfl

/-- What is read below a name is read in the object that a write would go on in, if there is
one: nothing is found below null, as in an empty object. -/
theorem at?_of_room (hroom : Value.room? (fields.get? segment) = some inner) (hpath : path ≠ []) :
    fields.at? (segment :: path) = inner.at? path := by
  obtain ⟨next, rest, rfl⟩ := List.exists_cons_of_ne_nil hpath
  rcases Value.room?_eq_some_iff.1 hroom with hget | ⟨rfl, hget | hget⟩ <;>
  · rw [at?, hget]
    rfl

/-! ## Where a path leads -/

/-- A path leads from a map, through objects, to a value. -/
inductive Leads : Fields → Path → Value → Prop
  | last {fields : Fields} {segment : String} {v : Value} (h : fields.get? segment = some v) :
      Leads fields [segment] v
  | through {fields inner : Fields} {segment : String} {path : Path} {v : Value}
      (h : fields.get? segment = some (.object inner)) (rest : Leads inner path v) :
      Leads fields (segment :: path) v

theorem Leads.ne_nil (h : fields.Leads path v) : path ≠ [] := by
  cases h <;> simp

theorem leads_singleton_iff : fields.Leads [segment] v ↔ fields.get? segment = some v := by
  constructor
  · rintro (h | ⟨h, rest⟩)
    · exact h
    · exact absurd rfl rest.ne_nil
  · exact .last

theorem leads_cons_iff (hpath : path ≠ []) :
    fields.Leads (segment :: path) v ↔
      ∃ inner, fields.get? segment = some (.object inner) ∧ Leads inner path v := by
  constructor
  · rintro (h | ⟨h, rest⟩)
    · exact absurd rfl hpath
    · exact ⟨_, h, rest⟩
  · rintro ⟨inner, h, rest⟩
    exact .through h rest

theorem not_leads_nil : ¬ Leads [] path v := by
  rintro (h | ⟨h, -⟩) <;> cases h

/-- Below a name, a path leads on in the object that a write would go on in. -/
theorem leads_of_room (hroom : Value.room? (fields.get? segment) = some inner)
    (hpath : path ≠ []) : fields.Leads (segment :: path) v ↔ inner.Leads path v := by
  rw [leads_cons_iff hpath]
  rcases Value.room?_eq_some_iff.1 hroom with hget | ⟨rfl, hget | hget⟩ <;>
    simp [hget, not_leads_nil]

/-- What a path leads to is what is read there. -/
theorem Leads.at? (h : fields.Leads path v) : fields.at? path = some v := by
  induction h with
  | last h => rwa [at?_singleton]
  | through h rest ih =>
      rw [at?_of_room (by rw [h]; rfl) rest.ne_nil, ih]

/-! ## Writing -/

/-- What stands in the way of a write: that the path is empty, or that a part of it leads to a
value that is neither an object nor null. -/
inductive Obstructs (fields : Fields) (path : Path) : Path.Obstacle → Prop
  | emptyPath (h : path = []) : Obstructs fields path .emptyPath
  | notAnObject {front : Path} {segment : String} {v : Value} (hfront : front ++ [segment] <+: path)
      (hproper : front ++ [segment] ≠ path) (hleads : fields.Leads (front ++ [segment]) v)
      (hv : Value.room? (some v) = none) : Obstructs fields path (.notAnObject segment)

theorem not_obstructs_singleton : ¬ fields.Obstructs [segment] obstacle := by
  rintro (h | ⟨hfront, hproper, -, -⟩)
  · cases h
  · refine hproper (hfront.eq_of_length_le ?_)
    simp

/-- The first name of a path is in the way if there is no object to go on in. -/
theorem obstructs_of_no_room (hroom : Value.room? (fields.get? segment) = none)
    (hpath : path ≠ []) :
    fields.Obstructs (segment :: path) obstacle ↔ obstacle = .notAnObject segment := by
  constructor
  · rintro (h | ⟨hfront, -, hleads, -⟩)
    · cases h
    · rename_i front name v
      cases front with
      | nil =>
          obtain ⟨rfl, -⟩ := List.cons_prefix_cons.1 hfront
          rfl
      | cons next front =>
          -- the path would go on through an object
          obtain ⟨rfl, -⟩ := List.cons_prefix_cons.1 hfront
          obtain ⟨inner, hinner, -⟩ := (leads_cons_iff (by simp)).1 hleads
          rw [hinner] at hroom
          cases hroom
  · rintro rfl
    cases hget : fields.get? segment with
    | none =>
        rw [hget] at hroom
        cases hroom
    | some v =>
        rw [hget] at hroom
        exact @Obstructs.notAnObject fields _ [] segment v (by simp) (by simpa using hpath.symm)
          (.last hget) hroom

/-- If there is an object to go on in, what is in the way is in the way there. -/
theorem obstructs_of_room (hroom : Value.room? (fields.get? segment) = some inner)
    (hpath : path ≠ []) :
    fields.Obstructs (segment :: path) obstacle ↔ inner.Obstructs path obstacle := by
  constructor
  · rintro (h | ⟨hfront, hproper, hleads, hv⟩)
    · cases h
    · rename_i front name v
      cases front with
      | nil =>
          obtain ⟨rfl, -⟩ := List.cons_prefix_cons.1 hfront
          rw [leads_singleton_iff.1 hleads, hv] at hroom
          cases hroom
      | cons next front =>
          obtain ⟨rfl, hrest⟩ := List.cons_prefix_cons.1 hfront
          exact .notAnObject hrest (fun h => hproper (congrArg _ h))
            ((leads_of_room hroom (by simp)).1 hleads) hv
  · rintro (h | ⟨hfront, hproper, hleads, hv⟩)
    · exact absurd h hpath
    · rename_i front name v
      exact @Obstructs.notAnObject fields _ (segment :: front) name v
        (List.cons_prefix_cons.2 ⟨rfl, hfront⟩) (fun h => hproper (List.cons.inj h).2)
        ((leads_of_room hroom (by simp)).2 hleads) hv

/-- A write fails exactly because of what stands in its way. -/
theorem write_eq_error_iff :
    fields.write path v = .error obstacle ↔ fields.Obstructs path obstacle := by
  induction path generalizing fields with
  | nil =>
      constructor
      · rintro ⟨⟩
        exact .emptyPath rfl
      · rintro (h | ⟨hfront, -, -, -⟩)
        · rfl
        · simp at hfront
  | cons segment path ih =>
      cases path with
      | nil =>
          simp only [not_obstructs_singleton, iff_false]
          rintro ⟨⟩
      | cons next rest =>
          rw [write_cons fields segment (by simp)]
          cases hroom : Value.room? (fields.get? segment) with
          | none => simp [obstructs_of_no_room hroom, eq_comm]
          | some inner =>
              rw [obstructs_of_room hroom (by simp), ← ih]
              cases hinner : inner.write (next :: rest) v <;> simp [hinner, Except.map]

/-- Something is in the way exactly if the path is empty or a proper part of it leads to a value
that is neither an object nor null. -/
theorem exists_obstructs_iff :
    (∃ obstacle, fields.Obstructs path obstacle) ↔
      path = [] ∨ ∃ front w, front ≠ [] ∧ front <+: path ∧ front ≠ path ∧ fields.Leads front w ∧
        w ≠ .null ∧ ∀ inner, w ≠ .object inner := by
  constructor
  · rintro ⟨obstacle, h | ⟨hfront, hproper, hleads, hv⟩⟩
    · exact .inl h
    · exact .inr ⟨_, _, by simp, hfront, hproper, hleads, Value.room?_some_eq_none_iff.1 hv⟩
  · rintro (rfl | ⟨front, w, hne, hfront, hproper, hleads, hw⟩)
    · exact ⟨.emptyPath, .emptyPath rfl⟩
    · obtain ⟨rest, segment, rfl⟩ := (List.eq_nil_or_concat' front).resolve_left hne
      exact ⟨.notAnObject segment,
        .notAnObject hfront hproper hleads (Value.room?_some_eq_none_iff.2 hw)⟩

/-- Into an empty map anything can be written. -/
theorem exists_write_nil (hpath : path ≠ []) (v : Value) :
    ∃ after, write [] path v = .ok after := by
  cases hwrite : write [] path v with
  | ok after => exact ⟨after, rfl⟩
  | error obstacle =>
      rcases write_eq_error_iff.1 hwrite with h | ⟨-, -, hleads, -⟩
      · exact absurd h hpath
      · exact absurd hleads not_leads_nil

/-- The path of a write leads to what was written. -/
theorem leads_write (h : fields.write path v = .ok after) : after.Leads path v := by
  induction path generalizing fields after with
  | nil => cases h
  | cons segment path ih =>
      by_cases hpath : path = []
      · subst hpath
        cases h
        exact .last (Keyed.get?_put_self fields segment v)
      · obtain ⟨inner, written, -, hwritten, rfl⟩ := (write_cons_eq_ok_iff hpath).1 h
        exact .through (Keyed.get?_put_self fields segment _) (ih hwritten)

/-- A write changes nothing at a path that parts from its own. -/
theorem at?_write_of_apart (h : fields.write path v = .ok after) (hapart : Path.Apart path other) :
    after.at? other = fields.at? other := by
  induction path generalizing fields after other with
  | nil => cases h
  | cons segment path ih =>
      obtain ⟨name, rest, rfl⟩ := List.exists_cons_of_ne_nil hapart.right_ne_nil
      rw [Path.apart_cons_iff] at hapart
      by_cases hname : segment = name
      · -- both go on below the same name, so there is more of either
        subst hname
        obtain ⟨inner, written, hroom, hwritten, rfl⟩ :=
          (write_cons_eq_ok_iff (hapart rfl).left_ne_nil).1 h
        have hrest := (hapart rfl).right_ne_nil
        rw [at?_of_room (room?_put _ _ _) hrest, at?_of_room hroom hrest, ih hwritten (hapart rfl)]
      · have hput : ∃ u, after = fields.put segment u := by
          by_cases hpath : path = []
          · subst hpath
            cases h
            exact ⟨v, rfl⟩
          · obtain ⟨-, written, -, -, rfl⟩ := (write_cons_eq_ok_iff hpath).1 h
            exact ⟨_, rfl⟩
        obtain ⟨u, rfl⟩ := hput
        simp only [Fields.at?, Keyed.get?_put_of_ne fields u (Ne.symm hname)]

/-! ## Removing -/

/-- A removal below a name goes on in the object under that name, if there is one. -/
theorem remove_cons (hpath : path ≠ []) :
    fields.remove (segment :: path) =
      match fields.get? segment with
      | some (.object inner) =>
        ((remove inner path).1, fields.put segment (.object (remove inner path).2))
      | _ => (none, fields) := by
  obtain ⟨next, rest, rfl⟩ := List.exists_cons_of_ne_nil hpath
  rcases hget : fields.get? segment with _ | _ | _ | _ | _ | _ | _ <;> simp only [remove, hget]

/-- What a path leads to is what is removed there. -/
theorem Leads.remove (h : fields.Leads path v) : (fields.remove path).1 = some v := by
  induction h with
  | last h => exact h
  | through h rest ih => rw [remove_cons rest.ne_nil, h, ih]

/-- Where something was removed nothing is left. -/
theorem Leads.at?_remove (h : fields.Leads path v) : (fields.remove path).2.at? path = none := by
  induction h with
  | last h => rw [Fields.remove, at?_singleton, Keyed.get?_drop_self]
  | through h rest ih =>
      rw [remove_cons rest.ne_nil, h]
      rw [at?_of_room (room?_put _ _ _) rest.ne_nil, ih]

/-- Removing changes nothing at a path that parts from the removed one. -/
theorem at?_remove_of_apart (hapart : Path.Apart path other) :
    (fields.remove path).2.at? other = fields.at? other := by
  induction path generalizing fields other with
  | nil => exact absurd rfl hapart.left_ne_nil
  | cons segment path ih =>
      obtain ⟨name, rest, rfl⟩ := List.exists_cons_of_ne_nil hapart.right_ne_nil
      rw [Path.apart_cons_iff] at hapart
      by_cases hpath : path = []
      · subst hpath
        have hname : name ≠ segment := fun h => (hapart h.symm).left_ne_nil rfl
        simp only [Fields.remove, Fields.at?, Keyed.get?_drop_of_ne fields hname]
      · rw [remove_cons hpath]
        split
        · rename_i inner hinner
          by_cases hname : segment = name
          · subst hname
            have hrest := (hapart rfl).right_ne_nil
            rw [at?_of_room (room?_put _ _ _) hrest, at?_of_room (by rw [hinner]; rfl) hrest,
              ih (hapart rfl)]
          · simp only [Fields.at?, Keyed.get?_put_of_ne fields _ (Ne.symm hname)]
        · rfl

/-- At a place that can be written nothing is left by a removal, whether there was something or
not. -/
theorem at?_remove_of_write (h : fields.write path v = .ok after) :
    (fields.remove path).2.at? path = none := by
  induction path generalizing fields after with
  | nil => cases h
  | cons segment path ih =>
      by_cases hpath : path = []
      · subst hpath
        rw [remove, at?_singleton, Keyed.get?_drop_self]
      · obtain ⟨inner, written, hroom, hwritten, rfl⟩ := (write_cons_eq_ok_iff hpath).1 h
        rw [remove_cons hpath]
        split
        · rename_i found hfound
          rw [hfound] at hroom
          cases hroom
          rw [at?_of_room (room?_put _ _ _) hpath, ih hwritten]
        · -- there is no object, so nothing is found below
          rename_i hnone
          obtain ⟨rfl, -⟩ := (Value.room?_eq_some_iff.1 hroom).resolve_left (hnone inner)
          rw [at?_of_room hroom hpath, at?_nil]

/-- What is found after a removal was found before, or is what the removal left of an object. -/
theorem at?_of_remove (h : (fields.remove path).2.at? other = some w) :
    ∃ v, fields.at? other = some v ∧
      (v = w ∨ ∃ inner rest, v = .object inner ∧ w = .object rest) := by
  induction path generalizing fields other with
  | nil => exact ⟨w, h, .inl rfl⟩
  | cons segment path ih =>
      cases other with
      | nil => cases h
      | cons name below =>
          by_cases hname : name = segment
          · subst hname
            by_cases hpath : path = []
            · subst hpath
              rw [remove, at?, Keyed.get?_drop_self] at h
              cases h
            · rw [remove_cons hpath] at h
              split at h
              · rename_i inner hinner
                by_cases hbelow : below = []
                · subst hbelow
                  rw [at?_singleton, Keyed.get?_put_self] at h
                  cases h
                  exact ⟨_, (at?_singleton _ _).trans hinner, .inr ⟨_, _, rfl, rfl⟩⟩
                · rw [at?_of_room (room?_put _ _ _) hbelow] at h
                  rw [at?_of_room (by rw [hinner]; rfl) hbelow]
                  exact ih h
              · exact ⟨w, h, .inl rfl⟩
          · refine ⟨w, ?_, .inl rfl⟩
            rw [← h]
            by_cases hpath : path = []
            · subst hpath
              simp only [remove, at?, Keyed.get?_drop_of_ne fields hname]
            · rw [remove_cons hpath]
              split
              · simp only [at?, Keyed.get?_put_of_ne fields _ hname]
              · rfl

/-- A removal brings nothing about. -/
theorem at?_remove_eq_none (h : fields.at? other = none) (path : Path) :
    (fields.remove path).2.at? other = none := by
  rw [Option.eq_none_iff_forall_ne_some]
  intro w hw
  obtain ⟨v, hv, -⟩ := at?_of_remove hw
  rw [h] at hv
  cases hv

/-- No list stands on the way to a path. -/
def Unlisted (fields : Fields) (path : Path) : Prop :=
  ∀ front, front <+: path → front ≠ path → ∀ items, fields.at? front ≠ some (.array items)

theorem unlisted_singleton (fields : Fields) (segment : String) : fields.Unlisted [segment] := by
  intro front hfront hproper items hitems
  cases front with
  | nil => cases hitems
  | cons name front =>
      obtain ⟨rfl, hnil⟩ := List.cons_prefix_cons.1 hfront
      rw [List.prefix_nil.1 hnil] at hproper
      exact hproper rfl

theorem Unlisted.of_room (h : fields.Unlisted (segment :: path))
    (hroom : Value.room? (fields.get? segment) = some inner) : inner.Unlisted path := by
  intro front hfront hproper items hitems
  have hne : front ≠ [] := by
    rintro rfl
    cases hitems
  refine h (segment :: front) (List.cons_prefix_cons.2 ⟨rfl, hfront⟩)
    (fun heq => hproper (List.cons.inj heq).2) items ?_
  rw [at?_of_room hroom hne, hitems]

/-- A removal brings no list about. -/
theorem Unlisted.remove (h : fields.Unlisted other) (path : Path) :
    (fields.remove path).2.Unlisted other := by
  intro front hfront hproper items hitems
  obtain ⟨v, hv, rfl | ⟨_, _, -, ⟨⟩⟩⟩ := at?_of_remove hitems
  exact h front hfront hproper items hv

/-- Nothing is left by a removal where no list stands on the way: a removal goes through objects
only, and below anything else than an object or a list nothing is found. -/
theorem Unlisted.at?_remove (h : fields.Unlisted path) :
    (fields.remove path).2.at? path = none := by
  induction path generalizing fields with
  | nil => rfl
  | cons segment path ih =>
      by_cases hpath : path = []
      · subst hpath
        rw [Fields.remove, at?_singleton, Keyed.get?_drop_self]
      · rw [remove_cons hpath]
        split
        · rename_i inner hinner
          have hroom : Value.room? (fields.get? segment) = some inner := by
            rw [hinner]
            rfl
          rw [at?_of_room (room?_put _ _ _) hpath]
          exact ih (h.of_room hroom)
        · rename_i hobject
          obtain ⟨next, rest, rfl⟩ := List.exists_cons_of_ne_nil hpath
          rw [Fields.at?]
          cases hget : fields.get? segment with
          | none => rfl
          | some v =>
              cases v with
              | object inner => exact absurd hget (hobject inner)
              | array items =>
                  have hplace := (at?_singleton fields segment).trans hget
                  exact absurd hplace
                    (h [segment] (List.cons_prefix_cons.2 ⟨rfl, List.nil_prefix⟩) (by simp) items)
              | null | bool | number | string => rfl

/-! ## Writing in place -/

/-- Writes a value at a path, changing the map on the way down: an entry that is missing or null
makes way for an empty object before the write goes on in it. -/
def writeInPlace (fields : Fields) (path : Path) (value : Value) :
    Except Path.Obstacle Unit × Fields :=
  match path with
  | [] => (.error .emptyPath, fields)
  | [segment] => (.ok (), fields.put segment value)
  | segment :: next :: rest =>
    let below (made inner : Fields) : Except Path.Obstacle Unit × Fields :=
      let (outcome, inner) := writeInPlace inner (next :: rest) value
      (outcome, made.put segment (.object inner))
    match fields.get? segment with
    | none | some .null => below (fields.put segment (.object [])) []
    | some (.object inner) => below fields inner
    | some _ => (.error (.notAnObject segment), fields)

theorem writeInPlace_cons (hpath : path ≠ []) (v : Value) :
    fields.writeInPlace (segment :: path) v =
      match Value.room? (fields.get? segment) with
      | some inner =>
        ((writeInPlace inner path v).1,
          fields.put segment (.object (writeInPlace inner path v).2))
      | none => (.error (.notAnObject segment), fields) := by
  obtain ⟨next, rest, rfl⟩ := List.exists_cons_of_ne_nil hpath
  rw [writeInPlace]
  rcases fields.get? segment with _ | _ | _ | _ | _ | _ | _ <;>
    simp only [Value.room?, Keyed.put_put]

theorem ordered_of_room (hordered : (Value.object fields).Ordered)
    (hroom : Value.room? (fields.get? segment) = some inner) : (Value.object inner).Ordered := by
  rcases Value.room?_eq_some_iff.1 hroom with hget | ⟨rfl, -⟩
  · exact Value.orderedFields_iff.1 hordered.2 _ (Keyed.mem_of_get? hget)
  · exact ⟨.nil, trivial⟩

/-- Writing in place does what a write does, and leaves the map as it was if the write fails:
what was made on the way down is only there if it could be used. -/
theorem writeInPlace_eq (hordered : (Value.object fields).Ordered) (v : Value) :
    fields.writeInPlace path v =
      match fields.write path v with
      | .ok after => (.ok (), after)
      | .error obstacle => (.error obstacle, fields) := by
  induction path generalizing fields with
  | nil => rfl
  | cons segment path ih =>
      by_cases hpath : path = []
      · subst hpath
        rfl
      · rw [writeInPlace_cons hpath, write_cons fields segment hpath]
        cases hroom : Value.room? (fields.get? segment) with
        | none => rfl
        | some inner =>
            simp only [ih (ordered_of_room hordered hroom)]
            cases hwrite : write inner path v with
            | ok written => rfl
            | error obstacle =>
                -- an object that was made for the write would have taken it
                have hget : fields.get? segment = some (.object inner) := by
                  refine (Value.room?_eq_some_iff.1 hroom).resolve_right ?_
                  rintro ⟨rfl, -⟩
                  obtain ⟨after, hafter⟩ := exists_write_nil hpath v
                  rw [hwrite] at hafter
                  cases hafter
                simp only [Except.map, Keyed.put_of_get? hordered.1 hget]

/-! ## The laws -/

/-- A write at a path fails exactly if the path is empty or a proper part of it leads, through
objects, to a value that is neither an object nor null, and then it has changed nothing, also if it
changes the map on its way down.  After a write that succeeded the value is found at the path, and
what is found at a path that parts from it is as before.  A removal then gives the value and leaves
nothing at the path, and what is found at a path that parts from it is still as before. -/
theorem paths_keep_their_laws (m : Fields) (hordered : (Value.object m).Ordered) (p : Path)
    (v : Value) :
    ((∃ obstacle, m.write p v = .error obstacle) ↔
      p = [] ∨ ∃ front w, front ≠ [] ∧ front <+: p ∧ front ≠ p ∧ m.Leads front w ∧
        w ≠ .null ∧ ∀ inner, w ≠ .object inner) ∧
    (m.writeInPlace p v =
      match m.write p v with
      | .ok after => (.ok (), after)
      | .error obstacle => (.error obstacle, m)) ∧
    ∀ after, m.write p v = .ok after →
      after.at? p = some v ∧
      (∀ q, Path.Apart p q → after.at? q = m.at? q) ∧
      (after.remove p).1 = some v ∧
      (after.remove p).2.at? p = none ∧
      ∀ q, Path.Apart p q → (after.remove p).2.at? q = m.at? q := by
  refine ⟨?_, writeInPlace_eq hordered v, fun after h => ?_⟩
  · simp only [write_eq_error_iff, exists_obstructs_iff]
  · have hleads := leads_write h
    refine ⟨hleads.at?, fun q hq => at?_write_of_apart h hq, hleads.remove, hleads.at?_remove,
      fun q hq => ?_⟩
    rw [at?_remove_of_apart hq, at?_write_of_apart h hq]

/-- The data of a session with a profile. -/
def profile : Fields :=
  [("age", .ofInt 36), ("profile", .object [("city", .null), ("name", .string "Ada")])]

/-- A street can be written below the city, which is null, and removed again, and the name stays;
below the age nothing can be written. -/
theorem street_is_written_and_removed :
    let path : Path := ["profile", "city", "street"]
    let street : Value := .string "Main"
    let written : Fields := [("age", .ofInt 36),
      ("profile", .object [("city", .object [("street", street)]), ("name", .string "Ada")])]
    (Value.object profile).Ordered ∧
      profile.write path street = .ok written ∧
      written.at? path = some street ∧
      (written.remove path).1 = some street ∧
      (written.remove path).2.at? path = none ∧
      Path.Apart path ["profile", "name"] ∧
      (written.remove path).2.at? ["profile", "name"] = profile.at? ["profile", "name"] ∧
      profile.writeInPlace ["age", "years"] street =
        (.error (.notAnObject "age"), profile) := by
  intro path street written
  have hordered : (Value.object profile).Ordered := by
    simp only [profile, Value.Ordered, Value.OrderedFields, Keyed.Ordered, Value.ofInt,
      List.pairwise_cons]
    decide
  have hwrite : profile.write path street = .ok written := by
    cbv
  obtain ⟨-, -, hlaws⟩ := paths_keep_their_laws profile hordered path street
  obtain ⟨hfound, -, hremoved, hgone, hrest⟩ := hlaws written hwrite
  have hapart : Path.Apart path ["profile", "name"] := by
    decide
  obtain ⟨-, hplace, -⟩ := paths_keep_their_laws profile hordered ["age", "years"] street
  exact ⟨hordered, hwrite, hfound, hremoved, hgone, hapart, hrest _ hapart, hplace⟩

end Fields
end Dialogue
