import Dialogue.Json.Decoder
import Dialogue.Proofs.Likeness

/-!
# Laws of decoders

What is written in memory is a value, and a decoder reads it as a document of its own height, so
no limit on depth is in the way.

* `Decoder.Reads`: at every depth that leaves room for it a decoder reads a value as something.
  Texts, lists, maps and whole values are read as what they were written from, and so are the
  fields of a record that was written as an object (`Record.open?_record`).
* `Decoder.Yields`: whatever a decoder reads has a property.  The maps that are read are in order,
  at every depth of a value.
* `Decoder.Normalizes`: a written form is read back, and written in the same form again.
-/

namespace Dialogue

/-! ## Documents of values -/

namespace Document

theorem ofItems_eq (items : List Value) : ofItems items = items.map ofValue := by
  induction items with
  | nil => rfl
  | cons v rest ih => rw [ofItems, ih, List.map_cons]

theorem ofFields_eq (fields : List (String × Value)) :
    ofFields fields = fields.map fun entry => (some entry.1, ofValue entry.2) := by
  induction fields with
  | nil => rfl
  | cons entry rest ih => rw [ofFields, ih, List.map_cons]

theorem itemsHeight_le_iff {items : List Document} {n : Nat} :
    itemsHeight items ≤ n ↔ ∀ d ∈ items, d.height ≤ n := by
  induction items with
  | nil => simp [itemsHeight]
  | cons d rest ih => simp [itemsHeight, ih]

theorem membersHeight_le_iff {members : List (Option String × Document)} {n : Nat} :
    membersHeight members ≤ n ↔ ∀ member ∈ members, member.2.height ≤ n := by
  induction members with
  | nil => simp [membersHeight]
  | cons member rest ih => simp [membersHeight, ih]

theorem height_array_le_iff {items : List Value} {depth : Nat} :
    (ofValue (.array items)).height ≤ depth ↔
      depth ≠ 0 ∧ ∀ v ∈ items, (ofValue v).height ≤ depth - 1 := by
  have hitems : itemsHeight (ofItems items) ≤ depth - 1 ↔
      ∀ v ∈ items, (ofValue v).height ≤ depth - 1 := by
    rw [itemsHeight_le_iff, ofItems_eq, List.forall_mem_map]
  rw [← hitems, ofValue, height]
  omega

theorem height_object_le_iff {fields : Fields} {depth : Nat} :
    (ofValue (.object fields)).height ≤ depth ↔
      depth ≠ 0 ∧ ∀ entry ∈ fields, (ofValue entry.2).height ≤ depth - 1 := by
  have hfields : membersHeight (ofFields fields) ≤ depth - 1 ↔
      ∀ entry ∈ fields, (ofValue entry.2).height ≤ depth - 1 := by
    rw [membersHeight_le_iff, ofFields_eq, List.forall_mem_map]
  rw [← hfields, ofValue, height]
  omega

end Document

namespace Decoder

variable {α β : Type} {decode : Decoder α} {write : α → Value}

/-- At every depth that leaves room for it, a value is read as something. -/
def Reads (decode : Decoder α) (v : Value) (a : α) : Prop :=
  ∀ depth, (Document.ofValue v).height ≤ depth → decode depth (Document.ofValue v) = some a

theorem Reads.ofValue? {v : Value} {a : α} (h : decode.Reads v a) : decode.ofValue? v = some a :=
  h _ le_rfl

theorem reads_text (s : String) : text.Reads (.string s) s := fun _ _ => rfl

theorem reads_nullable (s? : Option String) : (nullable text).Reads (.ofText? s?) s? := by
  intro depth _
  cases s? <;> rfl

/-- A list of things that are read one by one. -/
theorem mapM_map_eq_some {f : β → Option α} {g : α → β} {items : List α}
    (h : ∀ a ∈ items, f (g a) = some a) : (items.map g).mapM f = some items := by
  induction items with
  | nil => rfl
  | cons a rest ih =>
      obtain ⟨hhead, hrest⟩ := List.forall_mem_cons.1 h
      rw [List.map_cons, List.mapM_cons, hhead, ih hrest]
      rfl

theorem reads_list {items : List α} (h : ∀ a ∈ items, decode.Reads (write a) a) :
    (list decode).Reads (.array (items.map write)) items := by
  intro depth hdepth
  obtain ⟨hpos, hitems⟩ := Document.height_array_le_iff.1 hdepth
  rw [Document.ofValue, Document.ofItems_eq, List.map_map, list, if_neg hpos]
  refine mapM_map_eq_some fun a ha => ?_
  exact h a ha _ (hitems _ (List.mem_map_of_mem ha))

theorem reads_texts (texts : List String) : (list text).Reads (.ofTexts texts) texts :=
  reads_list fun s _ => reads_text s

theorem reads_keyed {m : Keyed α} (hordered : m.Ordered)
    (h : ∀ entry ∈ m, decode.Reads (write entry.2) entry.2) :
    (keyed decode).Reads (.object (m.mapValues write)) m := by
  intro depth hdepth
  obtain ⟨hpos, hfields⟩ := Document.height_object_le_iff.1 hdepth
  have hentries : (Document.ofFields (m.mapValues write)).mapM
      (fun (member : Option String × Document) => do
        let name ← member.1
        let a ← decode (depth - 1) member.2
        some (name, a)) = some m := by
    rw [Document.ofFields_eq, Keyed.mapValues, List.map_map]
    refine mapM_map_eq_some fun entry hentry => ?_
    have hread := h entry hentry (depth - 1) (hfields _ (List.mem_map_of_mem hentry))
    simp [hread]
  rw [Document.ofValue, keyed, if_neg hpos, hentries, Option.map_some,
    Keyed.ofEntries_eq_self hordered]

/-! ## Whole values -/

theorem itemValues?_eq (depth : Nat) (items : List Document) :
    Document.itemValues? depth items = items.mapM (value depth) := by
  induction items with
  | nil => rfl
  | cons d rest ih => rw [Document.itemValues?, ih, List.mapM_cons]; rfl

theorem memberValues?_eq (depth : Nat) (members : List (Option String × Document)) :
    Document.memberValues? depth members =
      (members.mapM fun (member : Option String × Document) => do
        let name ← member.1
        let v ← value depth member.2
        some (name, v)) := by
  induction members with
  | nil => rfl
  | cons member rest ih =>
      rw [Document.memberValues?, ih, List.mapM_cons]
      simp only [Option.bind_eq_bind, Option.bind_assoc, Option.bind_some]
      rfl

/-- A value in brackets is a list of values. -/
theorem value_array (depth : Nat) (items : List Document) :
    value depth (.array items) = (list value depth (.array items)).map .array := by
  rw [list, value, Document.value?, itemValues?_eq]
  by_cases hdepth : depth = 0
  · rw [if_pos hdepth, if_pos hdepth, Option.map_none]
  · rw [if_neg hdepth, if_neg hdepth]
    rfl

/-- A value in braces is made of fields. -/
theorem value_object (depth : Nat) (members : List (Option String × Document)) :
    value depth (.object members) = (fields depth (.object members)).map .object := by
  rw [fields, keyed, value, Document.value?, memberValues?_eq]
  by_cases hdepth : depth = 0
  · rw [if_pos hdepth, if_pos hdepth, Option.map_none]
  · rw [if_neg hdepth, if_neg hdepth, Option.map_map]
    rfl

/-- Fields that are in order are read as they are. -/
theorem reads_fields_of {m : Fields} (hordered : Keyed.Ordered m)
    (h : ∀ entry ∈ m, value.Reads entry.2 entry.2) : fields.Reads (.object m) m := by
  have hread : (keyed value).Reads (.object (m.mapValues id)) m := reads_keyed hordered h
  rwa [show Keyed.mapValues id m = m from List.map_id m] at hread

/-- A value that is in order is read as itself. -/
theorem reads_value {v : Value} (h : v.Ordered) : value.Reads v v := by
  induction v using Value.parts_induction with
  | null | bool | number | string => exact fun _ _ => rfl
  | array items ih =>
      have hlist : (list value).Reads (.array (items.map id)) items :=
        reads_list fun v hv => ih v hv (Value.orderedItems_iff.1 h v hv)
      intro depth hdepth
      rw [List.map_id] at hlist
      have hread := hlist depth hdepth
      rw [Document.ofValue] at hread ⊢
      rw [value_array, hread, Option.map_some]
  | object m ih =>
      have hfields : fields.Reads (.object m) m := reads_fields_of h.1 fun entry hentry =>
        ih entry.2 (List.mem_map_of_mem hentry) (Value.orderedFields_iff.1 h.2 entry hentry)
      intro depth hdepth
      have hread := hfields depth hdepth
      rw [Document.ofValue] at hread ⊢
      rw [value_object, hread, Option.map_some]

theorem reads_fields {m : Fields} (h : (Value.object m).Ordered) : fields.Reads (.object m) m :=
  reads_fields_of h.1 fun entry hentry => reads_value (Value.orderedFields_iff.1 h.2 entry hentry)

/-! ## What is read -/

/-- Whatever is read has a property. -/
def Yields (decode : Decoder α) (P : α → Prop) : Prop :=
  ∀ depth d a, decode depth d = some a → P a

/-- What a list of readings gives was read from its items. -/
theorem exists_of_mapM {f : β → Option α} {items : List β} {results : List α}
    (h : items.mapM f = some results) : ∀ a ∈ results, ∃ item ∈ items, f item = some a := by
  induction items generalizing results with
  | nil =>
      cases h
      simp
  | cons item rest ih =>
      rw [List.mapM_cons] at h
      obtain ⟨a, ha, h⟩ := Option.bind_eq_some_iff.1 h
      obtain ⟨others, hothers, h⟩ := Option.bind_eq_some_iff.1 h
      cases h
      refine List.forall_mem_cons.2 ⟨⟨item, List.mem_cons_self, ha⟩, fun b hb => ?_⟩
      obtain ⟨other, hother, hread⟩ := ih hothers b hb
      exact ⟨other, List.mem_cons_of_mem item hother, hread⟩

/-- A map that is read is in order, and its values were read one level further down. -/
theorem exists_of_keyed {depth : Nat} {d : Document} {m : Keyed α}
    (h : keyed decode depth d = some m) :
    m.Ordered ∧ ∃ below < depth, ∀ entry ∈ m, ∃ d, decode below d = some entry.2 := by
  unfold keyed at h
  split at h
  · split at h
    · cases h
    · rename_i hdepth
      obtain ⟨entries, hentries, rfl⟩ := Option.map_eq_some_iff.1 h
      refine ⟨Keyed.ordered_ofEntries entries, depth - 1, by omega, fun entry hentry => ?_⟩
      obtain ⟨member, -, hread⟩ := exists_of_mapM hentries entry (Keyed.mem_of_mem_ofEntries hentry)
      obtain ⟨name, -, hread⟩ := Option.bind_eq_some_iff.1 hread
      obtain ⟨a, ha, hread⟩ := Option.bind_eq_some_iff.1 hread
      cases hread
      exact ⟨member.2, ha⟩
  · cases h

theorem yields_keyed {P : α → Prop} (h : decode.Yields P) :
    (keyed decode).Yields fun m => m.Ordered ∧ ∀ entry ∈ m, P entry.2 := by
  intro depth d m hm
  obtain ⟨hordered, below, -, hread⟩ := exists_of_keyed hm
  refine ⟨hordered, fun entry hentry => ?_⟩
  obtain ⟨d, hd⟩ := hread entry hentry
  exact h below d entry.2 hd

/-- Every value that is read is in order: the maps in it were built entry by entry. -/
theorem yields_value : value.Yields Value.Ordered := by
  intro depth
  induction depth using Nat.strong_induction_on with
  | _ depth ih =>
      intro d v hv
      cases d with
      | null | bool =>
          cases hv
          trivial
      | number n =>
          obtain ⟨_, -, rfl⟩ := Option.map_eq_some_iff.1 hv
          trivial
      | string s =>
          obtain ⟨_, -, rfl⟩ := Option.map_eq_some_iff.1 hv
          trivial
      | array items =>
          rw [value_array, list] at hv
          split at hv
          · cases hv
          · rename_i hdepth
            obtain ⟨values, hvalues, rfl⟩ := Option.map_eq_some_iff.1 hv
            refine Value.orderedItems_iff.2 fun v hv => ?_
            obtain ⟨item, -, hitem⟩ := exists_of_mapM hvalues v hv
            exact ih (depth - 1) (by omega) item v hitem
      | object members =>
          rw [value_object] at hv
          obtain ⟨m, hm, rfl⟩ := Option.map_eq_some_iff.1 hv
          obtain ⟨hordered, below, hbelow, hread⟩ := exists_of_keyed hm
          refine ⟨hordered, Value.orderedFields_iff.2 fun entry hentry => ?_⟩
          obtain ⟨d, hd⟩ := hread entry hentry
          exact ih below hbelow d entry.2 hd

theorem yields_fields : fields.Yields fun m => (Value.object m).Ordered := by
  intro depth d m hm
  obtain ⟨hordered, hvalues⟩ := yields_keyed yields_value depth d m hm
  exact ⟨hordered, Value.orderedFields_iff.2 hvalues⟩

end Decoder

/-! ## Records -/

namespace Record

variable {α : Type} {decode : Decoder α} {P : α → Prop}

/-- The fields of a record are the documents of some values, and there is room for them. -/
structure Shows (r : Record) (written : List (String × Value)) : Prop where
  lookup : ∀ name, r.fields.lookup name = (Keyed.get? written name).map Document.ofValue
  room : ∀ name v, Keyed.get? written name = some v → (Document.ofValue v).height ≤ r.depth
  named : r.positional = false

section

variable {r : Record} {written : List (String × Value)} {v : Value} {a : α}

/-- A field that is there is read from its value. -/
theorem Shows.required (h : r.Shows written) (name : String)
    (hget : Keyed.get? written name = some v)
    (hread : decode.Reads v a) : r.required name decode = some a := by
  rw [Record.required, h.lookup, hget]
  exact hread _ (h.room _ _ hget)

theorem Shows.getD (h : r.Shows written) (name : String) (default : α)
    (hget : Keyed.get? written name = some v)
    (hread : decode.Reads v a) : r.getD name default decode = some a := by
  rw [Record.getD, h.lookup, hget]
  exact hread _ (h.room _ _ hget)

/-- In place of a field that is missing there is its default. -/
theorem Shows.getD_default (h : r.Shows written) (name : String) (default : α)
    (decode : Decoder α) (hget : Keyed.get? written name = none) :
    r.getD name default decode = some default := by
  rw [Record.getD, h.lookup, hget]
  rfl

end

theorem ofMembers?_ofFields {names : List String} {m : Fields} (hordered : Keyed.Ordered m)
    (hnames : ∀ entry ∈ m, entry.1 ∈ names) :
    ofMembers? names (Document.ofFields m) = some (m.mapValues Document.ofValue) := by
  have hmembers : Document.ofFields m =
      (m.mapValues Document.ofValue).map fun field => (some field.1, field.2) := by
    rw [Document.ofFields_eq, Keyed.mapValues, List.map_map]
    rfl
  have hnamed : (Document.ofFields m).mapM
      (fun member => member.1.map fun name => (name, member.2)) =
        some (m.mapValues Document.ofValue) := by
    rw [hmembers]
    exact Decoder.mapM_map_eq_some fun _ _ => rfl
  have hknown : (m.mapValues Document.ofValue).filter (fun field => names.contains field.1) =
      m.mapValues Document.ofValue := by
    refine List.filter_eq_self.2 fun field hfield => ?_
    obtain ⟨entry, hentry, rfl⟩ := List.mem_map.1 hfield
    simpa using hnames entry hentry
  have hnodup : (Keyed.keys (m.mapValues Document.ofValue)).Nodup := by
    rw [Keyed.keys_mapValues]
    exact Keyed.nodup_keys hordered
  rw [ofMembers?, hnamed, Option.bind_eq_bind, Option.bind_some, hknown]
  exact if_pos hnodup

/-- An object is opened as a record if all of its fields are fields of the record. -/
theorem exists_open?_of_object (names : List String) {m : Fields} {depth : Nat}
    (hordered : Keyed.Ordered m) (hnames : ∀ entry ∈ m, entry.1 ∈ names)
    (hdepth : (Document.ofValue (.object m)).height ≤ depth) :
    ∃ r, open? names depth (Document.ofValue (.object m)) = some r ∧ r.Shows m := by
  obtain ⟨hpos, hroom⟩ := Document.height_object_le_iff.1 hdepth
  refine ⟨{ fields := m.mapValues Document.ofValue, positional := false, depth := depth - 1 }, ?_,
    Keyed.get?_mapValues Document.ofValue m, fun name v hget => hroom _ (Keyed.mem_of_get? hget),
    rfl⟩
  rw [Document.ofValue, open?, if_neg hpos, ofMembers?_ofFields hordered hnames]
  rfl

/-- It does not matter in which order the fields were written. -/
theorem Shows.of_get?_eq {r : Record} {m written : List (String × Value)} (h : r.Shows m)
    (hget : ∀ name, Keyed.get? m name = Keyed.get? written name) : r.Shows written where
  lookup name := by rw [h.lookup, hget]
  room name v hv := h.room name v ((hget name).trans hv)
  named := h.named

/-- So is what was written as a record. -/
theorem exists_open? (names : List String) {written : List (String × Value)} {depth : Nat}
    (hnodup : (written.map Prod.fst).Nodup) (hnames : ∀ field ∈ written, field.1 ∈ names)
    (hdepth : (Document.ofValue (.record written)).height ≤ depth) :
    ∃ r, open? names depth (Document.ofValue (.record written)) = some r ∧ r.Shows written := by
  obtain ⟨r, hopen, hshows⟩ := exists_open?_of_object names (Keyed.ordered_ofEntries written)
    (fun field hfield => hnames field (Keyed.mem_of_mem_ofEntries hfield)) hdepth
  exact ⟨r, hopen, hshows.of_get?_eq (Keyed.get?_ofEntries_of_nodup hnodup)⟩

/-- What is read at a field has a property if the default has it. -/
theorem yields_getD (P : α → Prop) {r : Record} {name : String} {default a : α}
    (hdefault : P default) (h : decode.Yields P) (hread : r.getD name default decode = some a) :
    P a := by
  unfold getD at hread
  split at hread
  · exact h _ _ a hread
  · cases hread
    exact hdefault

section

variable {r : Record} {name : String}

theorem ordered_of_getD_value {v : Value} (h : r.getD name .null Decoder.value = some v) :
    v.Ordered := by
  have hnull : Value.null.Ordered := trivial
  exact yields_getD Value.Ordered hnull Decoder.yields_value h

theorem ordered_of_getD_fields {m : Fields} (h : r.getD name [] Decoder.fields = some m) :
    (Value.object m).Ordered := by
  exact yields_getD (fun m => (Value.object m).Ordered) ⟨.nil, trivial⟩ Decoder.yields_fields h

theorem ordered_of_getD_keyed {m : Keyed α} (hyields : decode.Yields P)
    (h : r.getD name [] (Decoder.keyed decode) = some m) :
    m.Ordered ∧ ∀ entry ∈ m, P entry.2 := by
  exact yields_getD (fun m => Keyed.Ordered m ∧ ∀ entry ∈ m, P entry.2)
    ⟨.nil, List.forall_mem_nil _⟩ (Decoder.yields_keyed hyields) h

end

end Record

/-! ## Normal forms -/

namespace Decoder

variable {α : Type} {decode : Decoder α} {write : α → Value}

/-- What a value is written as after it was read. -/
def normalForm? (decode : Decoder α) (write : α → Value) (v : Value) : Option Value :=
  (decode.ofValue? v).map write

/-- Whatever is read is written in a form that is read as the same, and that is its own normal
form. -/
def Normalizes (decode : Decoder α) (write : α → Value) : Prop :=
  ∀ v a, decode.ofValue? v = some a →
    decode.normalForm? write v = some (write a) ∧ decode.ofValue? (write a) = some a ∧
    decode.normalForm? write (write a) = some (write a)

/-- It is enough that what is read is read back once it is written. -/
theorem normalizes_of_reads {P : α → Prop} (hyields : decode.Yields P)
    (hreads : ∀ a, P a → decode.Reads (write a) a) : decode.Normalizes write := by
  intro v a hread
  have hback : decode.ofValue? (write a) = some a := (hreads a (hyields _ _ a hread)).ofValue?
  refine ⟨?_, hback, ?_⟩
  · rw [normalForm?, hread, Option.map_some]
  · rw [normalForm?, hback, Option.map_some]

end Decoder
end Dialogue
