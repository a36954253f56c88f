import Dialogue.Proofs.Slots

/-!
# The storage as a flat map

The storage keeps its entries in namespaces.  Nothing of that shows: `SessionStorage.Refines` says
when a storage holds the same entries as a finite map of slots, whatever empty namespaces it has,
and every operation keeps this and gives the same answer on both sides
(`SessionStorage.Refines.apply`).

`SessionStorage.storage_is_flat` says so of every course of operations.  It also says what the flat
map makes plain: an operation is not affected by what is done in other namespaces, and an entry
that is to be cleared is read at most once.
-/

namespace Dialogue
namespace SessionStorage

/-- What is done to one slot. -/
inductive Deed where
  | write (value : Value) (clearAfterRead : Bool)
  | read (consume : Bool)
  | remove

/-- Something that is done to the slot with a namespace and a key. -/
structure Operation where
  ns : String
  key : String
  deed : Deed

/-- A map from slots to entries. -/
abbrev Flat := Finmap fun _ : String × String => StoredEntry

namespace Operation

/-- What an operation does to a storage. -/
def apply (op : Operation) (s : SessionStorage) : Option Value × SessionStorage :=
  match op.deed with
  | .write value clearAfterRead => (none, s.write op.ns op.key value clearAfterRead)
  | .read consume => s.read op.ns op.key consume
  | .remove => s.remove op.ns op.key

/-- What an operation does to a flat map: a write replaces value and mark, a read deletes what is
consumed or marked, and a removal deletes. -/
def applyFlat (op : Operation) (m : Flat) : Option Value × Flat :=
  let slot := (op.ns, op.key)
  let found := m.lookup slot
  match op.deed with
  | .write value clearAfterRead => (none, m.insert slot { value, clearAfterRead })
  | .read consume =>
    (found.map StoredEntry.value,
      if found.any fun entry => consume || entry.clearAfterRead then m.erase slot else m)
  | .remove => (found.map StoredEntry.value, m.erase slot)

/-- Whether an operation is about a slot. -/
def isAt (op : Operation) (ns key : String) : Bool := op.ns == ns && op.key == key

theorem isAt_iff {op : Operation} {ns key : String} :
    op.isAt ns key = true ↔ op.ns = ns ∧ op.key = key := by simp [isAt]

/-- Whether an operation is a write to a slot. -/
def isWriteTo (op : Operation) (ns key : String) : Bool :=
  op.isAt ns key && op.deed matches .write _ _

/-- Whether an operation is a read of a slot. -/
def isReadOf (op : Operation) (ns key : String) : Bool :=
  op.isAt ns key && op.deed matches .read _

end Operation

/-- What is left after operations that are done one after the other. -/
def after {S : Type} (apply : Operation → S → Option Value × S) : List Operation → S → S
  | [], s => s
  | op :: rest, s => after apply rest (apply op s).2

/-- The values that such operations return. -/
def values {S : Type} (apply : Operation → S → Option Value × S) :
    List Operation → S → List (Option Value)
  | [], _ => []
  | op :: rest, s => (apply op s).1 :: values apply rest (apply op s).2

/-- The operations, each with the value that it returns. -/
def answers (ops : List Operation) (s : SessionStorage) : List (Operation × Option Value) :=
  ops.zip (values Operation.apply ops s)

/-- How many reads of a slot return something. -/
def reads (ns key : String) (ops : List Operation) (s : SessionStorage) : Nat :=
  (answers ops s).countP fun answer => answer.1.isReadOf ns key && answer.2.isSome

variable {s t : SessionStorage} {m : Flat} {ns key : String}

theorem answers_cons (op : Operation) (rest : List Operation) (s : SessionStorage) :
    answers (op :: rest) s = (op, (op.apply s).1) :: answers rest (op.apply s).2 := rfl

/-! ## Entries -/

theorem get?_remove (s : SessionStorage) (ns key ns' key' : String) :
    (s.remove ns key).2.get? ns' key' =
      if ns' = ns ∧ key' = key then none else s.get? ns' key' := by
  unfold remove
  split
  · rename_i hnone
    split
    · rename_i heq
      obtain ⟨rfl, rfl⟩ := heq
      exact hnone
    · rfl
  · by_cases hns : ns' = ns
    · subst hns
      simp [get?, entries, Keyed.get?_drop]
    · simp [get?, entries, Keyed.get?_put, hns]

theorem fst_remove (s : SessionStorage) (ns key : String) :
    (s.remove ns key).1 = (s.get? ns key).map StoredEntry.value := by
  unfold remove
  split
  · rename_i hnone
    rw [hnone]
    rfl
  · rename_i entry hentry
    rw [hentry]
    rfl

theorem takesOut_eq (s : SessionStorage) (ns key : String) (consume : Bool) :
    s.takesOut ns key consume =
      (s.get? ns key).any fun entry => consume || entry.clearAfterRead := by
  unfold takesOut
  split
  · rename_i hnone
    rw [hnone]
    rfl
  · rename_i entry hentry
    rw [hentry]
    rfl

/-- A value depends on nothing but the entry of its slot. -/
theorem fst_apply (op : Operation) (s : SessionStorage) :
    (op.apply s).1 = match op.deed with
      | .write _ _ => none
      | _ => (s.get? op.ns op.key).map StoredEntry.value := by
  unfold Operation.apply
  cases op.deed with
  | write => rfl
  | read => exact fst_read s _ _ _
  | remove => exact fst_remove s _ _

/-- An operation leaves all other slots alone. -/
theorem get?_apply_of_ne (op : Operation) (s : SessionStorage) (h : ¬ (ns = op.ns ∧ key = op.key)) :
    (op.apply s).2.get? ns key = s.get? ns key := by
  unfold Operation.apply
  split
  · rw [get?_write, if_neg h]
  · rw [get?_read, if_neg fun hslot => h hslot.1]
  · rw [get?_remove, if_neg h]

/-! ## Well-formed storages -/

/-- Namespaces are in order, and so are the entries of each. -/
structure Tidy (s : SessionStorage) : Prop where
  namespaces : s.namespaces.Ordered
  entries : ∀ found ∈ s.namespaces, Keyed.Ordered found.2

/-- The slots that hold an entry. -/
def slots (s : SessionStorage) : List (String × String) :=
  s.namespaces.flatMap fun found => found.2.keys.map fun key => (found.1, key)

theorem length_slots (s : SessionStorage) : s.slots.length = s.size := by
  unfold slots size Keyed.values
  induction s.namespaces with
  | nil => rfl
  | cons found rest ih =>
      rw [List.flatMap_cons, List.length_append, ih, List.length_map, Keyed.keys, List.length_map]
      rfl

namespace Tidy

theorem entries_ordered (h : s.Tidy) (ns : String) : (s.entries ns).Ordered := by
  unfold SessionStorage.entries
  cases hfound : s.namespaces.get? ns with
  | none => exact .nil
  | some found => exact h.entries _ (Keyed.mem_of_get? hfound)

theorem put (h : s.Tidy) (ns : String) {found : Keyed StoredEntry} (hfound : found.Ordered) :
    Tidy { namespaces := s.namespaces.put ns found } where
  namespaces := Keyed.ordered_put h.namespaces ns found
  entries := by
    intro other hother
    rcases Keyed.mem_of_mem_put hother with rfl | hold
    · exact hfound
    · exact h.entries other hold

theorem drop (h : s.Tidy) (ns : String) : Tidy { namespaces := s.namespaces.drop ns } where
  namespaces := Keyed.ordered_drop h.namespaces ns
  entries other hother := h.entries other (List.mem_filter.1 hother).1

theorem apply (h : s.Tidy) (op : Operation) : (op.apply s).2.Tidy := by
  have hentries := h.entries_ordered op.ns
  unfold Operation.apply
  split
  · exact h.put op.ns (Keyed.ordered_put hentries _ _)
  · rename_i consume _
    unfold read
    split
    · exact h
    · split
      · -- the namespace goes with its last entry
        dsimp only
        split
        · exact h.drop op.ns
        · exact h.put op.ns (Keyed.ordered_drop hentries _)
      · exact h
  · unfold remove
    split
    · exact h
    · exact h.put op.ns (Keyed.ordered_drop hentries _)

theorem mem_slots (h : s.Tidy) : (ns, key) ∈ s.slots ↔ (s.get? ns key).isSome := by
  constructor
  · intro hmem
    obtain ⟨⟨ns, found⟩, hfound, hkey⟩ := List.mem_flatMap.1 hmem
    obtain ⟨_, hkey, ⟨⟩⟩ := List.mem_map.1 hkey
    obtain ⟨⟨key, entry⟩, hentry, rfl⟩ := List.mem_map.1 hkey
    have hns : s.entries ns = found := by
      simp [SessionStorage.entries, Keyed.get?_of_mem h.namespaces hfound]
    rw [SessionStorage.get?, hns, Keyed.get?_of_mem (h.entries _ hfound) hentry]
    rfl
  · intro hsome
    obtain ⟨entry, hentry⟩ := Option.isSome_iff_exists.1 hsome
    rw [SessionStorage.get?, SessionStorage.entries] at hentry
    cases hfound : s.namespaces.get? ns with
    | none =>
        rw [hfound] at hentry
        cases hentry
    | some found =>
        rw [hfound] at hentry
        refine List.mem_flatMap.2 ⟨_, Keyed.mem_of_get? hfound, List.mem_map.2 ⟨key, ?_, rfl⟩⟩
        exact List.mem_map.2 ⟨_, Keyed.mem_of_get? hentry, rfl⟩

theorem nodup_slots (h : s.Tidy) : s.slots.Nodup := by
  refine List.nodup_flatMap.2 ⟨fun found hfound => ?_, h.namespaces.imp fun {a b} hlt => ?_⟩
  · have hkeys := (Keyed.sorted_keys (h.entries found hfound)).imp ne_of_lt
    exact List.Nodup.map (fun _ _ heq => congrArg Prod.snd heq) hkeys
  · -- different namespaces have different slots
    rw [Function.onFun, List.disjoint_left]
    rintro _ ha hb
    obtain ⟨_, -, rfl⟩ := List.mem_map.1 ha
    obtain ⟨_, -, heq⟩ := List.mem_map.1 hb
    exact absurd (congrArg Prod.fst heq) hlt.ne'

end Tidy

/-! ## Refinement -/

/-- The storage holds the entries of the flat map; it may have empty namespaces besides. -/
structure Refines (s : SessionStorage) (m : Flat) : Prop where
  tidy : s.Tidy
  lookup_eq : ∀ ns key, m.lookup (ns, key) = s.get? ns key

namespace Refines

theorem empty : Refines {} ∅ where
  tidy := ⟨.nil, nofun⟩
  lookup_eq _ _ := rfl

theorem keys_eq (h : s.Refines m) : m.keys = s.slots.toFinset := by
  ext ⟨ns, key⟩
  rw [Finmap.mem_keys, ← Finmap.lookup_isSome, h.lookup_eq, List.mem_toFinset, h.tidy.mem_slots]

theorem card_keys (h : s.Refines m) : m.keys.card = s.size := by
  rw [h.keys_eq, List.toFinset_card_of_nodup h.tidy.nodup_slots, length_slots]

theorem isEmpty_eq (h : s.Refines m) : s.isEmpty = decide (m.keys = ∅) := by
  rw [isEmpty, ← h.card_keys, Bool.eq_iff_iff, beq_iff_eq, decide_eq_true_iff, Finset.card_eq_zero]

/-- An operation gives the same answer on both sides and keeps them in step. -/
theorem apply (h : s.Refines m) (op : Operation) :
    (op.apply s).1 = (op.applyFlat m).1 ∧ (op.apply s).2.Refines (op.applyFlat m).2 := by
  have hlookup := h.lookup_eq op.ns op.key
  have herase (ns key : String) : (m.erase (op.ns, op.key)).lookup (ns, key) =
      if ns = op.ns ∧ key = op.key then none else s.get? ns key := by
    split
    · rename_i heq
      rw [heq.1, heq.2, Finmap.lookup_erase]
    · rename_i hne
      rw [Finmap.lookup_erase_ne (by simpa using hne), h.lookup_eq]
  refine ⟨?_, h.tidy.apply op, fun ns key => ?_⟩
  · rw [fst_apply, Operation.applyFlat]
    cases op.deed <;> simp only [hlookup]
  · -- what is found in every slot afterwards; an empty namespace that is left holds nothing
    rw [Operation.applyFlat, Operation.apply]
    cases op.deed with
    | write v clearAfterRead =>
        simp only [get?_write]
        split
        · rename_i heq
          rw [heq.1, heq.2, Finmap.lookup_insert]
        · rename_i hne
          rw [Finmap.lookup_insert_of_ne _ (by simpa using hne), h.lookup_eq]
    | read consume =>
        simp only [get?_read, hlookup, ← takesOut_eq]
        cases s.takesOut op.ns op.key consume with
        | false => simpa using h.lookup_eq ns key
        | true => simpa using herase ns key
    | remove => exact (herase ns key).trans (get?_remove s op.ns op.key ns key).symm

/-- Whatever is done, the same values are returned on both sides, which stay in step. -/
theorem after (h : s.Refines m) (ops : List Operation) :
    values Operation.apply ops s = values Operation.applyFlat ops m ∧
      (SessionStorage.after Operation.apply ops s).Refines
        (SessionStorage.after Operation.applyFlat ops m) := by
  induction ops generalizing s m with
  | nil => exact ⟨rfl, h⟩
  | cons op rest ih =>
      obtain ⟨hvalue, hstep⟩ := h.apply op
      obtain ⟨hvalues, hafter⟩ := ih hstep
      exact ⟨List.cons_eq_cons.2 ⟨hvalue, hvalues⟩, hafter⟩

end Refines

/-! ## Namespaces apart -/

/-- Two storages hold the same entries in a namespace. -/
def AgreeIn (ns : String) (s t : SessionStorage) : Prop := ∀ key, s.get? ns key = t.get? ns key

theorem AgreeIn.apply (h : AgreeIn ns s t) {op : Operation} (hop : op.ns = ns) :
    (op.apply s).1 = (op.apply t).1 ∧ AgreeIn ns (op.apply s).2 (op.apply t).2 := by
  subst hop
  have hslot := h op.key
  refine ⟨?_, fun key => ?_⟩
  · rw [fst_apply, fst_apply, hslot]
  · unfold Operation.apply
    cases op.deed with
    | write => simp only [get?_write, h key]
    | read => simp only [get?_read, takesOut_eq, hslot, h key]
    | remove => simp only [get?_remove, h key]

theorem AgreeIn.apply_left (h : AgreeIn ns s t) {op : Operation} (hop : op.ns ≠ ns) :
    AgreeIn ns (op.apply s).2 t := fun key =>
  (get?_apply_of_ne op s fun hslot => hop hslot.1.symm).trans (h key)

/-- What is done in a namespace gives the same answers whatever else is done. -/
theorem AgreeIn.answers (h : AgreeIn ns s t) (ops : List Operation) :
    (SessionStorage.answers ops s).filter (fun answer => answer.1.ns == ns) =
      SessionStorage.answers (ops.filter fun op => op.ns == ns) t := by
  induction ops generalizing s t with
  | nil => rfl
  | cons op rest ih =>
      -- only what is done in the namespace is done on both sides
      by_cases hop : op.ns = ns
      · obtain ⟨hvalue, hafter⟩ := h.apply hop
        rw [List.filter_cons_of_pos (by simpa using hop), answers_cons, answers_cons,
          List.filter_cons_of_pos (by simpa using hop), ih hafter, hvalue]
      · rw [List.filter_cons_of_neg (by simpa using hop), answers_cons,
          List.filter_cons_of_neg (by simpa using hop), ih (h.apply_left hop)]

/-! ## Entries that are cleared -/

theorem reads_cons (op : Operation) (rest : List Operation) (s : SessionStorage) :
    reads ns key (op :: rest) s =
      reads ns key rest (op.apply s).2 +
        if op.isReadOf ns key && (op.apply s).1.isSome then 1 else 0 := by
  rw [reads, answers_cons, List.countP_cons]
  rfl

/-- An operation about another slot is no read of the slot, and leaves its entry. -/
theorem reads_cons_of_not_isAt {op : Operation} (hat : op.isAt ns key = false)
    (rest : List Operation) (s : SessionStorage) :
    reads ns key (op :: rest) s = reads ns key rest (op.apply s).2 ∧
      (op.apply s).2.get? ns key = s.get? ns key := by
  refine ⟨by simp [reads_cons, Operation.isReadOf, hat], get?_apply_of_ne op s ?_⟩
  rintro ⟨rfl, rfl⟩
  rw [Operation.isAt_iff.2 ⟨rfl, rfl⟩] at hat
  cases hat

/-- The slot holds no entry, or one that its first read clears. -/
def Clears (s : SessionStorage) (ns key : String) : Prop :=
  ∀ entry ∈ s.get? ns key, entry.clearAfterRead = true

/-- Whatever else than a write is done to such a slot, the slot is empty afterwards. -/
theorem Clears.get?_apply (h : s.Clears ns key) {op : Operation} (hat : op.isAt ns key)
    (hwrite : op.isWriteTo ns key = false) : (op.apply s).2.get? ns key = none := by
  obtain ⟨rfl, rfl⟩ := Operation.isAt_iff.1 hat
  unfold Operation.apply
  cases hdeed : op.deed with
  | write => simp [Operation.isWriteTo, hat, hdeed] at hwrite
  | remove => rw [get?_remove, if_pos ⟨rfl, rfl⟩]
  | read consume =>
      rw [get?_read]
      cases hentry : s.get? op.ns op.key with
      | none => exact ite_self none
      | some entry =>
          have hclears : entry.clearAfterRead = true := h entry hentry
          rw [if_pos ⟨⟨rfl, rfl⟩, by rw [takesOut_eq, hentry]; simp [hclears]⟩]

/-- Nothing is read from an empty slot before it is written. -/
theorem reads_eq_zero (h : s.get? ns key = none) {ops : List Operation}
    (hops : ∀ op ∈ ops, op.isWriteTo ns key = false) : reads ns key ops s = 0 := by
  induction ops generalizing s with
  | nil => rfl
  | cons op rest ih =>
      obtain ⟨hop, hrest⟩ := List.forall_mem_cons.1 hops
      cases hat : op.isAt ns key with
      | false =>
          obtain ⟨hreads, hslot⟩ := reads_cons_of_not_isAt hat rest s
          rw [hreads, ih (hslot.trans h) hrest]
      | true =>
          have hclears : s.Clears ns key := fun entry hentry => by simp [h] at hentry
          have hnone : (op.apply s).1 = none := by
            obtain ⟨rfl, rfl⟩ := Operation.isAt_iff.1 hat
            rw [fst_apply, h]
            split <;> rfl
          rw [reads_cons, ih (hclears.get?_apply hat hop) hrest, hnone]
          simp

/-- An entry that is to be cleared is read at most once before its slot is written again. -/
theorem Clears.reads_le_one (h : s.Clears ns key) {ops : List Operation}
    (hops : ∀ op ∈ ops, op.isWriteTo ns key = false) : reads ns key ops s ≤ 1 := by
  induction ops generalizing s with
  | nil => exact Nat.zero_le 1
  | cons op rest ih =>
      obtain ⟨hop, hrest⟩ := List.forall_mem_cons.1 hops
      cases hat : op.isAt ns key with
      | false =>
          obtain ⟨hreads, hslot⟩ := reads_cons_of_not_isAt hat rest s
          rw [hreads]
          exact ih (fun entry hentry => h entry (hslot ▸ hentry)) hrest
      | true =>
          -- from here on the slot is empty
          rw [reads_cons, reads_eq_zero (h.get?_apply hat hop) hrest, Nat.zero_add]
          split <;> decide

/-- The storage is a flat map of slots: in any course of operations on a new storage the values,
the size and whether it is empty are those of the map.  What is done in one namespace gives the same
answers without the operations in the others, and an entry written to be cleared is returned by at
most one of the reads before its slot is written again. -/
theorem storage_is_flat :
    (∀ ops : List Operation,
      let s := after Operation.apply ops ({} : SessionStorage)
      let m := after Operation.applyFlat ops (∅ : Flat)
      values Operation.apply ops ({} : SessionStorage) =
          values Operation.applyFlat ops (∅ : Flat) ∧
        s.size = m.keys.card ∧ s.isEmpty = decide (m.keys = ∅)) ∧
    (∀ (ops : List Operation) (ns : String),
      (answers ops {}).filter (fun answer => answer.1.ns == ns) =
        answers (ops.filter fun op => op.ns == ns) {}) ∧
    ∀ (before later : List Operation) (ns key : String) (value : Value),
      let written := (after Operation.apply before ({} : SessionStorage)).write ns key value true
      reads ns key (later.takeWhile fun op => !op.isWriteTo ns key) written ≤ 1 := by
  refine ⟨fun ops => ?_, fun ops ns => ?_, fun before later ns key value => ?_⟩
  · obtain ⟨hvalues, hafter⟩ := Refines.empty.after ops
    exact ⟨hvalues, hafter.card_keys.symm, hafter.isEmpty_eq⟩
  · have hagree : AgreeIn ns {} {} := fun _ => rfl
    exact hagree.answers ops
  · refine Clears.reads_le_one (fun entry hentry => ?_) fun op hop => ?_
    · rw [get?_write, if_pos ⟨rfl, rfl⟩] at hentry
      obtain rfl := Option.some.inj hentry
      rfl
    · simpa using List.mem_takeWhile_imp hop

end SessionStorage
end Dialogue
