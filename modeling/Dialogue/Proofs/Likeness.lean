import Dialogue.Functions.Logic
import Dialogue.Proofs.Keyed
import Dialogue.Proofs.Numbers

/-!
# Likeness of values

Two values are alike if they have the same shape and, place by place, the same numbers up to
rounding (`Value.alike_iff`).  The comparison itself looks for the fields of one object under
their names in another one of the same size; as no name occurs twice, the names are then the same
(`Keyed.keys_eq_of_subset`), so that fields are compared in order like the items of lists
(`Value.alike_object_iff`).

Likeness of well-formed values is therefore an equivalence, and it is equality on values without
numbers.  `Logic.likeness_is_an_equivalence` says so, and that the order of the values that are
compared with each other has no influence.
-/

namespace Dialogue

namespace Value

/-! ## Shapes and numbers -/

/-- What holds of every value of whose parts it holds, holds of every value. -/
theorem parts_induction {P : Value → Prop} (null : P .null) (bool : ∀ b, P (.bool b))
    (number : ∀ n, P (.number n)) (string : ∀ s, P (.string s))
    (array : ∀ items, (∀ v ∈ items, P v) → P (.array items))
    (object : ∀ fields : Fields, (∀ v ∈ fields.values, P v) → P (.object fields)) (v : Value) :
    P v := by
  refine @Value.rec P (fun items => ∀ v ∈ items, P v)
    (fun fields => ∀ v ∈ Keyed.values fields, P v) (fun entry => P entry.2)
    null bool number string array object ?_ ?_ ?_ ?_ ?_ v
  · simp
  · exact fun v rest hv hrest => List.forall_mem_cons.2 ⟨hv, hrest⟩
  · simp [Keyed.values]
  · exact fun entry rest hentry hrest => List.forall_mem_cons.2 ⟨hentry, hrest⟩
  · exact fun _ _ h => h

mutual

/-- The value with zero for every number. -/
def shape : Value → Value
  | .number _ => .number (.int 0)
  | .array items => .array (itemsShape items)
  | .object fields => .object (fieldsShape fields)
  | v => v

/-- The shapes of a list. -/
def itemsShape : List Value → List Value
  | [] => []
  | v :: rest => shape v :: itemsShape rest

/-- The shapes of fields. -/
def fieldsShape : List (String × Value) → Fields
  | [] => []
  | (k, v) :: rest => (k, shape v) :: fieldsShape rest

end

mutual

/-- The numbers of a value, from left to right. -/
def numbers : Value → List Number
  | .number n => [n]
  | .array items => itemsNumbers items
  | .object fields => fieldsNumbers fields
  | _ => []

/-- The numbers of a list of values. -/
def itemsNumbers : List Value → List Number
  | [] => []
  | v :: rest => numbers v ++ itemsNumbers rest

/-- The numbers of fields. -/
def fieldsNumbers : List (String × Value) → List Number
  | [] => []
  | (_, v) :: rest => numbers v ++ fieldsNumbers rest

end

theorem shape_array (items : List Value) : shape (.array items) = .array (items.map shape) := by
  rw [shape]
  congr 1
  induction items with
  | nil => rfl
  | cons v rest ih => rw [itemsShape, ih, List.map_cons]

theorem shape_object (fields : Fields) :
    shape (.object fields) = .object (fields.mapValues shape) := by
  rw [shape]
  congr 1
  induction fields with
  | nil => rfl
  | cons entry rest ih => rw [fieldsShape, ih]; rfl

theorem numbers_array (items : List Value) : numbers (.array items) = items.flatMap numbers := by
  rw [numbers]
  induction items with
  | nil => rfl
  | cons v rest ih => rw [itemsNumbers, ih, List.flatMap_cons]

theorem numbers_object (fields : Fields) :
    numbers (.object fields) = fields.values.flatMap numbers := by
  rw [numbers]
  induction fields with
  | nil => rfl
  | cons entry rest ih => rw [fieldsNumbers, ih]; rfl

/-- A value without numbers is its own shape. -/
theorem shape_eq_self {v : Value} (h : v.numbers = []) : v.shape = v := by
  induction v using parts_induction with
  | null | bool | string => rfl
  | number => cases h
  | array items ih =>
      rw [numbers_array, List.flatMap_eq_nil_iff] at h
      rw [shape_array, List.map_congr_left fun v hv => ih v hv (h v hv), List.map_id']
  | object fields ih =>
      rw [numbers_object, List.flatMap_eq_nil_iff] at h
      rw [shape_object]
      congr 1
      refine Keyed.ext_iff.2 ⟨Keyed.keys_mapValues _ _, ?_⟩
      rw [Keyed.values_mapValues, List.map_congr_left fun v hv => ih v hv (h v hv), List.map_id']

/-- The shape of a value has zero for every one of its numbers. -/
theorem numbers_shape (v : Value) : v.shape.numbers = v.numbers.map fun _ => .int 0 := by
  induction v using parts_induction with
  | null | bool | string | number => rfl
  | array items ih =>
      rw [shape_array, numbers_array, numbers_array, List.flatMap_map, List.map_flatMap]
      exact List.flatMap_congr ih
  | object fields ih =>
      rw [shape_object, numbers_object, numbers_object, Keyed.values_mapValues, List.flatMap_map,
        List.map_flatMap]
      exact List.flatMap_congr ih

theorem length_numbers_eq {v w : Value} (h : v.shape = w.shape) :
    v.numbers.length = w.numbers.length := by
  have hnumbers := congrArg (List.length ∘ numbers) h
  simpa [numbers_shape] using hnumbers

/-! ## Comparing -/

/-- Numbers count as one if their floats are equal. -/
def SameNumbers : List Number → List Number → Prop :=
  List.Forall₂ fun m n => (m.toFloat == n.toFloat) = true

theorem alikeItems_iff {xs ys : List Value} :
    alikeItems xs ys = true ↔ List.Forall₂ (fun v w => v.alike w = true) xs ys := by
  induction xs generalizing ys with
  | nil => cases ys <;> simp [alikeItems]
  | cons x xs ih => cases ys <;> simp [alikeItems, ih]

theorem alikeFields_iff {fs gs : Fields} :
    alikeFields fs gs = true ↔
      ∀ entry ∈ fs, ∃ w, gs.get? entry.1 = some w ∧ entry.2.alike w = true := by
  induction fs with
  | nil => simp [alikeFields]
  | cons entry fs ih =>
      rw [alikeFields, Bool.and_eq_true, ih, List.forall_mem_cons]
      cases gs.get? entry.1 <;> simp

/-- Objects are alike if they have the same names, with alike values in their order. -/
theorem alike_object_iff {fs gs : Fields} (hfs : Keyed.Ordered fs) (hgs : Keyed.Ordered gs) :
    (Value.object fs).alike (.object gs) = true ↔
      fs.keys = gs.keys ∧ List.Forall₂ (fun v w => v.alike w = true) fs.values gs.values := by
  rw [alike, Bool.and_eq_true, alikeFields_iff, beq_iff_eq]
  constructor
  · rintro ⟨hlength, hfields⟩
    have hsubset : fs.keys ⊆ gs.keys := by
      intro key hkey
      obtain ⟨entry, hentry, rfl⟩ := List.mem_map.1 hkey
      obtain ⟨w, hw, -⟩ := hfields entry hentry
      exact List.mem_map.2 ⟨_, Keyed.mem_of_get? hw, rfl⟩
    have hkeys := Keyed.keys_eq_of_subset hfs hgs hlength hsubset
    exact ⟨hkeys, (Keyed.forall_get?_iff hfs hkeys).1 hfields⟩
  · rintro ⟨hkeys, hvalues⟩
    exact ⟨by simpa [Keyed.keys] using congrArg List.length hkeys,
      (Keyed.forall_get?_iff hfs hkeys).2 hvalues⟩

theorem sameNumbers_append_iff {front front' back back' : List Number}
    (h : front.length = front'.length) :
    SameNumbers (front ++ back) (front' ++ back') ↔
      SameNumbers front front' ∧ SameNumbers back back' := by
  constructor
  · intro hboth
    have hfront := List.forall₂_take_append _ _ _ hboth
    have hback := List.forall₂_drop_append _ _ _ hboth
    rw [← h] at hfront hback
    exact ⟨by simpa [SameNumbers] using hfront, by simpa [SameNumbers] using hback⟩
  · rintro ⟨hfront, hback⟩
    exact List.rel_append hfront hback

/-- If likeness of the items is sameness of their shapes and numbers, so it is of the lists. -/
theorem forall₂_alike_iff {xs ys : List Value}
    (h : ∀ v ∈ xs, ∀ w ∈ ys,
      (v.alike w = true ↔ v.shape = w.shape ∧ SameNumbers v.numbers w.numbers)) :
    List.Forall₂ (fun v w => v.alike w = true) xs ys ↔
      xs.map shape = ys.map shape ∧ SameNumbers (xs.flatMap numbers) (ys.flatMap numbers) := by
  induction xs generalizing ys with
  | nil => cases ys <;> simp [SameNumbers]
  | cons x xs ih =>
      cases ys with
      | nil => simp
      | cons y ys =>
          have htail := ih fun v hv w hw =>
            h v (List.mem_cons_of_mem x hv) w (List.mem_cons_of_mem y hw)
          rw [List.forall₂_cons, h x List.mem_cons_self y List.mem_cons_self, htail, List.map_cons,
            List.map_cons, List.cons.injEq, List.flatMap_cons, List.flatMap_cons]
          -- heads of one shape have equally many numbers, so the lists of numbers part there
          constructor
          · rintro ⟨⟨hshape, hnumbers⟩, hshapes, hrest⟩
            exact ⟨⟨hshape, hshapes⟩,
              (sameNumbers_append_iff (length_numbers_eq hshape)).2 ⟨hnumbers, hrest⟩⟩
          · rintro ⟨⟨hshape, hshapes⟩, hnumbers⟩
            obtain ⟨hhead, hrest⟩ :=
              (sameNumbers_append_iff (length_numbers_eq hshape)).1 hnumbers
            exact ⟨⟨hshape, hhead⟩, hshapes, hrest⟩

theorem ordered_of_mem_values {fields : Fields} (h : (Value.object fields).Ordered) {v : Value}
    (hv : v ∈ fields.values) : v.Ordered := by
  obtain ⟨entry, hentry, rfl⟩ := List.mem_map.1 hv
  exact orderedFields_iff.1 h.2 entry hentry

/-- Values are alike exactly if they have the same shape, and place by place the same numbers. -/
theorem alike_iff {v w : Value} (hv : v.Ordered) (hw : w.Ordered) :
    v.alike w = true ↔ v.shape = w.shape ∧ SameNumbers v.numbers w.numbers := by
  induction v using parts_induction generalizing w with
  | null | bool | number | string =>
      cases w <;> simp [alike, shape, numbers, SameNumbers]
  | array xs ih =>
      cases w with
      | array ys =>
          rw [alike, alikeItems_iff, shape_array, shape_array, numbers_array, numbers_array,
            Value.array.injEq]
          exact forall₂_alike_iff fun v hmem w hmem' =>
            ih v hmem (orderedItems_iff.1 hv v hmem) (orderedItems_iff.1 hw w hmem')
      | null | bool | number | string | object => simp [alike, shape]
  | object fs ih =>
      cases w with
      | object gs =>
          -- under the same names the values are compared like items
          rw [alike_object_iff hv.1 hw.1, shape_object, shape_object, numbers_object,
            numbers_object, Value.object.injEq, Keyed.ext_iff, Keyed.keys_mapValues,
            Keyed.keys_mapValues, Keyed.values_mapValues, Keyed.values_mapValues, and_assoc,
            forall₂_alike_iff fun v hmem w hmem' =>
              ih v hmem (ordered_of_mem_values hv hmem) (ordered_of_mem_values hw hmem')]
      | null | bool | number | string | array => simp [alike, shape]

/-! ## Well-formed values -/

theorem sameNumbers_self {numbers : List Number} (h : ∀ n ∈ numbers, n.Finite) :
    SameNumbers numbers numbers :=
  List.forall₂_same.2 fun n hn => Float.beq_self_iff.2 (h n hn).toFloat_ne_nan

theorem SameNumbers.symm {front back : List Number} (h : SameNumbers front back) :
    SameNumbers back front :=
  List.Forall₂.flip (h.imp fun _ _ => BEq.symm)

theorem SameNumbers.trans {front middle back : List Number} (h : SameNumbers front middle)
    (h' : SameNumbers middle back) : SameNumbers front back := by
  induction h generalizing back with
  | nil => exact h'
  | cons hhead _ ih =>
      cases h' with
      | cons hhead' hrest' => exact .cons (BEq.trans hhead hhead') (ih hrest')

/-- A value in which no name occurs twice in an object, and whose numbers are finite. -/
structure WellFormed (v : Value) : Prop where
  ordered : v.Ordered
  finite : ∀ n ∈ v.numbers, n.Finite

theorem wellFormed_array_iff {items : List Value} :
    (Value.array items).WellFormed ↔ ∀ v ∈ items, v.WellFormed := by
  constructor
  · rintro ⟨hordered, hfinite⟩ v hv
    rw [numbers_array] at hfinite
    exact ⟨orderedItems_iff.1 hordered v hv,
      fun n hn => hfinite n (List.mem_flatMap.2 ⟨v, hv, hn⟩)⟩
  · intro h
    refine ⟨orderedItems_iff.2 fun v hv => (h v hv).ordered, fun n hn => ?_⟩
    rw [numbers_array] at hn
    obtain ⟨v, hv, hn⟩ := List.mem_flatMap.1 hn
    exact (h v hv).finite n hn

theorem wellFormed_object_iff {fields : Fields} :
    (Value.object fields).WellFormed ↔
      Keyed.Ordered fields ∧ ∀ v ∈ fields.values, v.WellFormed := by
  constructor
  · rintro ⟨hordered, hfinite⟩
    rw [numbers_object] at hfinite
    exact ⟨hordered.1, fun v hv => ⟨ordered_of_mem_values hordered hv,
      fun n hn => hfinite n (List.mem_flatMap.2 ⟨v, hv, hn⟩)⟩⟩
  · rintro ⟨hordered, h⟩
    refine ⟨⟨hordered, orderedFields_iff.2 fun entry hentry =>
      (h entry.2 (List.mem_map_of_mem hentry)).ordered⟩, fun n hn => ?_⟩
    rw [numbers_object] at hn
    obtain ⟨v, hv, hn⟩ := List.mem_flatMap.1 hn
    exact (h v hv).finite n hn

variable {u v w : Value}

theorem WellFormed.alike_self (hv : v.WellFormed) : v.alike v = true :=
  (alike_iff hv.ordered hv.ordered).2 ⟨rfl, sameNumbers_self hv.finite⟩

theorem WellFormed.alike_symm (hv : v.WellFormed) (hw : w.WellFormed) (h : v.alike w = true) :
    w.alike v = true := by
  obtain ⟨hshape, hnumbers⟩ := (alike_iff hv.ordered hw.ordered).1 h
  exact (alike_iff hw.ordered hv.ordered).2 ⟨hshape.symm, hnumbers.symm⟩

theorem WellFormed.alike_trans (hu : u.WellFormed) (hv : v.WellFormed) (hw : w.WellFormed)
    (h : u.alike v = true) (h' : v.alike w = true) : u.alike w = true := by
  obtain ⟨hshape, hnumbers⟩ := (alike_iff hu.ordered hv.ordered).1 h
  obtain ⟨hshape', hnumbers'⟩ := (alike_iff hv.ordered hw.ordered).1 h'
  exact (alike_iff hu.ordered hw.ordered).2 ⟨hshape.trans hshape', hnumbers.trans hnumbers'⟩

/-- A value without numbers is alike only itself. -/
theorem WellFormed.alike_iff_eq (hv : v.WellFormed) (hw : w.WellFormed) (h : v.numbers = []) :
    v.alike w = true ↔ v = w := by
  constructor
  · intro halike
    obtain ⟨hshape, hnumbers⟩ := (alike_iff hv.ordered hw.ordered).1 halike
    rw [h] at hnumbers
    rw [← shape_eq_self h, hshape, shape_eq_self (List.forall₂_nil_left_iff.1 hnumbers)]
  · rintro rfl
    exact hv.alike_self

end Value

namespace Logic

open Value

/-- All values are alike the first one exactly if any two of them are alike. -/
theorem allAlike_iff {values : List Value} (hvalues : ∀ v ∈ values, v.WellFormed) :
    allAlike values = true ↔ ∀ v ∈ values, ∀ w ∈ values, v.alike w = true := by
  cases values with
  | nil => simp [allAlike]
  | cons first rest =>
      have hfirst := hvalues first List.mem_cons_self
      rw [allAlike, List.all_eq_true]
      constructor
      · intro hrest
        have hall : ∀ v ∈ first :: rest, first.alike v = true :=
          List.forall_mem_cons.2 ⟨hfirst.alike_self, hrest⟩
        intro v hv w hw
        exact (hvalues v hv).alike_trans hfirst (hvalues w hw)
          (hfirst.alike_symm (hvalues v hv) (hall v hv)) (hall w hw)
      · intro hall v hv
        exact hall first List.mem_cons_self v (List.mem_cons_of_mem first hv)

theorem allAlike_eq_of_perm {values others : List Value} (hvalues : ∀ v ∈ values, v.WellFormed)
    (hperm : values.Perm others) : allAlike values = allAlike others := by
  have hothers : ∀ v ∈ others, v.WellFormed := fun v hv => hvalues v (hperm.mem_iff.2 hv)
  rw [Bool.eq_iff_iff, allAlike_iff hvalues, allAlike_iff hothers]
  simp only [hperm.mem_iff]

/-- The values that are compared are the ones given. -/
theorem list_put (params : Fields) (values : List Value) :
    Parameters.list (params.put "values" (.array values)) "values" = values := by
  rw [Parameters.list, Parameters.given?, Keyed.get?_put_self]
  rfl

/-- Likeness of well-formed values is an equivalence, and on values without numbers it is
equality.  Values are all alike if any two of them are, so neither whether they are nor what
`Equals` makes of it depends on their order. -/
theorem likeness_is_an_equivalence (v w : Value) (hv : v.WellFormed) (hw : w.WellFormed)
    (values others : List Value) (hvalues : ∀ u ∈ values, u.WellFormed)
    (hperm : values.Perm others) :
    Equivalence (fun u u' : {u : Value // u.WellFormed} => u.1.alike u'.1 = true) ∧
    (v.numbers = [] → (v.alike w = true ↔ v = w)) ∧
    (allAlike values = true ↔ ∀ u ∈ values, ∀ u' ∈ values, u.alike u' = true) ∧
    allAlike values = allAlike others ∧
    ∀ {σ : Type} (interpolate : Interpolation σ) (params : Fields),
      equals.execute interpolate (params.put "values" (.array values)) =
        equals.execute interpolate (params.put "values" (.array others)) := by
  refine ⟨⟨fun u => u.2.alike_self, fun {u u'} h => u.2.alike_symm u'.2 h,
    fun {u u' u''} h h' => u.2.alike_trans u'.2 u''.2 h h'⟩, hv.alike_iff_eq hw,
    allAlike_iff hvalues, allAlike_eq_of_perm hvalues hperm, ?_⟩
  intro σ interpolate params
  have hresult : ∀ (outcome : Bool) (values : List Value),
      (params.put "values" (.array values)).get?
          (if outcome then "trueResult" else "falseResult") =
        params.get? (if outcome then "trueResult" else "falseResult") := by
    rintro (_ | _) values <;> exact Keyed.get?_put_of_ne _ _ (by decide)
  simp only [equals, list_put, hresult, allAlike_eq_of_perm hvalues hperm]

/-- A shop under its title. -/
def shop (title : String) : Value := .object [("title", .string title)]

theorem wellFormed_shop (title : String) : (shop title).WellFormed :=
  ⟨by simp [shop, Value.Ordered, OrderedFields, Keyed.Ordered],
    by simp [shop, Value.numbers, fieldsNumbers]⟩

/-- Two shops differ in their titles, and no shop is alike a number, whichever comes first. -/
theorem a_shop_is_unlike_two_numbers :
    (shop "5").alike (shop "6") = false ∧
    allAlike [.number (.int 5), shop "5", .number (.float 5)] = false ∧
    allAlike [.number (.int 5), .number (.float 5), shop "5"] = false ∧
    equals.execute (pure : Interpolation Nat)
        [("values", .array [.number (.int 5), shop "5", .number (.float 5)])] =
      equals.execute pure [("values", .array [.number (.int 5), .number (.float 5), shop "5"])] := by
  have hnumber : ∀ n : Number, n.Finite → (Value.number n).WellFormed := fun n hn =>
    ⟨trivial, by simpa [Value.numbers] using hn⟩
  have hvalues : ∀ u ∈ [.number (.int 5), shop "5", .number (.float 5)], u.WellFormed := by
    simp only [List.forall_mem_cons]
    exact ⟨hnumber _ (by decide), wellFormed_shop "5", hnumber _ (by decide), by simp⟩
  obtain ⟨-, hequal, -, hsame, hexecute⟩ :=
    likeness_is_an_equivalence (shop "5") (shop "6") (wellFormed_shop "5") (wellFormed_shop "6")
      _ _ hvalues ((List.Perm.swap (.number (.float 5)) (shop "5") []).cons _)
  have hunlike : allAlike [.number (.int 5), shop "5", .number (.float 5)] = false := by
    decide
  refine ⟨Bool.eq_false_iff.2 (mt (hequal rfl).1 (by simp [shop])), hunlike,
    hsame.symm.trans hunlike, hexecute pure []⟩

end Logic
end Dialogue
