import Mathlib
import Dialogue.Proofs.Evaluation
import Dialogue.Proofs.Likeness
import Dialogue.Proofs.WholeFloats

/-!
# Comparing integers

Numbers are compared as floats, and an integer becomes the nearest integer of 53 bits when it is
made one (`Decimal.isInt_ofInt`).  So two integers count as one if they are rounded to the same
(`Number.sameNearest_iff`): an integer of less than 53 bits is like no other one, but from `2 ^ 53`
on neighbours fall together.  `Logic.integers_are_compared_rounded` says what this means for values
of any depth, and `Logic.neighbours_are_alike` has two integers that differ and are alike.
-/

namespace Dialogue

namespace Decimal

/-- An integer of less than 53 bits is rounded to itself, and no other one is rounded to it. -/
theorem nearest_eq_nearest_iff {m n : Int} (h : n.natAbs < 2 ^ 53) :
    nearest m = nearest n ↔ m = n := by
  rw [nearest_of_short (short_of_lt h)]
  constructor
  · intro heq
    exact (nearest_eq_self (heq ▸ h)).symm.trans heq
  · rintro rfl
    exact nearest_of_short (short_of_lt h)

end Decimal

namespace Number

/-- Integers that are rounded to the same one. -/
def SameNearest (m n : Number) : Prop :=
  ∃ a b : Int, m = .int a ∧ n = .int b ∧ Decimal.nearest a = Decimal.nearest b

theorem sameNearest_iff {a b : Int} (ha : Fits a) (hb : Fits b) :
    (toFloat (.int a) == toFloat (.int b)) = true ↔ SameNearest (.int a) (.int b) := by
  rw [toFloat, toFloat, (Decimal.isInt_ofInt ha).beq_iff (Decimal.isInt_ofInt hb)]
  constructor
  · exact fun h => ⟨a, b, rfl, rfl, h⟩
  · rintro ⟨_, _, ⟨⟩, ⟨⟩, h⟩
    exact h

end Number

namespace Value

/-- A value all of whose numbers are integers. -/
def Integral (v : Value) : Prop := ∀ n ∈ v.numbers, ∃ a : Int, n = .int a

/-- A value all of whose integers have less than 53 bits. -/
def Moderate (v : Value) : Prop := ∀ a : Int, .int a ∈ v.numbers → a.natAbs < 2 ^ 53

/-- Relations that agree on the entries of two lists agree on the lists. -/
theorem forall₂_congr_of_mem {α β : Type} {R S : α → β → Prop} {xs : List α} {ys : List β}
    (h : ∀ a ∈ xs, ∀ b ∈ ys, (R a b ↔ S a b)) : List.Forall₂ R xs ys ↔ List.Forall₂ S xs ys := by
  rw [List.forall₂_iff_zip, List.forall₂_iff_zip]
  refine and_congr_right fun _ => ⟨fun hall a b hab => ?_, fun hall a b hab => ?_⟩
  · obtain ⟨ha, hb⟩ := List.of_mem_zip hab
    exact (h a ha b hb).1 (hall hab)
  · obtain ⟨ha, hb⟩ := List.of_mem_zip hab
    exact (h a ha b hb).2 (hall hab)

/-- Lists are equal if values of one shape with the same numbers are. -/
theorem items_eq_of_shape {xs ys : List Value}
    (h : ∀ v ∈ xs, ∀ w : Value, v.shape = w.shape → v.numbers = w.numbers → v = w)
    (hshape : xs.map shape = ys.map shape)
    (hnumbers : xs.flatMap numbers = ys.flatMap numbers) : xs = ys := by
  induction xs generalizing ys with
  | nil =>
      cases ys with
      | nil => rfl
      | cons => cases hshape
  | cons x xs ih =>
      cases ys with
      | nil => cases hshape
      | cons y ys =>
          rw [List.map_cons, List.map_cons, List.cons.injEq] at hshape
          rw [List.flatMap_cons, List.flatMap_cons] at hnumbers
          -- heads of one shape have equally many numbers
          obtain ⟨hhead, hrest⟩ := List.append_inj hnumbers (length_numbers_eq hshape.1)
          rw [h x List.mem_cons_self y hshape.1 hhead,
            ih (fun v hv => h v (List.mem_cons_of_mem x hv)) hshape.2 hrest]

/-- A value is its shape and its numbers. -/
theorem eq_of_shape_of_numbers {v w : Value} (hshape : v.shape = w.shape)
    (hnumbers : v.numbers = w.numbers) : v = w := by
  induction v using parts_induction generalizing w with
  | null | bool | string | number =>
      cases w <;> simp_all [shape, numbers]
  | array xs ih =>
      cases w with
      | array ys =>
          rw [shape_array, shape_array, Value.array.injEq] at hshape
          rw [numbers_array, numbers_array] at hnumbers
          rw [items_eq_of_shape (fun v hv w => ih v hv) hshape hnumbers]
      | null | bool | number | string | object => simp [shape] at hshape
  | object fs ih =>
      cases w with
      | object gs =>
          rw [shape_object, shape_object, Value.object.injEq, Keyed.ext_iff, Keyed.keys_mapValues,
            Keyed.keys_mapValues, Keyed.values_mapValues, Keyed.values_mapValues] at hshape
          rw [numbers_object, numbers_object] at hnumbers
          rw [Keyed.ext_iff.2 ⟨hshape.1,
            items_eq_of_shape (fun v hv w => ih v hv) hshape.2 hnumbers⟩]
      | null | bool | number | string | array => simp [shape] at hshape

variable {v w : Value}

/-- Values of integers are alike if they have the same shape and, place by place, integers that are
rounded to the same one. -/
theorem Integral.alike_iff_nearest (hv : v.WellFormed) (hw : w.WellFormed) (hvi : v.Integral)
    (hwi : w.Integral) :
    v.alike w = true ↔
      v.shape = w.shape ∧ List.Forall₂ Number.SameNearest v.numbers w.numbers := by
  rw [alike_iff hv.ordered hw.ordered]
  refine and_congr_right fun _ => forall₂_congr_of_mem fun m hm n hn => ?_
  obtain ⟨a, rfl⟩ := hvi m hm
  obtain ⟨b, rfl⟩ := hwi n hn
  exact Number.sameNearest_iff (hv.finite _ hm) (hw.finite _ hn)

/-- A value of integers of less than 53 bits is alike only itself. -/
theorem Moderate.alike_iff_eq (hv : v.WellFormed) (hw : w.WellFormed) (hvi : v.Integral)
    (hwi : w.Integral) (hsmall : v.Moderate) : w.alike v = true ↔ w = v := by
  constructor
  · intro halike
    obtain ⟨hshape, hnumbers⟩ := (hwi.alike_iff_nearest hw hv hvi).1 halike
    refine eq_of_shape_of_numbers hshape ?_
    rw [← List.forall₂_eq_eq_eq]
    refine (forall₂_congr_of_mem fun m _ n hn => ⟨?_, ?_⟩).1 hnumbers
    · rintro ⟨a, b, rfl, rfl, hnearest⟩
      rw [(Decimal.nearest_eq_nearest_iff (hsmall b hn)).1 hnearest]
    · rintro rfl
      obtain ⟨a, rfl⟩ := hvi m hn
      exact ⟨a, a, rfl, rfl, rfl⟩
  · rintro rfl
    exact hv.alike_self

end Value

namespace Logic

open Value

/-- Values of integers are compared up to the rounding of their integers: a value is alike those of
the same shape whose integers are rounded to the same ones.  If its own integers have less than 53
bits, it is alike itself only, so that `Switch` takes no case for it but an equal one, and `Equals`
counts no other value as equal. -/
theorem integers_are_compared_rounded {v : Value} {others : List Value} (hv : v.WellFormed)
    (hvi : v.Integral) (hothers : ∀ w ∈ others, w.WellFormed ∧ w.Integral) :
    (∀ w ∈ others, (w.alike v = true ↔
      w.shape = v.shape ∧ List.Forall₂ Number.SameNearest w.numbers v.numbers)) ∧
    (v.Moderate →
      (∀ w ∈ others, (w.alike v = true ↔ w = v)) ∧
      (allAlike (v :: others) = true ↔ ∀ w ∈ others, w = v)) := by
  refine ⟨fun w hw => (hothers w hw).2.alike_iff_nearest (hothers w hw).1 hv hvi,
    fun hsmall => ?_⟩
  have hequal : ∀ w ∈ others, (w.alike v = true ↔ w = v) := fun w hw =>
    hsmall.alike_iff_eq hv (hothers w hw).1 hvi (hothers w hw).2
  refine ⟨hequal, ?_⟩
  rw [allAlike, List.all_eq_true]
  refine forall₂_congr fun w hw => ?_
  rw [← hequal w hw]
  exact ⟨hv.alike_symm (hothers w hw).1, (hothers w hw).1.alike_symm hv⟩

/-- An entry with a number. -/
def numbered (n : Int) : Value := .object [("id", .ofInt n)]

theorem numbers_numbered (n : Int) : (numbered n).numbers = [.int n] := rfl

theorem wellFormed_numbered {n : Int} (h : Number.Fits n) : (numbered n).WellFormed :=
  ⟨by simp [numbered, Value.ofInt, Value.Ordered, OrderedFields, Keyed.Ordered],
    by simpa [numbers_numbered, Number.Finite] using h⟩

theorem integral_numbered (n : Int) : (numbered n).Integral := by
  simp [Integral, numbers_numbered]

/-- The entries with two small numbers are told apart. -/
theorem small_numbers_are_told_apart :
    (numbered 7).Moderate ∧ (numbered 8).alike (numbered 7) = false ∧
      allAlike [numbered 7, numbered 7, numbered 8] = false := by
  have hsmall : (numbered 7).Moderate := by
    simp [Moderate, numbers_numbered]
  have hothers : ∀ w ∈ [numbered 7, numbered 8], w.WellFormed ∧ w.Integral := by
    simp only [List.forall_mem_cons]
    exact ⟨⟨wellFormed_numbered (by decide), integral_numbered 7⟩,
      ⟨wellFormed_numbered (by decide), integral_numbered 8⟩, by simp⟩
  obtain ⟨hequal, hall⟩ := (integers_are_compared_rounded (wellFormed_numbered (by decide))
    (integral_numbered 7) hothers).2 hsmall
  refine ⟨hsmall, Bool.eq_false_iff.2 (mt (hequal _ (by simp)).1 (by simp [numbered, Value.ofInt])),
    Bool.eq_false_iff.2 (mt hall.1 (by simp [numbered, Value.ofInt]))⟩

/-- Of two neighbours beyond 53 bits one is rounded to the other.  Values with them are not told
apart, and `Switch` takes the case of the other one. -/
theorem neighbours_are_alike :
    let m : Int := 9007199254740993
    let n : Int := 9007199254740992
    Number.Fits m ∧ Number.Fits n ∧ numbered m ≠ numbered n ∧
      (numbered m).alike (numbered n) = true ∧ allAlike [.ofInt m, .ofInt n] = true ∧
      choose (pure : Interpolation Nat) (.ofInt m) none
        [.object [("match", .ofInt n), ("result", .string "other")],
          .object [("match", .ofInt m), ("result", .string "same")]] = pure (.string "other") := by
  intro m n
  have halike : (Value.ofInt n).alike (.ofInt m) = true := by decide
  refine ⟨by decide, by decide, by simp [numbered, Value.ofInt, m, n], by decide,
    by decide, ?_⟩
  refine Eval.ext fun ctx => ?_
  have hmatch : (Keyed.get? [("match", Value.ofInt n), ("result", .string "other")] "match").getD
      .null = .ofInt n := rfl
  rw [choose, hmatch, Eval.on_bind_ok (Eval.on_pure (Value.ofInt n) ctx), if_pos halike]
  rfl

end Logic
end Dialogue
