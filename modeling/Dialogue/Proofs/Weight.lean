import Mathlib
import Dialogue.Json.Reader
import Dialogue.Value.Descriptor

/-!
# Weight of values

The weight of a value counts the characters of its texts and the nodes above its leaves.
A part of a value weighs less than the value, and a value that is read from a text weighs
no more than the text.  The reader is followed in two stages: a document weighs no more
than the characters that it takes up, and its value no more than the document.
-/

namespace Dialogue
namespace Value

mutual

/-- Characters of all texts, and one for every text, list and object. -/
def weight : Value → Nat
  | .string s => s.toList.length + 1
  | .array items => itemsWeight items + 1
  | .object fields => fieldsWeight fields + 1
  | _ => 0

/-- The sum of the weights of a list. -/
def itemsWeight : List Value → Nat
  | [] => 0
  | v :: rest => weight v + itemsWeight rest

/-- The sum of the weights of fields. -/
def fieldsWeight : List (String × Value) → Nat
  | [] => 0
  | (_, v) :: rest => weight v + fieldsWeight rest

end

@[simp] theorem weight_null : weight .null = 0 := rfl

theorem weight_le_itemsWeight {v : Value} {items : List Value} (h : v ∈ items) :
    v.weight ≤ itemsWeight items := by
  induction items with
  | nil => simp at h
  | cons w rest ih =>
      rw [itemsWeight]
      rcases List.mem_cons.1 h with rfl | hrest
      · omega
      · have := ih hrest
        omega

/-- An item weighs less than its list. -/
theorem weight_lt_array {v : Value} {items : List Value} (h : v ∈ items) :
    v.weight < weight (.array items) := by
  have := weight_le_itemsWeight h
  rw [weight]
  omega

theorem weight_le_fieldsWeight {entry : String × Value} {fields : Fields}
    (h : entry ∈ fields) : entry.2.weight ≤ fieldsWeight fields := by
  induction fields with
  | nil => simp at h
  | cons other rest ih =>
      obtain ⟨k, w⟩ := other
      rw [fieldsWeight]
      rcases List.mem_cons.1 h with rfl | hrest
      · simp only
        omega
      · have := ih hrest
        omega

/-- A field weighs less than its object. -/
theorem weight_lt_object {entry : String × Value} {fields : Fields} (h : entry ∈ fields) :
    entry.2.weight < weight (.object fields) := by
  have := weight_le_fieldsWeight h
  rw [weight]
  omega

theorem itemsWeight_map_le {α : Type} (f : α → Value) (bound : α → Nat) (items : List α)
    (h : ∀ a ∈ items, (f a).weight ≤ bound a) :
    itemsWeight (items.map f) ≤ (items.map bound).sum := by
  induction items with
  | nil => simp [itemsWeight]
  | cons a rest ih =>
      have hhead := h a List.mem_cons_self
      have htail := ih fun b hb => h b (List.mem_cons_of_mem a hb)
      simp only [List.map_cons, itemsWeight, List.sum_cons]
      omega

/-- Writing a field adds at most the weight of its value. -/
theorem fieldsWeight_put_le (fields : Fields) (key : String) (value : Value) :
    fieldsWeight (fields.put key value) ≤ fieldsWeight fields + value.weight := by
  induction fields with
  | nil => simp [Keyed.put, fieldsWeight]
  | cons entry rest ih =>
      obtain ⟨k, w⟩ := entry
      simp only [Keyed.put]
      split
      · simp only [fieldsWeight]
        omega
      · split
        · simp only [fieldsWeight]
          omega
        · simp only [fieldsWeight]
          omega

theorem fieldsWeight_overlay_le (fields later : Fields) :
    fieldsWeight (fields.overlay later) ≤ fieldsWeight fields + fieldsWeight later := by
  induction later generalizing fields with
  | nil => simp [Keyed.overlay, fieldsWeight]
  | cons entry rest ih =>
      obtain ⟨k, w⟩ := entry
      have hput := fieldsWeight_put_le fields k w
      have hrest := ih (fields.put k w)
      simp only [Keyed.overlay, List.foldl_cons, fieldsWeight] at hrest ⊢
      omega

end Value

namespace Json

/-- A closing quote and all pieces before it are taken from the text. -/
theorem length_of_quoted? {done pieces : List Piece} {cs rest : List Char}
    (h : quoted? done cs = some (pieces, rest)) :
    pieces.length + rest.length + 1 ≤ done.length + cs.length := by
  fun_induction quoted? done cs <;>
    simp_all only [reduceCtorEq, Option.some.injEq, Prod.mk.injEq, List.length_cons] <;>
    grind

/-- Joining surrogate pairs makes no new characters. -/
theorem length_of_characters? {done cs : List Char} {pieces : List Piece}
    (h : characters? done pieces = some cs) : cs.length ≤ done.length + pieces.length := by
  fun_induction characters? done pieces <;>
    simp_all only [reduceCtorEq, Option.some.injEq, List.length_cons] <;>
    grind

theorem length_of_text? {pieces : List Piece} {s : String} (h : text? pieces = some s) :
    s.toList.length ≤ pieces.length := by
  obtain ⟨cs, hcs, rfl⟩ := Option.map_eq_some_iff.1 h
  simpa using length_of_characters? hcs

theorem skipSpace_suffix (cs : List Char) : skipSpace cs <:+ cs :=
  List.dropWhile_suffix _

theorem spanDigits_suffix (cs : List Char) : (Decimal.spanDigits cs).2 <:+ cs :=
  List.dropWhile_suffix _

theorem spanSign_suffix (cs : List Char) : (Decimal.spanSign cs).2 <:+ cs := by
  fun_cases Decimal.spanSign cs with
  | case1 rest => exact List.suffix_cons _ rest
  | case2 rest => exact List.suffix_cons _ rest
  | case3 => exact List.suffix_refl cs

theorem suffix_of_exponentPart? {cs rest : List Char} {exponent : Option Int}
    (h : exponentPart? cs = some (exponent, rest)) : rest <:+ cs := by
  fun_cases exponentPart? cs with
  | case1 c tail hc negative signed hsigned digits after hdigits =>
      simp only [exponentPart?, hc, if_true, hsigned, hdigits, Option.map_eq_some_iff,
        Prod.mk.injEq] at h
      obtain ⟨n, -, -, rfl⟩ := h
      have hafter : after <:+ signed := by simpa [hdigits] using spanDigits_suffix signed
      have hsign : signed <:+ tail := by simpa [hsigned] using spanSign_suffix tail
      exact (hafter.trans hsign).trans (List.suffix_cons c tail)
  | case2 c tail hc =>
      simp only [exponentPart?, hc] at h
      simp_all
  | case3 => simp_all [exponentPart?]

/-- A number ends with its exponent part, which stands behind the digits of the text. -/
theorem exists_exponentPart?_of_unsigned? {negative : Bool} {cs rest : List Char}
    {n : Option Number} (h : unsigned? negative cs = some (n, rest)) :
    ∃ tail exponent, tail <:+ cs ∧ exponentPart? tail = some (exponent, rest) := by
  unfold unsigned? at h
  simp only [bind, Option.bind] at h
  split at h
  · cases h
  · split at h
    · rename_i fraction hfraction
      split at h
      · cases h
      · cases hexponent : exponentPart? (Decimal.spanDigits fraction).2 with
        | none => simp [hexponent] at h
        | some found =>
            simp only [hexponent] at h
            have hrest : found.2 = rest := by split at h <;> simp_all
            refine ⟨_, found.1, ?_, hexponent.trans (congrArg some (Prod.ext rfl hrest))⟩
            exact (spanDigits_suffix fraction).trans <|
              (List.suffix_cons _ fraction).trans <| hfraction ▸ spanDigits_suffix cs
    · cases hexponent : exponentPart? (Decimal.spanDigits cs).2 with
      | none => simp [hexponent] at h
      | some found =>
          simp only [hexponent] at h
          have hrest : found.2 = rest := by split at h <;> simp_all
          exact ⟨_, found.1, spanDigits_suffix cs,
            hexponent.trans (congrArg some (Prod.ext rfl hrest))⟩

theorem suffix_of_unsigned? {negative : Bool} {cs rest : List Char} {n : Option Number}
    (h : unsigned? negative cs = some (n, rest)) : rest <:+ cs := by
  obtain ⟨tail, exponent, htail, hexponent⟩ := exists_exponentPart?_of_unsigned? h
  exact (suffix_of_exponentPart? hexponent).trans htail

end Json

namespace Document

open Json

mutual

/-- Characters of all texts, and one for every text, list and object. -/
def weight : Document → Nat
  | .string (some s) => s.toList.length + 1
  | .array items => itemsWeight items + 1
  | .object members => membersWeight members + 1
  | _ => 0

/-- The sum of the weights of a list. -/
def itemsWeight : List Document → Nat
  | [] => 0
  | d :: rest => weight d + itemsWeight rest

/-- The sum of the weights of members. -/
def membersWeight : List (Option String × Document) → Nat
  | [] => 0
  | (_, d) :: rest => weight d + membersWeight rest

end

theorem itemsWeight_eq_sum (items : List Document) :
    itemsWeight items = (items.map weight).sum := by
  induction items with
  | nil => rfl
  | cons d rest ih => simp [itemsWeight, ih]

theorem membersWeight_eq_sum (members : List (Option String × Document)) :
    membersWeight members = (members.map fun member => weight member.2).sum := by
  induction members with
  | nil => rfl
  | cons member rest ih => simp [membersWeight, ih]

theorem weight_string_le (pieces : List Piece) :
    weight (.string (text? pieces)) ≤ pieces.length + 1 := by
  cases htext : text? pieces with
  | none => simp [weight]
  | some s =>
      have := length_of_text? htext
      simp only [weight]
      omega

/-- With some fuel, what is recognised weighs no more than the characters that it takes up
and the parts that were recognised before. -/
structure Reads (fuel : Nat) : Prop where
  value : ∀ {cs rest : List Char} {d : Document}, value fuel cs = some (d, rest) →
    d.weight + rest.length ≤ cs.length
  items : ∀ {done : List Document} {cs rest : List Char} {d : Document},
    items fuel done cs = some (d, rest) →
    d.weight + rest.length ≤ itemsWeight done + cs.length
  members : ∀ {done : List (Option String × Document)} {cs rest : List Char} {d : Document},
    members fuel done cs = some (d, rest) →
    d.weight + rest.length ≤ membersWeight done + cs.length

theorem weight_of_value {fuel : Nat} (reads : Reads fuel) {cs rest : List Char} {d : Document}
    (h : value (fuel + 1) cs = some (d, rest)) : d.weight + rest.length ≤ cs.length := by
  have hskip := (skipSpace_suffix cs).length_le
  rw [value] at h
  generalize skipSpace cs = ts at h hskip
  split at h
  · simp only [Option.some.injEq, Prod.mk.injEq] at h
    obtain ⟨rfl, rfl⟩ := h
    simp only [List.length_cons, weight] at hskip ⊢
    omega
  · simp only [Option.some.injEq, Prod.mk.injEq] at h
    obtain ⟨rfl, rfl⟩ := h
    simp only [List.length_cons, weight] at hskip ⊢
    omega
  · simp only [Option.some.injEq, Prod.mk.injEq] at h
    obtain ⟨rfl, rfl⟩ := h
    simp only [List.length_cons, weight] at hskip ⊢
    omega
  · obtain ⟨⟨pieces, after⟩, hquoted, hd⟩ := Option.map_eq_some_iff.1 h
    simp only [Prod.mk.injEq] at hd
    obtain ⟨rfl, rfl⟩ := hd
    have hlength := length_of_quoted? hquoted
    have hweight := weight_string_le pieces
    simp only [List.length_cons, List.length_nil] at hskip hlength
    omega
  · obtain ⟨⟨n, after⟩, hnumber, hd⟩ := Option.map_eq_some_iff.1 h
    simp only [Prod.mk.injEq] at hd
    obtain ⟨rfl, rfl⟩ := hd
    have := (suffix_of_unsigned? hnumber).length_le
    simp only [List.length_cons, weight] at hskip ⊢
    omega
  · rename_i tail
    have htail := (skipSpace_suffix tail).length_le
    split at h
    · rename_i after hafter
      simp only [Option.some.injEq, Prod.mk.injEq] at h
      obtain ⟨rfl, rfl⟩ := h
      rw [hafter] at htail
      simp only [List.length_cons, weight, itemsWeight] at hskip htail ⊢
      omega
    · have := reads.items h
      simp only [List.length_cons, itemsWeight] at hskip this
      omega
  · rename_i tail
    have htail := (skipSpace_suffix tail).length_le
    split at h
    · rename_i after hafter
      simp only [Option.some.injEq, Prod.mk.injEq] at h
      obtain ⟨rfl, rfl⟩ := h
      rw [hafter] at htail
      simp only [List.length_cons, weight, membersWeight] at hskip htail ⊢
      omega
    · have := reads.members h
      simp only [List.length_cons, membersWeight] at hskip this
      omega
  · obtain ⟨⟨n, after⟩, hnumber, hd⟩ := Option.map_eq_some_iff.1 h
    simp only [Prod.mk.injEq] at hd
    obtain ⟨rfl, rfl⟩ := hd
    have := (suffix_of_unsigned? hnumber).length_le
    simp only [weight]
    omega

theorem weight_of_items {fuel : Nat} (reads : Reads fuel) {done : List Document}
    {cs rest : List Char} {d : Document} (h : items (fuel + 1) done cs = some (d, rest)) :
    d.weight + rest.length ≤ itemsWeight done + cs.length := by
  rw [items] at h
  cases hitem : value fuel cs with
  | none => simp [hitem] at h
  | some found =>
      obtain ⟨item, after⟩ := found
      have hweight := reads.value hitem
      have hskip := (skipSpace_suffix after).length_le
      simp only [hitem] at h
      generalize skipSpace after = ts at h hskip
      split at h
      · have := reads.items h
        simp only [List.length_cons, itemsWeight] at hskip this
        omega
      · simp only [Option.some.injEq, Prod.mk.injEq] at h
        obtain ⟨rfl, rfl⟩ := h
        simp only [weight, itemsWeight_eq_sum, List.map_reverse, List.sum_reverse_nat,
          List.map_cons, List.sum_cons, List.length_cons] at hskip ⊢
        omega
      · cases h

theorem weight_of_members {fuel : Nat} (reads : Reads fuel)
    {done : List (Option String × Document)} {cs rest : List Char} {d : Document}
    (h : members (fuel + 1) done cs = some (d, rest)) :
    d.weight + rest.length ≤ membersWeight done + cs.length := by
  have hskip := (skipSpace_suffix cs).length_le
  rw [members] at h
  generalize skipSpace cs = ts at h hskip
  split at h
  · rename_i tail
    split at h
    · cases h
    · rename_i pieces afterName hquoted
      have hname := length_of_quoted? hquoted
      have hskipName := (skipSpace_suffix afterName).length_le
      generalize skipSpace afterName = us at h hskipName
      split at h
      · rename_i afterColon
        split at h
        · cases h
        · rename_i item after hitem
          have hweight := reads.value hitem
          have hskipItem := (skipSpace_suffix after).length_le
          generalize skipSpace after = vs at h hskipItem
          simp only [List.length_cons, List.length_nil] at hskip hname hskipName hskipItem
          split at h
          · have := reads.members h
            simp only [List.length_cons, membersWeight] at hskipItem this
            omega
          · simp only [Option.some.injEq, Prod.mk.injEq] at h
            obtain ⟨rfl, rfl⟩ := h
            simp only [weight, membersWeight_eq_sum, List.map_reverse,
              List.sum_reverse_nat, List.map_cons, List.sum_cons, List.length_cons]
              at hskipItem ⊢
            omega
          · cases h
      · cases h
  · cases h

theorem reads (fuel : Nat) : Reads fuel := by
  induction fuel with
  | zero => constructor <;> simp [value, items, members]
  | succ fuel ih => exact ⟨weight_of_value ih, weight_of_items ih, weight_of_members ih⟩

/-- A document weighs no more than its text. -/
theorem weight_of_read? {text : String} {d : Document} (h : read? text = some d) :
    d.weight ≤ text.toList.length := by
  simp only [read?] at h
  split at h
  · rename_i document rest hreading
    split at h
    · simp only [Option.some.injEq] at h
      subst h
      have := (reads _).value hreading
      omega
    · cases h
  · cases h

mutual

/-- A value weighs no more than its document. -/
theorem weight_of_value? {depth : Nat} {d : Document} {v : Value}
    (h : value? depth d = some v) : v.weight ≤ d.weight := by
  cases d with
  | null =>
      simp only [value?, Option.some.injEq] at h
      subst h
      simp [Value.weight]
  | bool b =>
      simp only [value?, Option.some.injEq] at h
      subst h
      simp [Value.weight]
  | number n =>
      obtain ⟨number, -, rfl⟩ := Option.map_eq_some_iff.1 h
      simp [Value.weight]
  | string s =>
      obtain ⟨text, rfl, rfl⟩ := Option.map_eq_some_iff.1 h
      simp [Value.weight, weight]
  | array items =>
      rw [value?] at h
      split at h
      · cases h
      · obtain ⟨values, hvalues, rfl⟩ := Option.map_eq_some_iff.1 h
        have := weight_of_itemValues? hvalues
        simp only [Value.weight, weight]
        omega
  | object members =>
      rw [value?] at h
      split at h
      · cases h
      · obtain ⟨fields, hfields, rfl⟩ := Option.map_eq_some_iff.1 h
        have hmembers := weight_of_memberValues? hfields
        have hentries := Value.fieldsWeight_overlay_le [] fields
        simp only [Value.fieldsWeight, Nat.zero_add] at hentries
        simp only [Value.weight, weight, Keyed.ofEntries]
        omega

theorem weight_of_itemValues? {depth : Nat} {items : List Document} {values : List Value}
    (h : itemValues? depth items = some values) :
    Value.itemsWeight values ≤ itemsWeight items := by
  cases items with
  | nil =>
      simp only [itemValues?, Option.some.injEq] at h
      subst h
      simp [Value.itemsWeight]
  | cons d rest =>
      simp only [itemValues?, Option.bind_eq_bind, Option.bind_eq_some_iff,
        Option.some.injEq] at h
      obtain ⟨v, hv, vs, hvs, rfl⟩ := h
      have := weight_of_value? hv
      have := weight_of_itemValues? hvs
      simp only [Value.itemsWeight, itemsWeight]
      omega

theorem weight_of_memberValues? {depth : Nat} {members : List (Option String × Document)}
    {fields : List (String × Value)} (h : memberValues? depth members = some fields) :
    Value.fieldsWeight fields ≤ membersWeight members := by
  cases members with
  | nil =>
      simp only [memberValues?, Option.some.injEq] at h
      subst h
      simp [Value.fieldsWeight]
  | cons member rest =>
      obtain ⟨name, d⟩ := member
      simp only [memberValues?, Option.bind_eq_bind, Option.bind_eq_some_iff,
        Option.some.injEq] at h
      obtain ⟨key, -, v, hv, vs, hvs, rfl⟩ := h
      have := weight_of_value? hv
      have := weight_of_memberValues? hvs
      simp only [Value.fieldsWeight, membersWeight]
      omega

end

end Document

/-- A value that is read from a text weighs no more than the text. -/
theorem Value.weight_of_read? {text : String} {v : Value} (h : Value.read? text = some v) :
    v.weight ≤ text.toList.length := by
  obtain ⟨d, hd, hv⟩ := Option.bind_eq_some_iff.1 h
  exact Nat.le_trans (Document.weight_of_value? hv) (Document.weight_of_read? hd)

end Dialogue
