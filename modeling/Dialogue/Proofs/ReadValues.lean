import Dialogue.Json.Reader
import Dialogue.Proofs.Likeness

/-!
# Values that are read

Likeness is an equivalence on well-formed values, and a text denotes no others.  A number is
read as an integer that fits or as a finite float, and of members with one name only the last is
kept.  The reader is followed in two stages: a document that is read has finite numbers
(`Document.finite_of_read?`), and the value of such a document is well-formed
(`Document.wellFormed_of_value?`).
-/

namespace Dialogue

namespace Json

theorem finite_of_toFloat? {l : Decimal.Literal} {n : Number}
    (h : l.toFloat?.map Number.float = some n) : n.Finite := by
  obtain ⟨x, hx, rfl⟩ := Option.map_eq_some_iff.1 h
  exact Decimal.isFinite_of_toFloat? hx

/-- An integer literal stands for an integer that fits or for a finite float. -/
theorem finite_of_integer? {negative : Bool} {digits : List Char} {n : Number}
    (h : integer? negative digits = some n) : n.Finite := by
  rw [integer?] at h
  split at h
  · split at h
    · exact finite_of_toFloat? h
    · rename_i hfits
      obtain rfl := Option.some.inj h
      simp only [Number.Finite, Number.Fits, Nat.pow_eq] at hfits ⊢
      omega
  · split at h
    · rename_i hfits
      obtain rfl := Option.some.inj h
      simp only [Number.Finite, Number.Fits, Nat.pow_eq] at hfits ⊢
      omega
    · exact finite_of_toFloat? h

/-- A number that is read is finite, if it stands for one at all. -/
theorem finite_of_unsigned? {negative : Bool} {cs rest : List Char} {n : Number}
    (h : unsigned? negative cs = some (some n, rest)) : n.Finite := by
  unfold unsigned? at h
  simp only [bind, Option.bind] at h
  split at h
  · cases h
  · split at h
    · rename_i fraction hfraction
      split at h
      · cases h
      · cases hexponent : exponentPart? (Decimal.spanDigits fraction).2 with
        | none => simp [hexponent] at h
        | some found =>
            -- with a fraction it is a float
            simp only [hexponent, Option.isNone_some, Bool.false_and, Bool.false_eq_true,
              if_false] at h
            exact finite_of_toFloat? (Prod.ext_iff.1 (Option.some.inj h)).1
    · cases hexponent : exponentPart? (Decimal.spanDigits cs).2 with
      | none => simp [hexponent] at h
      | some found =>
          simp only [hexponent] at h
          split at h
          · exact finite_of_integer? (Prod.ext_iff.1 (Option.some.inj h)).1
          · exact finite_of_toFloat? (Prod.ext_iff.1 (Option.some.inj h)).1

end Json

namespace Document

open Json

mutual

/-- Every number of the document is finite, if it stands for one at all. -/
def Finite : Document → Prop
  | .number (some n) => n.Finite
  | .array items => ItemsFinite items
  | .object members => MembersFinite members
  | _ => True

/-- Every document of a list is finite. -/
def ItemsFinite : List Document → Prop
  | [] => True
  | d :: rest => Finite d ∧ ItemsFinite rest

/-- Every document of a list of members is finite. -/
def MembersFinite : List (Option String × Document) → Prop
  | [] => True
  | (_, d) :: rest => Finite d ∧ MembersFinite rest

end

theorem itemsFinite_iff {items : List Document} : ItemsFinite items ↔ ∀ d ∈ items, d.Finite := by
  induction items with
  | nil => simp [ItemsFinite]
  | cons d rest ih => simp [ItemsFinite, ih]

theorem membersFinite_iff {members : List (Option String × Document)} :
    MembersFinite members ↔ ∀ member ∈ members, member.2.Finite := by
  induction members with
  | nil => simp [MembersFinite]
  | cons member rest ih => simp [MembersFinite, ih]

theorem finite_number {negative : Bool} {cs rest : List Char} {n : Option Number}
    (h : unsigned? negative cs = some (n, rest)) : (Document.number n).Finite := by
  cases n with
  | none => trivial
  | some n => exact finite_of_unsigned? h

/-- With some fuel, what is recognised is finite if the parts recognised before are. -/
structure ReadsFinite (fuel : Nat) : Prop where
  value : ∀ {cs rest : List Char} {d : Document}, value fuel cs = some (d, rest) → d.Finite
  items : ∀ {done : List Document} {cs rest : List Char} {d : Document},
    (∀ d ∈ done, d.Finite) → items fuel done cs = some (d, rest) → d.Finite
  members : ∀ {done : List (Option String × Document)} {cs rest : List Char} {d : Document},
    (∀ member ∈ done, member.2.Finite) → members fuel done cs = some (d, rest) → d.Finite

variable {fuel : Nat} {cs rest : List Char} {d : Document}

theorem finite_of_value (reads : ReadsFinite fuel) (h : value (fuel + 1) cs = some (d, rest)) :
    d.Finite := by
  rw [value] at h
  split at h
  · cases h
    trivial
  · cases h
    trivial
  · cases h
    trivial
  · obtain ⟨_, -, hd⟩ := Option.map_eq_some_iff.1 h
    cases hd
    trivial
  · obtain ⟨_, hnumber, hd⟩ := Option.map_eq_some_iff.1 h
    cases hd
    exact finite_number hnumber
  · split at h
    · cases h
      exact itemsFinite_iff.2 (by simp)
    · exact reads.items (by simp) h
  · split at h
    · cases h
      exact membersFinite_iff.2 (by simp)
    · exact reads.members (by simp) h
  · obtain ⟨_, hnumber, hd⟩ := Option.map_eq_some_iff.1 h
    cases hd
    exact finite_number hnumber

theorem finite_of_items (reads : ReadsFinite fuel) {done : List Document}
    (hdone : ∀ d ∈ done, d.Finite) (h : items (fuel + 1) done cs = some (d, rest)) :
    d.Finite := by
  rw [items] at h
  split at h
  · cases h
  · rename_i item after hitem
    have hmore : ∀ d ∈ item :: done, d.Finite :=
      List.forall_mem_cons.2 ⟨reads.value hitem, hdone⟩
    split at h
    · exact reads.items hmore h
    · cases h
      exact itemsFinite_iff.2 fun d hd => hmore d (List.mem_reverse.1 hd)
    · cases h

theorem finite_of_members (reads : ReadsFinite fuel) {done : List (Option String × Document)}
    (hdone : ∀ member ∈ done, member.2.Finite)
    (h : members (fuel + 1) done cs = some (d, rest)) : d.Finite := by
  rw [members] at h
  split at h
  · split at h
    · cases h
    · rename_i pieces afterName hquoted
      split at h
      · split at h
        · cases h
        · rename_i item after hitem
          have hmore : ∀ member ∈ (text? pieces, item) :: done, member.2.Finite :=
            List.forall_mem_cons.2 ⟨reads.value hitem, hdone⟩
          split at h
          · exact reads.members hmore h
          · cases h
            exact membersFinite_iff.2 fun member hmember =>
              hmore member (List.mem_reverse.1 hmember)
          · cases h
      · cases h
  · cases h

theorem readsFinite (fuel : Nat) : ReadsFinite fuel := by
  induction fuel with
  | zero => constructor <;> simp [value, items, members]
  | succ fuel ih => exact ⟨finite_of_value ih, finite_of_items ih, finite_of_members ih⟩

/-- A document that is read is finite. -/
theorem finite_of_read? {text : String} (h : read? text = some d) : d.Finite := by
  simp only [read?] at h
  split at h
  · rename_i document rest hreading
    split at h
    · cases h
      exact (readsFinite _).value hreading
    · cases h
  · cases h

mutual

/-- The value of a finite document is well-formed. -/
theorem wellFormed_of_value? {depth : Nat} {d : Document} {v : Value} (hd : d.Finite)
    (h : value? depth d = some v) : v.WellFormed := by
  cases d with
  | null | bool =>
      cases h
      exact ⟨trivial, by simp [Value.numbers]⟩
  | number n =>
      obtain ⟨number, rfl, rfl⟩ := Option.map_eq_some_iff.1 h
      exact ⟨trivial, by simpa [Value.numbers, Finite] using hd⟩
  | string s =>
      obtain ⟨text, -, rfl⟩ := Option.map_eq_some_iff.1 h
      exact ⟨trivial, by simp [Value.numbers]⟩
  | array items =>
      rw [value?] at h
      split at h
      · cases h
      · obtain ⟨values, hvalues, rfl⟩ := Option.map_eq_some_iff.1 h
        exact Value.wellFormed_array_iff.2 (wellFormed_of_itemValues? hd hvalues)
  | object members =>
      rw [value?] at h
      split at h
      · cases h
      · obtain ⟨fields, hfields, rfl⟩ := Option.map_eq_some_iff.1 h
        refine Value.wellFormed_object_iff.2 ⟨Keyed.ordered_ofEntries fields, fun v hv => ?_⟩
        obtain ⟨entry, hentry, rfl⟩ := List.mem_map.1 hv
        exact wellFormed_of_memberValues? hd hfields entry (Keyed.mem_of_mem_ofEntries hentry)

theorem wellFormed_of_itemValues? {depth : Nat} {items : List Document} {values : List Value}
    (hitems : ItemsFinite items) (h : itemValues? depth items = some values) :
    ∀ v ∈ values, v.WellFormed := by
  cases items with
  | nil =>
      cases h
      simp
  | cons d rest =>
      simp only [itemValues?, Option.bind_eq_bind, Option.bind_eq_some_iff,
        Option.some.injEq] at h
      obtain ⟨v, hv, vs, hvs, rfl⟩ := h
      exact List.forall_mem_cons.2
        ⟨wellFormed_of_value? hitems.1 hv, wellFormed_of_itemValues? hitems.2 hvs⟩

theorem wellFormed_of_memberValues? {depth : Nat} {members : List (Option String × Document)}
    {fields : List (String × Value)} (hmembers : MembersFinite members)
    (h : memberValues? depth members = some fields) :
    ∀ entry ∈ fields, entry.2.WellFormed := by
  cases members with
  | nil =>
      cases h
      simp
  | cons member rest =>
      obtain ⟨name, d⟩ := member
      simp only [memberValues?, Option.bind_eq_bind, Option.bind_eq_some_iff,
        Option.some.injEq] at h
      obtain ⟨key, -, v, hv, vs, hvs, rfl⟩ := h
      exact List.forall_mem_cons.2
        ⟨wellFormed_of_value? hmembers.1 hv, wellFormed_of_memberValues? hmembers.2 hvs⟩

end

end Document

/-- A value that is read from a text is well-formed. -/
theorem Value.wellFormed_of_read? {text : String} {v : Value} (h : Value.read? text = some v) :
    v.WellFormed := by
  obtain ⟨d, hd, hv⟩ := Option.bind_eq_some_iff.1 h
  exact Document.wellFormed_of_value? (Document.finite_of_read? hd) hv

end Dialogue
