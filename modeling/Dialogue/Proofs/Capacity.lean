import Dialogue.Proofs.Buttons

/-!
# The capacity of a callback table

Callbacks are added one after the other (`CallbackTable.insertAll`).  What is found afterwards
was there before or is one of those that were added (`CallbackTable.get?_insertAll`).  What was
there before stays, unless it was in the older half of a full table when room was made for one
more (`CallbackTable.kept_or_dropped`).
-/

namespace Dialogue
namespace CallbackTable

/-- The table after entries were added one after the other. -/
def insertAll (t : CallbackTable) (entries : List Callback) : CallbackTable :=
  entries.foldl (fun t entry => (t.insert entry).2) t

/-- A full table drops the numbers of its older half before anything is added. -/
def Drops (t : CallbackTable) (n : Nat) : Prop :=
  t.capacity ≤ t.size ∧ n + (t.size - t.size / 2) < t.nextNumber

variable {t : CallbackTable} {entry : Callback} {entries : List Callback} {n : Nat}

theorem insertAll_append (t : CallbackTable) (past present : List Callback) :
    t.insertAll (past ++ present) = (t.insertAll past).insertAll present :=
  List.foldl_append

theorem extends_insertAll (t : CallbackTable) (entries : List Callback) :
    (t.insertAll entries).Extends t := by
  induction entries generalizing t with
  | nil => exact .refl t
  | cons first rest ih => exact (ih (t.insert first).2).trans (t.extends_insert first)

theorem lt_of_numbered? (h : t.numbered? n = some entry) : n < t.nextNumber := by
  unfold numbered? at h
  split at h
  · assumption
  · cases h

/-- The newest entry is the one that was added, the others were there before. -/
theorem numbered?_insert {other : Callback} (h : (t.insert entry).2.numbered? n = some other) :
    t.numbered? n = some other ∨ other = entry := by
  have hlt := lt_of_numbered? h
  rw [nextNumber_insert] at hlt
  rcases Nat.lt_succ_iff_lt_or_eq.1 hlt with hold | rfl
  · exact .inl ((t.extends_insert entry).2 n other hold h)
  · have hnewest := numbered?_push_self t.makeRoom entry
    rw [nextNumber_makeRoom] at hnewest
    exact .inr (Option.some.inj (h.symm.trans hnewest))

theorem numbered?_insertAll (h : (t.insertAll entries).numbered? n = some entry) :
    t.numbered? n = some entry ∨ entry ∈ entries := by
  induction entries generalizing t with
  | nil => exact .inl h
  | cons first rest ih =>
      rcases ih h with hfirst | hmem
      · rcases numbered?_insert hfirst with hold | rfl
        · exact .inl hold
        · exact .inr List.mem_cons_self
      · exact .inr (List.mem_cons_of_mem first hmem)

/-- What an identifier leads to was there before, or was added. -/
theorem get?_insertAll {id : String} (h : (t.insertAll entries).get? id = some entry) :
    t.get? id = some entry ∨ entry ∈ entries := by
  obtain ⟨n, hn, hentry⟩ := Option.bind_eq_some_iff.1 h
  rw [get?, hn]
  exact numbered?_insertAll hentry

/-- Making room drops the older half of a full table. -/
theorem numbered?_makeRoom (h : t.numbered? n = some entry) :
    t.makeRoom.numbered? n = some entry ∨ t.makeRoom.numbered? n = none ∧ t.Drops n := by
  have hlt := lt_of_numbered? h
  unfold makeRoom
  split
  · rename_i hfull
    simp only [numbered?, halve, if_pos hlt, List.getElem?_take] at h ⊢
    split
    · exact .inl h
    · refine .inr ⟨rfl, hfull, ?_⟩
      omega
  · exact .inl h

/-- What was there before stays, or was dropped to make room for one of those that were added. -/
theorem kept_or_dropped (h : t.numbered? n = some entry) (entries : List Callback) :
    (t.insertAll entries).numbered? n = some entry ∨
    (t.insertAll entries).numbered? n = none ∧
      ∃ past, past <+: entries ∧ (t.insertAll past).Drops n := by
  induction entries generalizing t with
  | nil => exact .inl h
  | cons first rest ih =>
      have hlt := lt_of_numbered? h
      have hpushed : (t.insert first).2.numbered? n = t.makeRoom.numbered? n :=
        numbered?_push_of_lt t.makeRoom first (by simpa using hlt)
      rcases numbered?_makeRoom h with hkept | ⟨hgone, hdrops⟩
      · rcases ih (hpushed.trans hkept) with hkept | ⟨hgone, past, hpast, hdrops⟩
        · exact .inl hkept
        · exact .inr ⟨hgone, first :: past, List.cons_prefix_cons.2 ⟨rfl, hpast⟩, hdrops⟩
      · refine .inr ⟨?_, [], List.nil_prefix, hdrops⟩
        -- what was dropped is not found again
        by_contra hfound
        obtain ⟨other, hother⟩ := Option.ne_none_iff_exists'.1 hfound
        have hlater : n < (t.insert first).2.nextNumber := by
          rw [nextNumber_insert]
          omega
        have hearlier := ((t.insert first).2.extends_insertAll rest).2 n other hlater hother
        rw [hpushed, hgone] at hearlier
        cases hearlier

end CallbackTable
end Dialogue
