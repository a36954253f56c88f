import Mathlib
import Dialogue.Keyed

/-!
# Entries of keyed collections

What a look-up finds is an entry, also after a collection was overlaid or built from a
list.  Two collections with the same keys can be compared entry by entry: `Matches` says
that their values are related, and writing and removing entries keep it.
-/

namespace Dialogue
namespace Keyed

variable {α β : Type}

/-- The same keys, with values that a relation holds of. -/
inductive Matches (R : String → α → β → Prop) : Keyed α → Keyed β → Prop
  | nil : Matches R [] []
  | cons {key : String} {a : α} {b : β} {m : Keyed α} {n : Keyed β} (value : R key a b)
      (rest : Matches R m n) : Matches R ((key, a) :: m) ((key, b) :: n)

theorem mem_of_get? {m : Keyed α} {key : String} {value : α} (h : m.get? key = some value) :
    (key, value) ∈ m := by
  induction m with
  | nil => simp at h
  | cons entry rest ih =>
      obtain ⟨k, v⟩ := entry
      rw [get?_cons] at h
      split at h
      · rename_i hk
        simp_all
      · exact List.mem_cons_of_mem _ (ih h)

theorem get?_put (m : Keyed α) (key other : String) (value : α) :
    get? (put key value m) other = if other = key then some value else get? m other := by
  by_cases h : other = key
  · rw [if_pos h, h, get?_put_self]
  · rw [if_neg h, get?_put_of_ne m value h]

theorem get?_drop (m : Keyed α) (key other : String) :
    get? (drop key m) other = if other = key then none else get? m other := by
  by_cases h : other = key
  · rw [if_pos h, h, get?_drop_self]
  · rw [if_neg h, get?_drop_of_ne m h]

theorem mem_of_mem_put {m : Keyed α} {key : String} {value : α} {entry : String × α}
    (h : entry ∈ put key value m) : entry = (key, value) ∨ entry ∈ m := by
  induction m with
  | nil => exact .inl (List.mem_singleton.1 h)
  | cons other rest ih =>
      obtain ⟨k, v⟩ := other
      rw [put] at h
      split at h
      · exact (List.mem_cons.1 h).imp id (List.mem_cons_of_mem _)
      · split at h
        · exact List.mem_cons.1 h
        · rcases List.mem_cons.1 h with hother | hrest
          · exact .inr (hother ▸ List.mem_cons_self)
          · exact (ih hrest).imp id (List.mem_cons_of_mem _)

/-- Removing an entry that was just written leaves what removing the old one leaves. -/
theorem drop_put (m : Keyed α) (key : String) (value : α) :
    drop key (put key value m) = drop key m := by
  induction m with
  | nil => simp [put, drop]
  | cons entry rest ih =>
      obtain ⟨k, v⟩ := entry
      rw [put]
      split
      · rename_i hk
        simp [drop, hk]
      · split
        · simp [drop]
        · simp only [drop, List.filter_cons] at ih ⊢
          rw [ih]

theorem mem_of_get?_overlay {m later : Keyed α} {key : String} {value : α}
    (h : (overlay m later).get? key = some value) :
    (key, value) ∈ later ∨ m.get? key = some value := by
  induction later generalizing m with
  | nil => exact .inr h
  | cons entry rest ih =>
      rcases ih (m := m.put entry.1 entry.2) h with hrest | hput
      · exact .inl (List.mem_cons_of_mem entry hrest)
      · rw [get?_put] at hput
        split at hput
        · rename_i hkey
          subst hkey
          simp only [Option.some.injEq] at hput
          exact .inl (hput ▸ List.mem_cons_self)
        · exact .inr hput

/-- A collection built from a list holds only entries of the list. -/
theorem mem_of_get?_ofEntries {entries : List (String × α)} {key : String} {value : α}
    (h : (ofEntries entries).get? key = some value) : (key, value) ∈ entries :=
  (mem_of_get?_overlay h).resolve_right (by simp)

theorem mem_of_mem_overlay {m later : Keyed α} {entry : String × α}
    (h : entry ∈ overlay m later) : entry ∈ later ∨ entry ∈ m := by
  induction later generalizing m with
  | nil => exact .inr h
  | cons other rest ih =>
      rcases ih (m := m.put other.1 other.2) h with hrest | hput
      · exact .inl (List.mem_cons_of_mem other hrest)
      · rcases mem_of_mem_put hput with rfl | hmem
        · exact .inl List.mem_cons_self
        · exact .inr hmem

theorem mem_of_mem_ofEntries {entries : List (String × α)} {entry : String × α}
    (h : entry ∈ ofEntries entries) : entry ∈ entries :=
  (mem_of_mem_overlay h).resolve_right (by simp)

/-- Of two entries written under one key the second one stays. -/
theorem put_put (m : Keyed α) (key : String) (first second : α) :
    put key second (put key first m) = put key second m := by
  induction m with
  | nil => simp [put]
  | cons entry rest ih =>
      obtain ⟨k, v⟩ := entry
      by_cases hk : key = k
      · simp [put, hk]
      · by_cases hlt : key < k
        · simp [put, hk, hlt]
        · simp [put, hk, hlt, ih]

/-- Of the entries of a list the last one counts. -/
theorem get?_ofEntries_concat (entries : List (String × α)) (key : String) (value : α) :
    (ofEntries (entries ++ [(key, value)])).get? key = some value := by
  rw [ofEntries, overlay, List.foldl_append]
  exact get?_put_self _ key value

theorem get?_of_not_mem {m : Keyed α} {key : String} (h : key ∉ m.map Prod.fst) :
    m.get? key = none := by
  rw [Option.eq_none_iff_forall_ne_some]
  exact fun value hvalue => h (List.mem_map.2 ⟨_, mem_of_get? hvalue, rfl⟩)

/-- Of entries with different keys each is found, whatever their order. -/
theorem get?_overlay_of_nodup {entries : List (String × α)} (h : (entries.map Prod.fst).Nodup)
    (m : Keyed α) (key : String) :
    (overlay m entries).get? key = (get? entries key).or (m.get? key) := by
  induction entries generalizing m with
  | nil => rfl
  | cons entry rest ih =>
      obtain ⟨k, v⟩ := entry
      obtain ⟨hfresh, hrest⟩ := List.nodup_cons.1 h
      change (overlay (put k v m) rest).get? key = _
      rw [ih hrest, get?_put, get?_cons]
      by_cases hkey : key = k
      · subst hkey
        simp [get?_of_not_mem hfresh]
      · simp [hkey]

theorem get?_ofEntries_of_nodup {entries : List (String × α)} (h : (entries.map Prod.fst).Nodup)
    (key : String) : (ofEntries entries).get? key = get? entries key := by
  rw [ofEntries, get?_overlay_of_nodup h, get?_nil, Option.or_none]

/-! ## Ordered collections -/

/-- An entry whose key is above all others is written at the end. -/
theorem put_of_forall_lt {m : Keyed α} {key : String} (h : ∀ entry ∈ m, entry.1 < key)
    (value : α) : put key value m = m ++ [(key, value)] := by
  induction m with
  | nil => rfl
  | cons entry rest ih =>
      obtain ⟨k, v⟩ := entry
      obtain ⟨hhead, hrest⟩ := List.forall_mem_cons.1 h
      rw [put, if_neg (ne_of_gt hhead), if_neg (not_lt_of_gt hhead), ih hrest, List.cons_append]

/-- What is overlaid stands behind what is there, if it is above it. -/
theorem overlay_of_ordered {m later : Keyed α} (h : Ordered (m ++ later)) :
    overlay m later = m ++ later := by
  induction later generalizing m with
  | nil => rw [List.append_nil]; rfl
  | cons entry rest ih =>
      have hbelow : ∀ other ∈ m, other.1 < entry.1 := fun other hother =>
        (List.pairwise_append.1 h).2.2 other hother entry List.mem_cons_self
      have hsplit : m ++ entry :: rest = (m ++ [entry]) ++ rest := by simp
      rw [hsplit] at h ⊢
      rw [← ih h, ← put_of_forall_lt hbelow]
      rfl

/-- The entries of an ordered collection make up the collection. -/
theorem ofEntries_eq_self {m : Keyed α} (h : Ordered m) : ofEntries m = m :=
  overlay_of_ordered h

theorem ordered_filter {m : Keyed α} (h : Ordered m) (p : String × α → Bool) :
    Ordered (m.filter p) :=
  List.Pairwise.filter p h

theorem ordered_drop {m : Keyed α} (h : Ordered m) (key : String) : Ordered (drop key m) :=
  ordered_filter h _

theorem ordered_put {m : Keyed α} (h : Ordered m) (key : String) (value : α) :
    Ordered (put key value m) := by
  induction m with
  | nil => exact List.pairwise_singleton _ _
  | cons entry rest ih =>
      obtain ⟨k, v⟩ := entry
      obtain ⟨hhead, hrest⟩ := List.pairwise_cons.1 h
      rw [put]
      split
      · rename_i hk
        subst hk
        exact List.pairwise_cons.2 ⟨hhead, hrest⟩
      · rename_i hne
        split
        · rename_i hlt
          refine List.pairwise_cons.2 ⟨?_, h⟩
          intro other hother
          rcases List.mem_cons.1 hother with rfl | hmem
          · exact hlt
          · exact lt_trans hlt (hhead other hmem)
        · rename_i hnlt
          -- the new entry belongs behind this one
          have hgt : k < key := lt_of_le_of_ne (not_lt.1 hnlt) fun heq => hne heq.symm
          refine List.pairwise_cons.2 ⟨?_, ih hrest⟩
          intro other hother
          rcases mem_of_mem_put hother with rfl | hmem
          · exact hgt
          · exact hhead other hmem

theorem ordered_overlay {m : Keyed α} (h : Ordered m) (later : Keyed α) :
    Ordered (overlay m later) := by
  induction later generalizing m with
  | nil => exact h
  | cons entry rest ih => exact ih (ordered_put h entry.1 entry.2)

theorem ordered_ofEntries (entries : List (String × α)) : Ordered (ofEntries entries) :=
  ordered_overlay .nil entries

/-- A collection has no entry under a key that is below all of its keys. -/
theorem get?_of_forall_lt {m : Keyed α} {key : String} (h : ∀ entry ∈ m, key < entry.1) :
    m.get? key = none := by
  cases hfound : m.get? key with
  | none => rfl
  | some value => exact absurd (h _ (mem_of_get? hfound)) (lt_irrefl key)

/-- Writing what an ordered collection holds already changes nothing. -/
theorem put_of_get? {m : Keyed α} (h : Ordered m) {key : String} {value : α}
    (hget : m.get? key = some value) : put key value m = m := by
  induction m with
  | nil => cases hget
  | cons entry rest ih =>
      obtain ⟨k, v⟩ := entry
      obtain ⟨hhead, hrest⟩ := List.pairwise_cons.1 h
      rw [get?_cons] at hget
      split at hget
      · rename_i hk
        cases hget
        simp [put, hk]
      · rename_i hk
        have hbehind : ¬ key < k := not_lt_of_gt (hhead _ (mem_of_get? hget))
        simp [put, hk, hbehind, ih hrest hget]

theorem nodup_keys {m : Keyed α} (h : Ordered m) : (m.map Prod.fst).Nodup :=
  List.pairwise_map.2 (h.imp ne_of_lt)

/-- What is overlaid comes first. -/
theorem get?_overlay {later : Keyed α} (h : Ordered later) (m : Keyed α) (key : String) :
    (overlay m later).get? key = (later.get? key).or (m.get? key) :=
  get?_overlay_of_nodup (nodup_keys h) m key

/-- In an ordered collection every entry is found under its key. -/
theorem get?_of_mem {m : Keyed α} (h : Ordered m) {key : String} {value : α}
    (hmem : (key, value) ∈ m) : m.get? key = some value := by
  induction m with
  | nil => cases hmem
  | cons entry rest ih =>
      obtain ⟨k, v⟩ := entry
      obtain ⟨hhead, hrest⟩ := List.pairwise_cons.1 h
      rw [get?_cons]
      rcases List.mem_cons.1 hmem with heq | htail
      · cases heq
        rw [if_pos rfl]
      · have hne : key ≠ k := ne_of_gt (hhead _ htail)
        rw [if_neg hne, ih hrest htail]

/-- In ordered collections it matters only what is found under the keys. -/
theorem eq_of_get?_eq {m n : Keyed α} (hm : Ordered m) (hn : Ordered n)
    (h : ∀ key, m.get? key = n.get? key) : m = n := by
  have hmem (entry : String × α) : entry ∈ m ↔ entry ∈ n := by
    constructor
    · intro hentry
      exact mem_of_get? ((h entry.1).symm.trans (get?_of_mem hm hentry))
    · intro hentry
      exact mem_of_get? ((h entry.1).trans (get?_of_mem hn hentry))
  have hperm : m.Perm n :=
    (List.perm_ext_iff_of_nodup (nodup_keys hm).of_map (nodup_keys hn).of_map).2 hmem
  -- both are sorted by their keys, and no two entries have the same key
  apply hperm.eq_of_pairwise _ hm hn
  intro first second _ _ hbelow habove
  exact absurd hbelow (not_lt_of_gt habove)

/-- In an ordered collection one entry at most has a given key. -/
theorem filter_key {m : Keyed α} (h : Ordered m) {key : String} {value : α}
    (hget : m.get? key = some value) :
    m.filter (fun entry => entry.1 == key) = [(key, value)] := by
  induction m with
  | nil => cases hget
  | cons entry rest ih =>
      obtain ⟨k, v⟩ := entry
      obtain ⟨hhead, hrest⟩ := List.pairwise_cons.1 h
      rw [get?_cons] at hget
      split at hget
      · rename_i hkey
        subst hkey
        cases hget
        have hothers : rest.filter (fun entry => entry.1 == key) = [] := by
          rw [List.filter_eq_nil_iff]
          intro other hother
          simpa using ne_of_gt (hhead other hother)
        rw [List.filter_cons_of_pos (by simp), hothers]
      · rename_i hkey
        rw [List.filter_cons_of_neg (by simpa using fun heq => hkey heq.symm), ih hrest hget]

/-- In an ordered collection no key occurs twice, so removing entries uncovers no others. -/
theorem get?_filter {m : Keyed α} (h : Ordered m) (p : String × α → Bool) (key : String) :
    get? (m.filter p) key = (get? m key).filter fun value => p (key, value) := by
  induction m with
  | nil => rfl
  | cons entry rest ih =>
      obtain ⟨k, v⟩ := entry
      obtain ⟨hhead, hrest⟩ := List.pairwise_cons.1 h
      have hih := ih hrest
      rw [get?_cons, List.filter_cons]
      by_cases hk : key = k
      · subst hk
        rw [get?_of_forall_lt hhead] at hih
        by_cases hp : p (key, v)
        · simp [hp, get?_cons, Option.filter]
        · simp [hp, hih, Option.filter]
      · rw [if_neg hk]
        split
        · rw [get?_cons, if_neg hk]
          exact hih
        · exact hih

/-! ## Keys and values -/

section

variable {R : α → β → Prop} {m : Keyed α} {n : Keyed β}

@[simp] theorem keys_mapValues (f : α → β) (m : Keyed α) : (m.mapValues f).keys = m.keys := by
  simp [keys, mapValues]

@[simp] theorem values_mapValues (f : α → β) (m : Keyed α) :
    (m.mapValues f).values = m.values.map f := by
  simp [values, mapValues]

theorem get?_mapValues (f : α → β) (m : Keyed α) (key : String) :
    (m.mapValues f).get? key = (m.get? key).map f := by
  induction m with
  | nil => rfl
  | cons entry rest ih =>
      obtain ⟨k, v⟩ := entry
      change get? ((k, f v) :: mapValues f rest) key = _
      rw [get?_cons, get?_cons, ih]
      split <;> rfl

/-- A collection is made of its keys and values. -/
theorem ext_iff {m n : Keyed α} : m = n ↔ m.keys = n.keys ∧ m.values = n.values := by
  constructor
  · rintro rfl
    exact ⟨rfl, rfl⟩
  · rintro ⟨hkeys, hvalues⟩
    rw [← List.zip_unzip m, ← List.zip_unzip n, List.unzip_eq_map, List.unzip_eq_map]
    exact congrArg₂ List.zip hkeys hvalues

theorem sorted_keys (h : Ordered m) : m.keys.Pairwise (· < ·) :=
  List.Pairwise.map Prod.fst (fun _ _ hlt => hlt) h

/-- Of two ordered collections of one size the keys are the same if those of one are keys of the
other. -/
theorem keys_eq_of_subset (hm : Ordered m) (hn : Ordered n) (hlength : m.length = n.length)
    (hsubset : m.keys ⊆ n.keys) : m.keys = n.keys := by
  -- no key occurs twice, so they are the other ones in some order, and both are sorted
  have hnodup : m.keys.Nodup := (sorted_keys hm).imp ne_of_lt
  have hperm : m.keys.Perm n.keys :=
    (List.subperm_of_subset hnodup hsubset).perm_of_length_le (by simp [keys, hlength])
  exact hperm.eq_of_pairwise' (sorted_keys hm) (sorted_keys hn)

/-- With the same keys, values are related under every key if they are place by place. -/
theorem forall_get?_iff (hm : Ordered m) (hkeys : m.keys = n.keys) :
    (∀ entry ∈ m, ∃ b, n.get? entry.1 = some b ∧ R entry.2 b) ↔
      List.Forall₂ R m.values n.values := by
  induction m generalizing n with
  | nil =>
      obtain rfl : n = [] := List.map_eq_nil_iff.1 hkeys.symm
      simp [values]
  | cons entry m ih =>
      obtain ⟨key, a⟩ := entry
      cases n with
      | nil => cases hkeys
      | cons other n =>
          obtain ⟨name, b⟩ := other
          obtain ⟨rfl, hrest⟩ := List.cons.inj hkeys
          obtain ⟨hhead, hordered⟩ := List.pairwise_cons.1 hm
          have hhere : get? ((key, b) :: n) key = some b := by simp [get?_cons]
          have hbehind : ∀ entry ∈ m, get? ((key, b) :: n) entry.1 = get? n entry.1 := by
            intro entry hentry
            rw [get?_cons, if_neg (ne_of_gt (hhead entry hentry))]
          rw [values, values, List.map_cons, List.map_cons, List.forall₂_cons, ← values, ← values,
            ← ih hordered hrest, List.forall_mem_cons, hhere]
          refine and_congr (by simp) (forall₂_congr fun entry hentry => ?_)
          rw [hbehind entry hentry]

end

/-! ## Related values -/

section

variable {R : String → α → β → Prop} {m : Keyed α} {n : Keyed β}

theorem keys_of_matches (h : Matches R m n) : keys n = keys m := by
  induction h with
  | nil => rfl
  | @cons key _ _ _ _ _ _ ih => exact congrArg (key :: ·) ih

theorem matches_self {R : String → α → α → Prop} (h : ∀ key a, R key a a) (m : Keyed α) :
    Matches R m m := by
  induction m with
  | nil => exact .nil
  | cons entry rest ih => exact .cons (h entry.1 entry.2) ih

theorem Matches.imp {S : String → α → β → Prop} (hvalue : ∀ key a b, R key a b → S key a b)
    (h : Matches R m n) : Matches S m n := by
  induction h with
  | nil => exact .nil
  | cons hab _ ih => exact .cons (hvalue _ _ _ hab) ih

theorem matches_put (h : Matches R m n) {key : String} {a : α} {b : β} (hvalue : R key a b) :
    Matches R (put key a m) (put key b n) := by
  induction h with
  | nil => exact .cons hvalue .nil
  | cons hother hrest ih =>
      simp only [put]
      split
      · exact .cons hvalue hrest
      · split
        · exact .cons hvalue (.cons hother hrest)
        · exact .cons hother ih

theorem matches_drop (h : Matches R m n) (key : String) :
    Matches R (drop key m) (drop key n) := by
  induction h with
  | nil => exact .nil
  | cons hother _ ih =>
      simp only [drop, List.filter_cons] at ih ⊢
      split
      · exact .cons hother ih
      · exact ih

/-- Writing the entries of related collections, over related ones. -/
theorem matches_overlay {m' : Keyed α} {n' : Keyed β} (h : Matches R m n)
    (hlater : Matches R m' n') : Matches R (overlay m m') (overlay n n') := by
  induction hlater generalizing m n with
  | nil => exact h
  | cons hvalue _ ih => exact ih (matches_put h hvalue)

end

end Keyed
end Dialogue
