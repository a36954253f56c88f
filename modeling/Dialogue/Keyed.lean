/-!
# Keyed collections

A `Keyed α` is a list of entries in increasing order of their text keys.  Every map
of the library has this form: the fields of an object, the menus of a scenario, the
sessions of a store.  The order is the order of code points, and it is the order in
which maps are written.

`Keyed` is a plain list so that it can occur inside the values it stores.  `Ordered`
states the invariant; the operations keep it, and the laws of `get?` do not need it.
-/

namespace Dialogue

/-- Entries under text keys, in increasing key order. -/
abbrev Keyed (α : Type) := List (String × α)

namespace Keyed

variable {α β : Type}

/-- The entry under a key. -/
def get? (m : Keyed α) (key : String) : Option α :=
  m.lookup key

/-- Whether there is an entry under a key. -/
def has (m : Keyed α) (key : String) : Bool :=
  (m.get? key).isSome

/-- Writes an entry, replacing the one that is there. -/
def put (key : String) (value : α) : Keyed α → Keyed α
  | [] => [(key, value)]
  | (k, v) :: rest =>
    if key = k then (key, value) :: rest
    else if key < k then (key, value) :: (k, v) :: rest
    else (k, v) :: put key value rest

/-- Removes the entry under a key. -/
def drop (key : String) (m : Keyed α) : Keyed α :=
  m.filter fun entry => entry.1 != key

/-- The keys, in order. -/
def keys (m : Keyed α) : List String :=
  m.map Prod.fst

/-- The values, in the order of their keys. -/
def values (m : Keyed α) : List α :=
  m.map Prod.snd

/-- Writes every entry of `later` over `m`. -/
def overlay (m later : Keyed α) : Keyed α :=
  later.foldl (fun acc entry => put entry.1 entry.2 acc) m

/-- A collection from entries in any order; of equal keys the last one counts. -/
def ofEntries (entries : List (String × α)) : Keyed α :=
  overlay [] entries

/-- Changes the values and keeps the keys. -/
def mapValues (f : α → β) (m : Keyed α) : Keyed β :=
  m.map fun entry => (entry.1, f entry.2)

/-- Keys increase strictly. -/
def Ordered (m : Keyed α) : Prop :=
  m.Pairwise fun a b => a.1 < b.1

@[simp] theorem get?_nil (key : String) : get? ([] : Keyed α) key = none := rfl

theorem get?_cons (k key : String) (v : α) (m : Keyed α) :
    get? ((k, v) :: m) key = if key = k then some v else get? m key := by
  simp only [get?, List.lookup_cons]
  by_cases h : key = k
  · simp [h]
  · simp [h, beq_eq_false_iff_ne.2 h]

/-- A written entry is found again. -/
@[simp] theorem get?_put_self (m : Keyed α) (key : String) (value : α) :
    get? (put key value m) key = some value := by
  induction m with
  | nil => simp [put, get?_cons]
  | cons entry rest ih =>
    obtain ⟨k, v⟩ := entry
    simp only [put]
    split
    · simp [get?_cons]
    · split
      · simp [get?_cons]
      · rename_i hne _
        simp [get?_cons, hne, ih]

/-- Writing one entry leaves the others. -/
theorem get?_put_of_ne (m : Keyed α) {key other : String} (value : α) (h : other ≠ key) :
    get? (put key value m) other = get? m other := by
  induction m with
  | nil => simp [put, get?_cons, h]
  | cons entry rest ih =>
    obtain ⟨k, v⟩ := entry
    simp only [put]
    split
    · rename_i hk
      subst hk
      simp [get?_cons, h]
    · split
      · simp [get?_cons, h]
      · simp [get?_cons, ih]

/-- A removed entry is gone. -/
@[simp] theorem get?_drop_self (m : Keyed α) (key : String) : get? (drop key m) key = none := by
  induction m with
  | nil => rfl
  | cons entry rest ih =>
    obtain ⟨k, v⟩ := entry
    by_cases hk : k = key
    · subst hk
      simpa [drop] using ih
    · have hk' : ¬ key = k := fun h => hk h.symm
      have : drop key ((k, v) :: rest) = (k, v) :: drop key rest := by simp [drop, hk]
      rw [this, get?_cons, if_neg hk', ih]

/-- Removing one entry leaves the others. -/
theorem get?_drop_of_ne (m : Keyed α) {key other : String} (h : other ≠ key) :
    get? (drop key m) other = get? m other := by
  induction m with
  | nil => rfl
  | cons entry rest ih =>
    obtain ⟨k, v⟩ := entry
    by_cases hk : k = key
    · subst hk
      have : drop k ((k, v) :: rest) = drop k rest := by simp [drop]
      rw [this, ih, get?_cons, if_neg h]
    · have : drop key ((k, v) :: rest) = (k, v) :: drop key rest := by simp [drop, hk]
      rw [this, get?_cons, get?_cons, ih]

end Keyed
end Dialogue
