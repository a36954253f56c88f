import Dialogue.Json.Value

/-!
# Session storage

A small store of values under a namespace and a key, apart from the session's data.  An
entry can be marked to disappear once it has been read.
-/

namespace Dialogue

/-- A stored value and whether its first read removes it. -/
structure StoredEntry where
  value : Value
  clearAfterRead : Bool

/-- Entries by namespace and key. -/
structure SessionStorage where
  namespaces : Keyed (Keyed StoredEntry) := []

namespace SessionStorage

/-- The namespace of entries that name none. -/
def defaultNamespace : String := "default"

/-- The entries of a namespace. -/
def entries (s : SessionStorage) (ns : String) : Keyed StoredEntry :=
  (s.namespaces.get? ns).getD []

/-- The entry under a namespace and a key. -/
def get? (s : SessionStorage) (ns key : String) : Option StoredEntry :=
  (s.entries ns).get? key

/-- Writes an entry, replacing value and mark. -/
def write (s : SessionStorage) (ns key : String) (value : Value) (clearAfterRead : Bool) :
    SessionStorage :=
  { namespaces := s.namespaces.put ns ((s.entries ns).put key { value, clearAfterRead }) }

/-- Reads an entry.  It is removed if the reader consumes it or if it was marked so; a
namespace goes with its last entry. -/
def read (s : SessionStorage) (ns key : String) (consume : Bool) :
    Option Value × SessionStorage :=
  match s.get? ns key with
  | none => (none, s)
  | some entry =>
    if consume || entry.clearAfterRead then
      let left := (s.entries ns).drop key
      let namespaces :=
        if left.isEmpty then s.namespaces.drop ns else s.namespaces.put ns left
      (some entry.value, { namespaces })
    else (some entry.value, s)

/-- Removes an entry and returns its value.  The namespace stays. -/
def remove (s : SessionStorage) (ns key : String) : Option Value × SessionStorage :=
  match s.get? ns key with
  | none => (none, s)
  | some entry =>
    (some entry.value, { namespaces := s.namespaces.put ns ((s.entries ns).drop key) })

/-- The number of entries. -/
def size (s : SessionStorage) : Nat :=
  s.namespaces.values.foldr (fun entries rest => entries.length + rest) 0

/-- Whether there is no entry. -/
def isEmpty (s : SessionStorage) : Bool := s.size == 0

end SessionStorage
end Dialogue
