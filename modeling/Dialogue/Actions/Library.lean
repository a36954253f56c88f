import Dialogue.Actions.Endpoint
import Dialogue.Actions.Input
import Dialogue.Actions.Menus
import Dialogue.Actions.Storage

/-!
# The library of actions

The actions that every engine knows.
-/

namespace Dialogue
namespace ActionLibrary

/-- All actions of the library. -/
def standard {σ : Type} : Keyed (Processor σ) :=
  .ofEntries (Output.actions ++ Menus.actions ++ Input.actions ++ Keeping.actions ++
    EndpointCall.actions)

end ActionLibrary
end Dialogue
