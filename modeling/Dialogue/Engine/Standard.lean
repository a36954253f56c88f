import Dialogue.Actions.Library
import Dialogue.Engine.Routing
import Dialogue.Functions.Library

/-!
# Standard engines

An engine with the functions and actions of the library, for a scenario whose graphs are
well formed.
-/

namespace Dialogue
namespace Engine

variable {σ : Type}

/-- How deep evaluation may nest where nothing else is said. -/
def ampleNesting : Nat := 1000000

/-- The engine of a scenario. -/
def standard (scenario : Scenario) (settings : Settings) (host : Host σ)
    (wallClock : WallClock) : Except Failure (Engine σ) :=
  Engine.checked
    { scenario, settings, host, wallClock
      functions := FunctionLibrary.standard
      actions := { library := ActionLibrary.standard } }

end Engine
end Dialogue
