import Dialogue.Functions.Arithmetic
import Dialogue.Functions.Collections
import Dialogue.Functions.Dates
import Dialogue.Functions.Logic

/-!
# The library of functions

The functions that every engine knows.  `ReadStorage`, the only one that can change
anything, takes an entry out of the session's storage.
-/

namespace Dialogue

namespace FunctionLibrary

variable {σ : Type}

/-- Reads an entry of the session's storage; a missing one stands for the fallback. -/
def readStorage : Executor σ where
  keywords := ["key", "namespace", "fallback", "consume"]
  execute _ params := do
    let key ← Eval.ofExcept (Parameters.required "ReadStorage" params "key")
    let ns := (Parameters.text? params "namespace").getD SessionStorage.defaultNamespace
    let consume := ((params.get? "consume").map Value.toBool).getD false
    let stored ← Eval.changeSession fun session =>
      let (value, storage) := session.storage.read ns key.toText consume
      (value, { session with storage })
    return (stored.or (params.get? "fallback")).getD .null

/-- All functions of the library. -/
def standard : Keyed (Executor σ) :=
  .ofEntries (Arithmetic.functions ++ Logic.functions ++ Collections.functions ++
    Dates.functions ++ [("ReadStorage", readStorage)])

end FunctionLibrary
end Dialogue
