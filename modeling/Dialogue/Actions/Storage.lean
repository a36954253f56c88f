import Dialogue.Actions.Fields

/-!
# Keeping values

`Store` puts a value into the session's storage, and `ReadStorage` copies one from there
into the session's data.
-/

namespace Dialogue
namespace Keeping

variable {σ : Type}

/-- The namespace of an entry. -/
def entryNamespace (f : ActionFields σ) : Eval σ String := do
  let text ← f.text? "namespace"
  return (text.filter fun text => !text.isEmpty).getD SessionStorage.defaultNamespace

/-- Stores a value. -/
def store (f : ActionFields σ) : Eval σ Unit := do
  let ns ← entryNamespace f
  let key ← f.requiredText "key"
  let value ← f.value "value"
  let clearAfterRead ← f.flag "clearAfterRead" false
  Eval.updateSession fun session =>
    { session with storage := session.storage.write ns key value clearAfterRead }

/-- Copies a stored value to a place in the session's data; null removes what is there. -/
def read (f : ActionFields σ) : Eval σ Unit := do
  let ns ← entryNamespace f
  let key ← f.requiredText "key"
  let saveTo ← f.requiredText "saveTo"
  let consume ← f.flag "consume" false
  let fallback ← f.value "fallback"
  let stored ← Eval.changeSession fun session =>
    let (value, storage) := session.storage.read ns key consume
    (value, { session with storage })
  let value := stored.getD fallback
  if value.isNull then
    Eval.updateSession fun session => (session.removeData saveTo).2
  else Eval.saveData saveTo value (.unsavedEntry saveTo)

/-- The actions of this module. -/
def actions : List (String × Processor σ) :=
  [Processor.named "Store" store, Processor.named "ReadStorage" read]

end Keeping
end Dialogue
