import Dialogue.Actions.Fields

/-!
# Moving between menus

`Navigate` enters a menu and runs its graph, `Back` returns to the menu before.  Where
there is no such menu the conversation starts over.
-/

namespace Dialogue
namespace Menus

variable {σ : Type}

/-- Enters a menu. -/
def navigate (f : ActionFields σ) : Eval σ Unit := do
  let target ← f.requiredText "target"
  let add ← f.flag "addToBackStack" true
  let unique ← f.flag "uniqueInStack" false
  let params ← f.object "params"
  match f.director.scenario.menuGraph? target with
  | none => f.director.restart
  | some graph => do
    Eval.updateSession fun session =>
      { session with navigation := session.navigation.navigate target add unique }
    f.director.runGraphWithParams graph params

/-- Deletes the last message, if there is one and it can be deleted. -/
def removeLastMessage (d : Director σ) : Eval σ Unit := do
  match ← Eval.ask fun ctx => ctx.session.lastMessage with
  | none => return ()
  | some message => (d.delete message).recover (fun _ => true) fun _ => return ()

/-- Returns to the menu before. -/
def back (f : ActionFields σ) : Eval σ Unit := do
  if ← f.flag "removePreviousMessage" false then removeLastMessage f.director
  let outcome ← Eval.changeSession fun session =>
    let (outcome, navigation) := session.navigation.back
    (outcome, { session with navigation })
  match outcome with
  | .restart => f.director.restart
  | .menu name =>
    match f.director.scenario.menuGraph? name with
    | some graph => f.director.runGraph graph
    | none => f.director.restart

/-- The actions of this module. -/
def actions : List (String × Processor σ) :=
  [Processor.named "Navigate" navigate, Processor.named "Back" back]

end Menus
end Dialogue
