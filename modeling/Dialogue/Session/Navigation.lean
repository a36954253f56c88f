import Dialogue.Json.Decoder

/-!
# Navigation

Where a session stands among the menus: the menu it is in and the stack of menus that
`back` returns through.  An entry that is added pushes out all but the twenty most recent.
-/

namespace Dialogue

/-- The menu a session is in, and the menus behind it, oldest first. -/
structure Navigation where
  backStack : List String := []
  currentMenu : Option String := none
deriving DecidableEq, Repr

/-- What going back led to. -/
inductive BackOutcome where
  | menu (name : String)
  | restart
deriving DecidableEq, Repr

namespace Navigation

/-- The number of entries that adding one leaves at most. -/
def cap : Nat := 20

/-- The most recent entries of a stack. -/
def capped (stack : List String) : List String :=
  stack.drop (stack.length - cap)

/-- The stack with `target` on top.  Where entries are to be unique, earlier ones are
removed first.  A target that is on top already is not repeated, and the stack is then
left as it is; a new entry pushes out the oldest beyond the cap. -/
def pushed (stack : List String) (target : String) (unique : Bool) : List String :=
  let stack := if unique then stack.filter (· != target) else stack
  if stack.getLast? = some target then stack else capped (stack ++ [target])

/-- Enters a menu. -/
def navigate (n : Navigation) (target : String) (add unique : Bool) : Navigation where
  backStack := if add then pushed n.backStack target unique else n.backStack
  currentMenu := some target

/-- Leaves every menu. -/
def reset (_ : Navigation) : Navigation := {}

/-- Drops the top of the stack and returns to the entry below it. -/
def back (n : Navigation) : BackOutcome × Navigation :=
  let stack := n.backStack.dropLast
  match stack.getLast? with
  | some top => (.menu top, { backStack := stack, currentMenu := some top })
  | none => (.restart, n.reset)

/-- The written form. -/
def toValue (n : Navigation) : Value :=
  .record [("backStack", .ofTexts n.backStack), ("currentMenu", .ofText? n.currentMenu)]

/-- Reads a navigation.  The current menu may be missing from an object, but not from an
array of the fields. -/
def decoder : Decoder Navigation := fun depth d => do
  let r ← Record.open? ["backStack", "currentMenu"] depth d
  let backStack ← r.required "backStack" (.list .text)
  let currentMenu ←
    if r.positional then r.required "currentMenu" (.nullable .text)
    else r.getD "currentMenu" none (.nullable .text)
  some { backStack, currentMenu }

theorem length_capped (stack : List String) : (capped stack).length ≤ cap := by
  simp only [capped, List.length_drop]
  omega

theorem capped_suffix (stack : List String) : capped stack <:+ stack :=
  List.drop_suffix _ _

end Navigation
end Dialogue
