import Dialogue.Json.Decoder
import Dialogue.Json.Printer
import Dialogue.Value.Descriptor

/-!
# Scenarios

A scenario is what an author writes: the graph that starts a conversation, the menus a
user can enter, functions, initial data and the graphs of commands.  A fragment holds
only the four maps.  Fragments are merged into a scenario one after the other, and the
last one that defines a name decides it.
-/

namespace Dialogue

/-- A menu and the graph that runs when it is entered. -/
structure Menu where
  onNavigation : Value := .null

/-- A function of the author: its parameters with their defaults, and the template of
its result. -/
structure ScenarioFunction where
  params : Fields := []
  result : Value := .null

/-- What an author writes. -/
structure Scenario where
  startActions : Value := .null
  menuItems : Keyed Menu := []
  functions : Keyed ScenarioFunction := []
  data : Fields := []
  commands : Keyed Value := []
  modules : List String := []

/-- A part of a scenario that is merged into an entry. -/
structure Fragment where
  menuItems : Keyed Menu := []
  functions : Keyed ScenarioFunction := []
  data : Fields := []
  commands : Keyed Value := []

/-- What is reported about a scenario. -/
structure Summary where
  startActions : Nat
  menus : List String
  functions : List String
  commands : List String
  modules : List String
deriving DecidableEq, Repr

namespace Menu

/-- The written form of a menu. -/
def toValue (m : Menu) : Value :=
  .record [("onNavigation", m.onNavigation)]

/-- Reads a menu. -/
def decoder : Decoder Menu := fun depth d => do
  let r ← Record.open? ["onNavigation"] depth d
  let onNavigation ← r.getD "onNavigation" .null .value
  some { onNavigation }

end Menu

namespace ScenarioFunction

/-- The written form of a function. -/
def toValue (f : ScenarioFunction) : Value :=
  .record [("params", .object f.params), ("result", f.result)]

/-- Reads a function. -/
def decoder : Decoder ScenarioFunction := fun depth d => do
  let r ← Record.open? ["params", "result"] depth d
  let params ← r.getD "params" [] .fields
  let result ← r.getD "result" .null .value
  some { params, result }

end ScenarioFunction

namespace Fragment

/-- Reads a fragment. -/
def decoder : Decoder Fragment := fun depth d => do
  let r ← Record.open? ["menuItems", "functions", "data", "commands"] depth d
  let menuItems ← r.getD "menuItems" [] (.keyed Menu.decoder)
  let functions ← r.getD "functions" [] (.keyed ScenarioFunction.decoder)
  let data ← r.getD "data" [] .fields
  let commands ← r.getD "commands" [] .fields
  some { menuItems, functions, data, commands }

/-- The fragment that a JSON text describes. -/
def read? (text : String) : Option Fragment :=
  Fragment.decoder.ofText? text

end Fragment

namespace Scenario

/-- The names of the fields, in order. -/
def fieldNames : List String :=
  ["startActions", "menuItems", "functions", "data", "commands", "modules"]

/-- The written form of a scenario; an empty list of modules is left out. -/
def toValue (s : Scenario) : Value :=
  .record ([("startActions", s.startActions),
      ("menuItems", .object (s.menuItems.mapValues Menu.toValue)),
      ("functions", .object (s.functions.mapValues ScenarioFunction.toValue)),
      ("data", .object s.data),
      ("commands", .object s.commands)] ++
    if s.modules.isEmpty then [] else [("modules", .ofTexts s.modules)])

/-- Reads a scenario. -/
def decoder : Decoder Scenario := fun depth d => do
  let r ← Record.open? fieldNames depth d
  let startActions ← r.getD "startActions" .null .value
  let menuItems ← r.getD "menuItems" [] (.keyed Menu.decoder)
  let functions ← r.getD "functions" [] (.keyed ScenarioFunction.decoder)
  let data ← r.getD "data" [] .fields
  let commands ← r.getD "commands" [] .fields
  let modules ← r.getD "modules" [] (.list .text)
  some { startActions, menuItems, functions, data, commands, modules }

/-- The scenario that a JSON text describes. -/
def read? (text : String) : Option Scenario :=
  Scenario.decoder.ofText? text

/-- Merges a fragment; its entries replace those of the scenario. -/
def merge (s : Scenario) (f : Fragment) : Scenario :=
  { s with
    menuItems := s.menuItems.overlay f.menuItems
    functions := s.functions.overlay f.functions
    data := s.data.overlay f.data
    commands := s.commands.overlay f.commands }

/-- The graph of a menu. -/
def menuGraph? (s : Scenario) (name : String) : Option Value :=
  (s.menuItems.get? name).map Menu.onNavigation

/-- The graph of a command. -/
def commandGraph? (s : Scenario) (command : String) : Option Value :=
  s.commands.get? command

/-- What is reported about a scenario. -/
def summary (s : Scenario) : Summary where
  startActions := s.startActions.graphItems.length
  menus := s.menuItems.keys
  functions := s.functions.keys
  commands := s.commands.keys
  modules := s.modules

/-- Null, or a list of descriptors, or one descriptor. -/
def isGraph (graph : Value) : Bool :=
  match graph with
  | .null => true
  | .object _ | .array _ => graph.graphItems.all fun item => item.isAction || item.isFunction
  | _ => false

/-- The graphs of a scenario with the places where they stand, in the order in which
they are checked. -/
def graphs (s : Scenario) : List (String × Value) :=
  ("startActions", s.startActions) ::
    (s.menuItems.map fun (name, menu) =>
      ("menuItems." ++ name ++ ".onNavigation", menu.onNavigation)) ++
    (s.commands.map fun (command, graph) => ("commands." ++ command, graph))

/-- The place of the first graph that is not well formed. -/
def malformedGraph? (s : Scenario) : Option String :=
  (s.graphs.find? fun (_, graph) => !isGraph graph).map Prod.fst

end Scenario

namespace Summary

/-- The fields of a summary in the order in which they are reported. -/
def fields (s : Summary) : List (String × Value) :=
  [("startActions", .ofNat s.startActions), ("menus", .ofTexts s.menus),
    ("functions", .ofTexts s.functions), ("commands", .ofTexts s.commands),
    ("modules", .ofTexts s.modules)]

/-- One line of JSON with the fields in report order. -/
def compact (s : Summary) : String :=
  Value.compact (.object s.fields)

end Summary
end Dialogue
