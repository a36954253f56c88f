import Dialogue.Proofs.BackStack
import Dialogue.Proofs.Runs

/-!
# Where a session stands

A session moves among the menus by entering one, by going back and by restarting, at any depth
of a dispatch and also when the dispatch fails later on.  Whatever happened to it, it stands
in a menu that the scenario declares, or in none; the menus behind it are declared as well and
are no more than twenty; and where there is no menu there is nothing to go back to.
-/

namespace Dialogue

/-- The names of the menus of a scenario. -/
def Scenario.menuNames (s : Scenario) : List String := s.menuItems.keys

theorem Scenario.mem_menuNames_of_menuGraph? {s : Scenario} {name : String} {graph : Value}
    (h : s.menuGraph? name = some graph) : name ∈ s.menuNames := by
  obtain ⟨menu, hmenu, -⟩ := Option.map_eq_some_iff.1 h
  exact List.mem_map.2 ⟨(name, menu), Keyed.mem_of_get? hmenu, rfl⟩

namespace Navigation

/-- The stack is within its cap, it and the current menu name menus of the scenario, and
without a current menu the stack is empty. -/
structure Sound (scenario : Scenario) (n : Navigation) : Prop where
  length_le : n.backStack.length ≤ cap
  stack_declared : ∀ name ∈ n.backStack, name ∈ scenario.menuNames
  current_declared : ∀ name, n.currentMenu = some name → name ∈ scenario.menuNames
  stack_empty : n.currentMenu = none → n.backStack = []

variable {scenario : Scenario} {n : Navigation}

theorem mem_of_mem_pushed {stack : List String} {target name : String} {unique : Bool}
    (h : name ∈ pushed stack target unique) : name = target ∨ name ∈ stack := by
  have hkept := (kept_sublist stack target unique).subset
  rw [pushed_eq] at h
  split at h
  · exact .inr (hkept h)
  · -- the cap drops menus from the front, and adds none
    rcases List.mem_append.1 ((capped_suffix _).subset h) with hold | hnew
    · exact .inr (hkept hold)
    · exact .inl (List.mem_singleton.1 hnew)

theorem sound_reset : (n.reset).Sound scenario where
  length_le := Nat.zero_le _
  stack_declared := by simp [reset]
  current_declared := by simp [reset]
  stack_empty _ := rfl

theorem Sound.navigate (h : n.Sound scenario) {target : String} (add unique : Bool)
    (htarget : target ∈ scenario.menuNames) : (n.navigate target add unique).Sound scenario where
  length_le := by
    cases add with
    | false => exact h.length_le
    | true => exact length_pushed_le h.length_le target unique
  stack_declared := by
    intro name hname
    cases add with
    | false => exact h.stack_declared name hname
    | true =>
        rcases mem_of_mem_pushed hname with rfl | hold
        · exact htarget
        · exact h.stack_declared name hold
  current_declared := by
    rintro name ⟨⟩
    exact htarget
  stack_empty := by
    rintro ⟨⟩

/-- A menu behind the current one is a menu of the scenario. -/
theorem Sound.mem_menuNames_of_getLast? (h : n.Sound scenario) {name : String}
    (htop : n.backStack.dropLast.getLast? = some name) : name ∈ scenario.menuNames :=
  h.stack_declared name (List.mem_of_mem_dropLast (List.mem_of_getLast? htop))

/-- Going back leads to a menu of the scenario, if it leads to a menu. -/
theorem Sound.mem_menuNames_of_back (h : n.Sound scenario) {name : String}
    (hback : n.back.1 = .menu name) : name ∈ scenario.menuNames := by
  rcases n.back_cases with ⟨top, htop, hmenu⟩ | ⟨-, hrestart⟩
  · rw [hmenu] at hback
    cases hback
    exact h.mem_menuNames_of_getLast? htop
  · rw [hrestart] at hback
    cases hback

theorem Sound.back (h : n.Sound scenario) : n.back.2.Sound scenario := by
  rcases n.back_cases with ⟨top, htop, hmenu⟩ | ⟨-, hrestart⟩
  · rw [hmenu]
    constructor
    · have hshorter : n.backStack.dropLast.length ≤ n.backStack.length := by simp
      exact Nat.le_trans hshorter h.length_le
    · exact fun name hname => h.stack_declared name (List.mem_of_mem_dropLast hname)
    · rintro name ⟨⟩
      exact h.mem_menuNames_of_getLast? htop
    · rintro ⟨⟩
  · rw [hrestart]
    exact sound_reset (n := n)

theorem Sound.moves (h : n.Sound scenario) {later : Navigation} (hmoves : Moves scenario n later) :
    later.Sound scenario := by
  cases hmoves with
  | reset => exact sound_reset
  | navigate add unique htarget =>
      exact h.navigate add unique (Scenario.mem_menuNames_of_menuGraph? htarget)
  | back => exact h.back

end Navigation

namespace Engine

variable {σ : Type} {e : Engine σ}

/-- The session stands in a menu of the engine's scenario, or in none. -/
def StandsWell (e : Engine σ) (s : Session) : Prop := s.navigation.Sound e.scenario

theorem standsWell_invariant : e.SessionInvariant e.StandsWell where
  fresh _ _ _ := Navigation.sound_reset (n := {})
  touch _ _ h := h
  belongings _ _ _ _ _ h := h
  navigation _ _ hmoves h := h.moves hmoves
  awaiting _ _ h := h

/-- At every point of every run, every live session has at most twenty menus behind it, stands
in a declared menu or in none, has only declared menus behind it, and none where it stands in
none.  The same is kept by every graph, so it holds at every point of a dispatch, too; hence
going back never leads to a menu that is not declared. -/
theorem menus_stay_declared (builtIn : e.BuiltIn) :
    (∀ house, e.Reachable house → ∀ id stored, house.agenda.store.get? id = some stored →
      stored.session.navigation.Sound e.scenario) ∧
    (∀ bound graph, (e.runGraph bound graph).Keeps fun before after =>
      before.All e.StandsWell → after.All e.StandsWell) ∧
    ∀ n : Navigation, n.Sound e.scenario → ∀ name, n.back.1 = .menu name →
      name ∈ e.scenario.menuNames := by
  refine ⟨fun house hhouse id stored hget => ?_, fun bound graph => ?_, fun n hn name hback => ?_⟩
  · exact (hhouse.all_sessions standsWell_invariant builtIn).of_get? hget
  · exact standsWell_invariant.lasting.runGraph builtIn bound graph
  · exact hn.mem_menuNames_of_back hback

/-- A hall to start in, and a yard that a command leads to. -/
def hallAndYard : Scenario where
  startActions := .object [("action", .string "Navigate"), ("target", .string "Hall")]
  menuItems := [("Hall", {}), ("Yard", {})]
  commands := [("/yard", .object [("action", .string "Navigate"), ("target", .string "Yard")])]

/-- After the start and the command. -/
def inTheYard : House Unit :=
  let e := solitary hallAndYard
  let started := (e.handle 4 (e.newHouse ()) (.ofText "s" "/start")).2
  (e.handle 4 started (.ofText "s" "/yard")).2

/-- From the yard one goes back to the hall. -/
theorem yard_leads_back_to_hall :
    (solitary hallAndYard).BuiltIn ∧ (solitary hallAndYard).Reachable inTheYard ∧
      ∃ stored, inTheYard.agenda.store.get? "s" = some stored ∧
        stored.session.navigation = { backStack := ["Hall", "Yard"], currentMenu := some "Yard" } ∧
        stored.session.navigation.Sound hallAndYard ∧ "Hall" ∈ hallAndYard.menuNames := by
  have hreachable : (solitary hallAndYard).Reachable inTheYard :=
    ((reachable_newHouse ()).step (.event 4 _ _)).step (.event 4 _ _)
  have hstands : (inTheYard.agenda.store.get? "s").map (fun stored => stored.session.navigation) =
      some { backStack := ["Hall", "Yard"], currentMenu := some "Yard" } := by
    decide +kernel
  obtain ⟨stored, hget, hnavigation⟩ := Option.map_eq_some_iff.1 hstands
  obtain ⟨hsound, -, hback⟩ := menus_stay_declared (solitary_builtIn hallAndYard)
  have hstored := hsound inTheYard hreachable "s" stored hget
  refine ⟨solitary_builtIn _, hreachable, stored, hget, hnavigation, hstored, ?_⟩
  exact hback _ hstored "Hall" (by rw [hnavigation]; rfl)

end Engine
end Dialogue
