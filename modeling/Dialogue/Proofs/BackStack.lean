import Mathlib
import Dialogue.Session.Navigation

/-!
# Moves among the menus

A session enters menus, goes back and starts over, in any order and with any flags.  This module
follows such moves from the navigation of a new session (`Navigation.run`).

A menu that is on top is not put on top again, so it looks as if neighbours in the stack could
never be equal.  They can be: where entries are to be unique, a menu is taken out from further
down, and what stood on both sides of it comes together.  `Navigation.Joins` is a move that does
so between two equal entries, and there is no other way (`Navigation.neighboursDiffer_after_iff`).

The cap is compared with a second machine that never pushes anything out (`Lockstep`).  The last
twenty entries of its stack are not what the first machine has, since an entry that was pushed
out does not come back when others are popped.  What is kept is less: the stack of the first is
a suffix of the stack of the second, and is empty only if that one is (`Lockstep.Tracks`).
-/

namespace Dialogue
namespace Navigation

/-- A move among the menus. -/
inductive Move where
  | navigate (target : String) (add unique : Bool)
  | back
  | reset
deriving DecidableEq, Repr

/-- The navigation after a move. -/
def after (n : Navigation) : Move → Navigation
  | .navigate target add unique => n.navigate target add unique
  | .back => n.back.2
  | .reset => n.reset

/-- The navigation of a new session after moves, one after the other. -/
def run (moves : List Move) : Navigation := moves.foldl after {}

theorem run_concat (moves : List Move) (move : Move) :
    run (moves ++ [move]) = (run moves).after move :=
  List.foldl_append

/-- The entries that stay when a menu is put on top. -/
def kept (stack : List String) (target : String) (unique : Bool) : List String :=
  if unique then stack.filter (· != target) else stack

theorem pushed_eq (stack : List String) (target : String) (unique : Bool) :
    pushed stack target unique =
      if (kept stack target unique).getLast? = some target then kept stack target unique
      else capped (kept stack target unique ++ [target]) := rfl

theorem kept_sublist (stack : List String) (target : String) (unique : Bool) :
    (kept stack target unique).Sublist stack := by
  unfold kept
  split
  · exact List.filter_sublist
  · exact List.Sublist.refl _

theorem length_pushed_le {stack : List String} (h : stack.length ≤ cap) (target : String)
    (unique : Bool) : (pushed stack target unique).length ≤ cap := by
  rw [pushed_eq]
  split
  · exact Nat.le_trans (kept_sublist stack target unique).length_le h
  · exact length_capped _

/-- Going back to a menu leaves a stack with the menu on top. -/
theorem back_cases (n : Navigation) :
    (∃ name, n.backStack.dropLast.getLast? = some name ∧
      n.back = (.menu name, { backStack := n.backStack.dropLast, currentMenu := some name })) ∨
    n.backStack.dropLast = [] ∧ n.back = (.restart, {}) := by
  unfold back
  dsimp only
  cases htop : n.backStack.dropLast.getLast? with
  | some name => exact .inl ⟨name, rfl, rfl⟩
  | none => exact .inr ⟨List.getLast?_eq_none_iff.1 htop, rfl⟩

theorem length_after_le {n : Navigation} (h : n.backStack.length ≤ cap) (move : Move) :
    (n.after move).backStack.length ≤ cap := by
  cases move with
  | navigate target add unique =>
      cases add with
      | false => exact h
      | true => exact length_pushed_le h target unique
  | back =>
      rcases n.back_cases with ⟨name, -, hback⟩ | ⟨-, hback⟩
      · have hshorter : n.backStack.dropLast.length ≤ n.backStack.length := by simp
        simpa only [after, hback] using Nat.le_trans hshorter h
      · simp [after, hback]
  | reset => exact Nat.zero_le _

theorem length_run_le (moves : List Move) : (run moves).backStack.length ≤ cap := by
  induction moves using List.reverseRecOn with
  | nil => exact Nat.zero_le _
  | append_singleton moves move ih =>
      rw [run_concat]
      exact length_after_le ih move

/-! ## Neighbours -/

/-- No two neighbours in the stack are equal. -/
def NeighboursDiffer (n : Navigation) : Prop := n.backStack.IsChain (· ≠ ·)

/-- The move takes a menu out of the stack from between two equal entries. -/
def Joins (n : Navigation) : Move → Prop
  | .navigate target add unique =>
    add = true ∧ unique = true ∧ ∃ name, [name, target, name] <:+: n.backStack
  | _ => False

/-- Wherever the move adds a menu to the stack, its `uniqueInStack` flag is the given one. -/
def Move.IsUniform (flag : Bool) : Move → Prop
  | .navigate _ add unique => add = true → unique = flag
  | _ => True

/-- Taking a menu out brings equal entries together just where it stood between them. -/
theorem isChain_filter_iff {stack : List String} (h : stack.IsChain (· ≠ ·)) (target : String) :
    (stack.filter (· != target)).IsChain (· ≠ ·) ↔
      ¬ ∃ name, [name, target, name] <:+: stack := by
  constructor
  · rintro hchain ⟨name, before, behind, rfl⟩
    have hne : name ≠ target := by
      have hpart := (List.isChain_append.1 (List.isChain_append.1 h).1).2.1
      exact (List.isChain_cons_cons.1 hpart).1
    have hpair : [name, name] <:+: (before ++ [name, target, name] ++ behind).filter
        (· != target) :=
      ⟨before.filter (· != target), behind.filter (· != target), by simp [hne]⟩
    have hequal := List.IsChain.infix hchain hpair
    exact (List.isChain_cons_cons.1 hequal).1 rfl
  · intro hapart
    induction stack with
    | nil => exact List.isChain_nil
    | cons name rest ih =>
        obtain ⟨hhead, hrest⟩ := List.isChain_cons.1 h
        have hfiltered := ih hrest fun ⟨other, hinfix⟩ =>
          hapart ⟨other, hinfix.trans (List.suffix_cons name rest).isInfix⟩
        by_cases hname : name = target
        · simpa [hname] using hfiltered
        · have hkeep : (name != target) = true := by simpa using hname
          rw [List.filter_cons, if_pos hkeep]
          refine List.isChain_cons.2 ⟨?_, hfiltered⟩
          -- behind the entry comes the next one, or the one after it if that is taken out
          match rest with
          | [] => simp
          | [second] =>
              by_cases hsecond : second = target
              · simp [hsecond]
              · simpa [hsecond] using hhead
          | second :: third :: rest =>
              by_cases hsecond : second = target
              · subst hsecond
                have hthird : third ≠ second := (List.isChain_cons_cons.1 hrest).1.symm
                have hne : name ≠ third := by
                  rintro rfl
                  exact hapart ⟨name, [], rest, rfl⟩
                simpa [hthird] using hne
              · simpa [hsecond] using hhead

theorem neighboursDiffer_back {n : Navigation} (h : n.NeighboursDiffer) :
    n.back.2.NeighboursDiffer := by
  rcases n.back_cases with ⟨name, -, hback⟩ | ⟨-, hback⟩
  · simpa only [NeighboursDiffer, hback] using List.IsChain.dropLast h
  · simp [NeighboursDiffer, hback]

/-- Putting a menu on top of a stack without equal neighbours, from which nothing was taken. -/
theorem isChain_pushed_of_not_unique {stack : List String} (h : stack.IsChain (· ≠ ·))
    (target : String) : (pushed stack target false).IsChain (· ≠ ·) := by
  rw [pushed_eq]
  split
  · exact h
  · rename_i htop
    refine List.IsChain.suffix ?_ (capped_suffix _)
    refine List.isChain_append.2 ⟨h, List.isChain_singleton _, ?_⟩
    rintro top hmem _ ⟨⟩ rfl
    exact htop hmem

/-- Putting a menu on top after it was taken out.  Nothing is pushed out in this case if
anything was taken out. -/
theorem isChain_pushed_of_unique {stack : List String} (h : stack.IsChain (· ≠ ·))
    (hlength : stack.length ≤ cap) (target : String) :
    (pushed stack target true).IsChain (· ≠ ·) ↔ ¬ ∃ name, [name, target, name] <:+: stack := by
  have habsent : target ∉ stack.filter (· != target) := by simp
  have htop : (kept stack target true).getLast? ≠ some target :=
    fun hlast => habsent (List.mem_of_getLast? hlast)
  rw [pushed_eq, if_neg htop, ← isChain_filter_iff h]
  have hjoined : (stack.filter (· != target) ++ [target]).IsChain (· ≠ ·) ↔
      (stack.filter (· != target)).IsChain (· ≠ ·) := by
    refine ⟨fun hchain => (List.isChain_append.1 hchain).1, fun hchain => ?_⟩
    refine List.isChain_append.2 ⟨hchain, List.isChain_singleton _, ?_⟩
    rintro top hmem _ ⟨⟩ rfl
    exact htop hmem
  by_cases hmem : target ∈ stack
  · have hshorter : (stack.filter (· != target)).length < stack.length :=
      List.length_filter_lt_length_iff_exists.2 ⟨target, hmem, by simp⟩
    have hwhole : capped (kept stack target true ++ [target]) =
        stack.filter (· != target) ++ [target] := by
      have hroom : (stack.filter (· != target)).length + 1 - cap = 0 := by omega
      simp [capped, kept, hroom]
    rw [hwhole, hjoined]
  · have hsame : stack.filter (· != target) = stack :=
      List.filter_eq_self.2 fun name hname => by
        simpa using fun heq : name = target => hmem (heq ▸ hname)
    rw [hsame] at hjoined ⊢
    refine iff_of_true ?_ h
    have hkept : kept stack target true = stack := hsame
    rw [hkept]
    exact (hjoined.2 h).suffix (capped_suffix _)

/-- Neighbours that differ go on to do so, unless a move joins two equal entries. -/
theorem neighboursDiffer_after_iff {n : Navigation} (h : n.NeighboursDiffer)
    (hlength : n.backStack.length ≤ cap) (move : Move) :
    (n.after move).NeighboursDiffer ↔ ¬ n.Joins move := by
  cases move with
  | navigate target add unique =>
      cases add with
      | false => exact iff_of_true h fun hjoins => by cases hjoins.1
      | true =>
          cases unique with
          | false =>
              exact iff_of_true (isChain_pushed_of_not_unique h target) fun hjoins => by
                cases hjoins.2.1
          | true =>
              have hpushed := isChain_pushed_of_unique h hlength target
              exact hpushed.trans (not_congr (by simp [Joins]))
  | back => exact iff_of_true (neighboursDiffer_back h) fun hjoins => hjoins
  | reset => exact iff_of_true List.isChain_nil fun hjoins => hjoins

/-- From neighbours that differ, going back to a menu leaves the menu that was on top. -/
theorem NeighboursDiffer.leaves_top {n : Navigation} (h : n.NeighboursDiffer) {name : String}
    (hback : n.back.1 = .menu name) : n.backStack.getLast? ≠ some name := by
  rcases n.back_cases with ⟨other, hbelow, hother⟩ | ⟨-, hrestart⟩
  · rw [hother] at hback
    cases hback
    intro htop
    -- the menu would be on top and right below it
    obtain ⟨lower, hlower⟩ := List.getLast?_eq_some_iff.1 hbelow
    have hstack : lower ++ [name, name] = n.backStack := by
      have hwhole := List.dropLast_append_getLast? name htop
      rw [hlower] at hwhole
      simpa using hwhole
    have hpair : [name, name] <:+: n.backStack := ⟨lower, [], by simpa using hstack⟩
    have hequal := List.IsChain.infix h hpair
    exact (List.isChain_cons_cons.1 hequal).1 rfl
  · rw [hrestart] at hback
    cases hback

/-- Where every menu that is added is unique, no menu is in the stack twice. -/
theorem nodup_after {n : Navigation} (h : n.backStack.Nodup) {move : Move}
    (huniform : move.IsUniform true) : (n.after move).backStack.Nodup := by
  cases move with
  | navigate target add unique =>
      cases add with
      | false => exact h
      | true =>
          obtain rfl : unique = true := huniform rfl
          change (pushed n.backStack target true).Nodup
          rw [pushed_eq]
          have hkept : (kept n.backStack target true).Nodup :=
            h.sublist (kept_sublist n.backStack target true)
          split
          · exact hkept
          · have hnew : target ∉ kept n.backStack target true := by simp [kept]
            have hadded : (kept n.backStack target true ++ [target]).Nodup :=
              hkept.append (List.nodup_singleton _) (by simpa using hnew)
            exact hadded.sublist (capped_suffix _).sublist
  | back =>
      rcases n.back_cases with ⟨name, -, hback⟩ | ⟨-, hback⟩
      · simpa only [after, hback] using h.sublist (List.dropLast_sublist _)
      · simp [after, hback]
  | reset => exact List.nodup_nil

/-- If either all menus that are added are unique or none is, neighbours always differ. -/
theorem neighboursDiffer_of_uniform (flag : Bool) {moves : List Move}
    (huniform : ∀ move ∈ moves, move.IsUniform flag) : (run moves).NeighboursDiffer := by
  cases flag with
  | true =>
      have hnodup : (run moves).backStack.Nodup := by
        induction moves using List.reverseRecOn with
        | nil => exact List.nodup_nil
        | append_singleton moves move ih =>
            rw [run_concat]
            exact nodup_after (ih fun other hother => huniform other (by simp [hother]))
              (huniform move (by simp))
      exact List.Pairwise.isChain hnodup
  | false =>
      induction moves using List.reverseRecOn with
      | nil => exact List.isChain_nil
      | append_singleton moves move ih =>
          have hearlier := ih fun other hother => huniform other (by simp [hother])
          have hlast := huniform move (by simp)
          rw [run_concat, neighboursDiffer_after_iff hearlier (length_run_le moves)]
          cases move with
          | navigate target add unique =>
              rintro ⟨hadd, hunique, -⟩
              rw [hlast hadd] at hunique
              cases hunique
          | _ => exact fun hjoins => hjoins

/-- All along a sequence of moves neighbours in the stack differ, if and only if no move takes a
menu out from between two equal entries.  Then going back to a menu always leaves the menu that
was on top.  No move joins entries if menus are always added as unique ones, or never. -/
theorem neighbours_differ_unless_joined (moves : List Move) :
    ((∀ past, past <+: moves → (run past).NeighboursDiffer) ↔
      ∀ past move, past ++ [move] <+: moves → ¬ (run past).Joins move) ∧
    ((run moves).NeighboursDiffer → ∀ name, (run moves).back.1 = .menu name →
      (run moves).backStack.getLast? ≠ some name) ∧
    ∀ flag, (∀ move ∈ moves, move.IsUniform flag) → (run moves).NeighboursDiffer := by
  refine ⟨⟨fun hdiffer past move hpast => ?_, fun hapart past hpast => ?_⟩,
    fun hdiffer name hback => hdiffer.leaves_top hback,
    fun flag huniform => neighboursDiffer_of_uniform flag huniform⟩
  · have hbefore := hdiffer past ((List.prefix_append past [move]).trans hpast)
    have hafter := hdiffer (past ++ [move]) hpast
    rw [run_concat] at hafter
    exact (neighboursDiffer_after_iff hbefore (length_run_le past) move).1 hafter
  · -- one move after the other
    induction past using List.reverseRecOn with
    | nil => exact List.isChain_nil
    | append_singleton past move ih =>
        have hbefore := ih ((List.prefix_append past [move]).trans hpast)
        rw [run_concat, neighboursDiffer_after_iff hbefore (length_run_le past)]
        exact hapart past move hpast

/-- From the hall to the yard and back to the hall, by going there. -/
def aroundTheYard : List Move :=
  [.navigate "Hall" true false, .navigate "Yard" true false, .navigate "Hall" true false]

/-- Going back leaves the hall for the yard. -/
theorem back_from_hall_leads_to_yard :
    (run aroundTheYard).NeighboursDiffer ∧ (run aroundTheYard).back.1 = .menu "Yard" ∧
      (run aroundTheYard).backStack.getLast? ≠ some "Yard" := by
  obtain ⟨-, hleaves, huniform⟩ := neighbours_differ_unless_joined aroundTheYard
  have hdiffer : (run aroundTheYard).NeighboursDiffer :=
    huniform false (by simp [aroundTheYard, Move.IsUniform])
  have hback : (run aroundTheYard).back.1 = .menu "Yard" := by decide
  exact ⟨hdiffer, hback, hleaves hdiffer "Yard" hback⟩

/-- Entering the yard again as a unique menu takes it out from between the two halls, which then
are neighbours.  Going back twice leads from the hall to the hall. -/
theorem unique_menu_joins_equal_entries :
    let joined := aroundTheYard ++ [.navigate "Yard" true true]
    ¬ (run joined).NeighboursDiffer ∧
      (run (joined ++ [.back])).backStack.getLast? = some "Hall" ∧
      (run (joined ++ [.back])).back.1 = .menu "Hall" := by
  refine ⟨fun hdiffer => ?_, by decide, by decide⟩
  have hstack : (run (aroundTheYard ++ [.navigate "Yard" true true])).backStack =
      ["Hall", "Hall", "Yard"] := by decide
  rw [NeighboursDiffer, hstack] at hdiffer
  exact (List.isChain_cons_cons.1 hdiffer).1 rfl

/-! ## The cap -/

/-- The stack with `target` on top, where nothing is pushed out. -/
def heaped (stack : List String) (target : String) (unique : Bool) : List String :=
  if (kept stack target unique).getLast? = some target then kept stack target unique
  else kept stack target unique ++ [target]

/-- Enters a menu, and pushes nothing out. -/
def navigateUncapped (n : Navigation) (target : String) (add unique : Bool) : Navigation where
  backStack := if add then heaped n.backStack target unique else n.backStack
  currentMenu := some target

/-- A navigation, and one that pushes nothing out. -/
structure Lockstep where
  real : Navigation := {}
  uncapped : Navigation := {}

namespace Lockstep

/-- Both make a move.  The second follows the same rules but for the cap, and starts over
whenever the first does. -/
def after (l : Lockstep) (move : Move) : Lockstep where
  real := l.real.after move
  uncapped := match move with
    | .navigate target add unique => l.uncapped.navigateUncapped target add unique
    | .back => if l.real.back.1 = .restart then l.uncapped.reset else l.uncapped.back.2
    | .reset => l.uncapped.reset

/-- Both make the same moves, from the navigation of a new session. -/
def run (moves : List Move) : Lockstep := moves.foldl after {}

theorem run_concat (moves : List Move) (move : Move) :
    run (moves ++ [move]) = (run moves).after move :=
  List.foldl_append

/-- The second does not disturb the first. -/
theorem real_run (moves : List Move) : (run moves).real = Navigation.run moves := by
  induction moves using List.reverseRecOn with
  | nil => rfl
  | append_singleton moves move ih =>
      rw [run_concat, Navigation.run_concat, ← ih]
      rfl

/-- What connects the two. -/
structure Tracks (l : Lockstep) : Prop where
  suffix : l.real.backStack <:+ l.uncapped.backStack
  current : l.real.currentMenu = l.uncapped.currentMenu
  empty : l.real.backStack = [] → l.uncapped.backStack = []

end Lockstep

theorem getLast?_of_suffix {short long : List String} (h : short <:+ long) (hne : short ≠ []) :
    long.getLast? = short.getLast? := by
  obtain ⟨before, rfl⟩ := h
  rw [List.getLast?_append, Option.or_of_isSome (by simpa using hne)]

theorem kept_suffix {short long : List String} (h : short <:+ long) (target : String)
    (unique : Bool) : kept short target unique <:+ kept long target unique := by
  unfold kept
  split
  · exact h.filter _
  · exact h

/-- What is put on top of a suffix is a suffix of what is put on top of the whole. -/
theorem pushed_suffix_heaped {short long : List String} (h : short <:+ long) (target : String)
    (unique : Bool) : pushed short target unique <:+ heaped long target unique := by
  have hkept := kept_suffix h target unique
  rw [pushed_eq, heaped]
  generalize kept short target unique = low at hkept ⊢
  generalize kept long target unique = high at hkept ⊢
  by_cases hlow : low = []
  · -- the new entry is alone, and is on top of the other stack in any case
    subst hlow
    have halone : capped ([] ++ [target]) = [target] := rfl
    rw [if_neg (by simp), halone]
    split
    · rename_i htop
      obtain ⟨below, rfl⟩ := List.getLast?_eq_some_iff.1 htop
      exact List.suffix_append below [target]
    · exact List.suffix_append high [target]
  · rw [getLast?_of_suffix hkept hlow]
    split
    · exact hkept
    · exact (capped_suffix _).trans (List.suffix_append_self_iff.2 hkept)

theorem pushed_ne_nil (stack : List String) (target : String) (unique : Bool) :
    pushed stack target unique ≠ [] := by
  rw [pushed_eq]
  split
  · rename_i htop
    rintro hnil
    rw [hnil] at htop
    cases htop
  · intro hnil
    have hlength := congrArg List.length hnil
    simp only [capped, cap, List.length_drop, List.length_append, List.length_singleton,
      List.length_nil] at hlength
    omega

namespace Lockstep

variable {l : Lockstep}

/-- Where the first goes back to a menu, the second goes back to the same menu. -/
theorem Tracks.back (h : l.Tracks) {name : String}
    (hname : l.real.backStack.dropLast.getLast? = some name) :
    l.uncapped.back =
      (.menu name, { backStack := l.uncapped.backStack.dropLast, currentMenu := some name }) ∧
    l.real.backStack.dropLast <:+ l.uncapped.backStack.dropLast := by
  have hne : l.real.backStack.dropLast ≠ [] := by
    intro hnil
    rw [hnil] at hname
    cases hname
  have hsuffix : l.real.backStack.dropLast <:+ l.uncapped.backStack.dropLast := by
    obtain ⟨before, hbefore⟩ := h.suffix
    have hstack : l.real.backStack ≠ [] := fun hnil => hne (by rw [hnil]; rfl)
    rw [← hbefore, List.dropLast_append_of_ne_nil hstack]
    exact List.suffix_append before _
  have hlast := (getLast?_of_suffix hsuffix hne).trans hname
  refine ⟨?_, hsuffix⟩
  simp only [Navigation.back, hlast]

theorem Tracks.after (h : l.Tracks) (move : Move) : (l.after move).Tracks := by
  cases move with
  | navigate target add unique =>
      cases add with
      | false => exact ⟨h.suffix, rfl, h.empty⟩
      | true =>
          exact ⟨pushed_suffix_heaped h.suffix target unique, rfl,
            fun hnil => absurd hnil (pushed_ne_nil _ target unique)⟩
  | back =>
      rcases l.real.back_cases with ⟨name, hname, hreal⟩ | ⟨-, hreal⟩
      · obtain ⟨huncapped, hsuffix⟩ := h.back hname
        have hafter : l.after .back =
            { real := { backStack := l.real.backStack.dropLast, currentMenu := some name }
              uncapped :=
                { backStack := l.uncapped.backStack.dropLast, currentMenu := some name } } := by
          simp [Lockstep.after, Navigation.after, hreal, huncapped]
        rw [hafter]
        refine ⟨hsuffix, rfl, fun hnil => ?_⟩
        rw [show l.real.backStack.dropLast = [] from hnil] at hname
        cases hname
      · have hafter : l.after .back = {} := by
          simp [Lockstep.after, Navigation.after, hreal, reset]
        rw [hafter]
        exact ⟨List.suffix_refl _, rfl, fun _ => rfl⟩
  | reset => exact ⟨List.suffix_refl _, rfl, fun _ => rfl⟩

theorem tracks_run (moves : List Move) : (run moves).Tracks := by
  induction moves using List.reverseRecOn with
  | nil => exact ⟨List.suffix_refl _, rfl, fun _ => rfl⟩
  | append_singleton moves move ih =>
      rw [run_concat]
      exact ih.after move

end Lockstep

/-- After any moves the stack has at most twenty entries, and is a suffix of what it were without
the cap; the current menu is the same.  Where going back leads to a menu it leads to the same
menu without the cap.  So the cap shows in one way only: when a single entry is left, going back
starts over, although without the cap there would be a menu to go back to. -/
theorem cap_shows_as_restart (moves : List Move) :
    let l := Lockstep.run moves
    l.real = run moves ∧ l.real.backStack.length ≤ 20 ∧
    l.real.backStack <:+ l.uncapped.backStack ∧
    l.real.currentMenu = l.uncapped.currentMenu ∧
    (∀ name, l.real.back.1 = .menu name → l.uncapped.back.1 = .menu name) ∧
    (l.real.back.1 ≠ l.uncapped.back.1 → l.real.back.1 = .restart ∧
      l.real.backStack.length = 1 ∧ 1 < l.uncapped.backStack.length) := by
  intro l
  have htracks : l.Tracks := Lockstep.tracks_run moves
  have hmenu : ∀ name, l.real.back.1 = .menu name → l.uncapped.back.1 = .menu name := by
    intro name hname
    rcases l.real.back_cases with ⟨other, hother, hback⟩ | ⟨-, hback⟩
    · rw [hback] at hname
      cases hname
      rw [(htracks.back hother).1]
    · rw [hback] at hname
      cases hname
  refine ⟨Lockstep.real_run moves, ?_, htracks.suffix, htracks.current, hmenu, fun hne => ?_⟩
  · have hlength := length_run_le moves
    rw [← Lockstep.real_run moves] at hlength
    exact hlength
  · rcases l.real.back_cases with ⟨name, -, hback⟩ | ⟨hdropped, hback⟩
    · have hreal : l.real.back.1 = .menu name := by rw [hback]
      exact absurd (hreal.trans (hmenu name hreal).symm) hne
    · have hrestart : l.real.back.1 = .restart := by rw [hback]
      rcases l.uncapped.back_cases with ⟨name, hname, -⟩ | ⟨-, huncapped⟩
      · have hlong : 1 < l.uncapped.backStack.length := by
          have hpositive := List.length_pos_of_mem (List.mem_of_getLast? hname)
          rw [List.length_dropLast] at hpositive
          omega
        have hshort : l.real.backStack.length ≤ 1 := by
          have hzero := congrArg List.length hdropped
          simp only [List.length_dropLast, List.length_nil] at hzero
          omega
        have hnonempty : l.real.backStack.length ≠ 0 := by
          intro hzero
          rw [htracks.empty (List.length_eq_zero_iff.1 hzero)] at hlong
          cases hlong
        exact ⟨hrestart, by omega, hlong⟩
      · rw [hrestart, huncapped] at hne
        exact absurd rfl hne

-- the first of twenty-one menus was pushed out, and is missed after twenty steps back
example :
    let menus := (List.range 21).map fun n => Move.navigate n.repr true false
    let l := Lockstep.run (menus ++ List.replicate 19 .back)
    l.real.backStack = ["1"] ∧ l.real.back.1 = .restart ∧
      l.uncapped.backStack = ["0", "1"] ∧ l.uncapped.back.1 = .menu "0" := by
  decide +kernel

end Navigation
end Dialogue
