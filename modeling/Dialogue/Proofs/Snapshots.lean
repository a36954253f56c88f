import Dialogue.Engine.Variables
import Dialogue.Proofs.Interpolation
import Dialogue.Proofs.PathLaws

/-!
# Snapshots of places

The bare name of a place stands for everything in it, and a path below the name for one value.
Parameters and the environment are single maps, so that the path finds in the place what is found
in the snapshot.  Data is made of two maps.  A path is looked for in the session's data and then in
the scenario's, while the snapshot has the session's entry for every name that it has; so a path
can lead past an entry of the session that hides it in the snapshot (`Fields.Hides`).
`Engine.snapshots_agree_unless_hidden` says that this is the only difference.
-/

namespace Dialogue

namespace Fields

variable {front back : Fields} {path : Path}

/-- One map hides what another one holds at a path: it has an entry for the first name of the path,
and below it nothing at the path. -/
def Hides (front back : Fields) (path : Path) : Prop :=
  (∃ name ∈ path.head?, front.has name) ∧ front.at? path = none ∧ back.at? path ≠ none

instance (front back : Fields) (path : Path) : Decidable (front.Hides back path) :=
  inferInstanceAs (Decidable ((∃ name ∈ path.head?, _) ∧ _))

/-- A path below an object is a path below its fields. -/
theorem at?_object (fields : Fields) (hpath : path ≠ []) :
    (Value.object fields).at? path = fields.at? path := by
  obtain ⟨name, rest, rfl⟩ := List.exists_cons_of_ne_nil hpath
  rfl

/-- What is read in overlaid maps is read in the one that counts for the first name of the path. -/
theorem at?_overlay (hfront : Keyed.Ordered front) (back : Fields) (name : String) (rest : Path) :
    at? (back.overlay front) (name :: rest) =
      if front.has name then front.at? (name :: rest) else back.at? (name :: rest) := by
  rw [at?, at?, at?, Keyed.has, Keyed.get?_overlay hfront back name]
  cases hname : front.get? name <;> simp

/-- Overlaid maps hold what is found in one of them after the other, unless it is hidden. -/
theorem or_eq_at?_overlay_iff (hfront : Keyed.Ordered front) (hpath : path ≠ []) :
    (front.at? path).or (back.at? path) = at? (back.overlay front) path ↔
      ¬ front.Hides back path := by
  obtain ⟨name, rest, rfl⟩ := List.exists_cons_of_ne_nil hpath
  rw [at?_overlay hfront, Hides]
  by_cases hname : front.has name
  · -- then nothing of the map behind is left under the name
    cases hfound : front.at? (name :: rest) with
    | none => simp [hname]
    | some v => simp [hname]
  · have hnone : front.at? (name :: rest) = none := by
      rw [Keyed.has, Option.not_isSome_iff_eq_none] at hname
      rw [at?, hname]
      rfl
    simp [hname, hnone]

end Fields

namespace Place

/-- The word for a place. -/
def name : Place → String
  | .locals => "local"
  | .params => "params"
  | .data => "data"
  | .env => "env"

theorem ofSegment?_name (place : Place) : ofSegment? place.name = some place := by
  cases place <;> rfl

theorem parse_name (place : Place) : Path.parse place.name = [place.name] := by
  cases place <;> decide

/-- Below the word for a place a path begins with that word. -/
theorem parse_below (place : Place) (text : String) :
    Path.parse (place.name ++ "." ++ text) = place.name :: Path.parse text := by
  have hword : ∀ c ∈ place.name.toList, (c == '.') = false := by
    cases place <;> simp [name]
  have hcut : Text.cutAt (· == '.') (place.name ++ "." ++ text).toList =
      [place.name.toList] ++ Text.cutAt (· == '.') text.toList := by
    rw [String.toList_append, String.toList_append, List.append_assoc]
    exact Text.cutAt_append hword (beq_self_eq_true '.') text.toList
  have hnamed : Path.named [place.name.toList] = [place.name] := by
    cases place <;> decide
  calc Path.parse (place.name ++ "." ++ text)
      = Path.named (Text.cutAt (· == '.') (place.name ++ "." ++ text).toList) := rfl
    _ = Path.named [place.name.toList] ++ Path.parse text := by
      rw [hcut, Path.named_append]
      rfl
    _ = place.name :: Path.parse text := by rw [hnamed]; rfl

end Place

namespace Engine

variable {σ : Type}

theorem lookup_name (e : Engine σ) (ctx : Context σ) (place : Place) :
    e.lookup ctx place.name = e.placeRoot ctx place := by
  rw [lookup, Place.parse_name, lookupPath, Place.ofSegment?_name]
  rfl

theorem lookup_below (e : Engine σ) (ctx : Context σ) (place : Place) {text : String}
    (htext : Path.parse text ≠ []) :
    e.lookup ctx (place.name ++ "." ++ text) = e.lookupIn ctx place (Path.parse text) := by
  rw [lookup, Place.parse_below, lookupPath, Place.ofSegment?_name]
  simp only [List.isEmpty_iff, if_neg htext]

/-- What a path finds below the word for parameters, for the environment or for data is what is
found in everything that the word alone stands for.  For data this is so exactly unless the
session's data hides what the scenario's holds at the path; then the path finds the hidden value,
which is not in the snapshot. -/
theorem snapshots_agree_unless_hidden (e : Engine σ) (ctx : Context σ)
    (hordered : Keyed.Ordered ctx.session.data) (text : String) (htext : Path.parse text ≠ []) :
    (∀ place : Place, place = .params ∨ place = .env →
      e.lookup ctx (place.name ++ "." ++ text) =
        (e.lookup ctx place.name).bind fun snapshot => snapshot.at? (Path.parse text)) ∧
    (e.lookup ctx ("data." ++ text) =
        ((e.lookup ctx "data").bind fun snapshot => snapshot.at? (Path.parse text)) ↔
      ¬ ctx.session.data.Hides e.scenario.data (Path.parse text)) ∧
    (ctx.session.data.Hides e.scenario.data (Path.parse text) →
      e.lookup ctx ("data." ++ text) = e.scenario.data.at? (Path.parse text) ∧
      ((e.lookup ctx "data").bind fun snapshot => snapshot.at? (Path.parse text)) = none) := by
  have hpath : e.lookup ctx ("data." ++ text) =
      (ctx.session.data.at? (Path.parse text)).or (e.scenario.data.at? (Path.parse text)) :=
    lookup_below e ctx .data htext
  have hsnapshot : ((e.lookup ctx "data").bind fun snapshot => snapshot.at? (Path.parse text)) =
      Fields.at? (e.scenario.data.overlay ctx.session.data) (Path.parse text) := by
    rw [show "data" = Place.data.name from rfl, lookup_name]
    exact Fields.at?_object _ htext
  rw [hpath, hsnapshot]
  refine ⟨?_, Fields.or_eq_at?_overlay_iff hordered htext, ?_⟩
  · rintro place (rfl | rfl) <;> rw [lookup_below e ctx _ htext, lookup_name] <;>
      exact (Fields.at?_object _ htext).symm
  · rintro ⟨⟨name, hname, hhas⟩, hnone, -⟩
    obtain ⟨rest, hrest⟩ := List.head?_eq_some_iff.1 hname
    rw [hrest] at hnone ⊢
    rw [Fields.at?_overlay hordered, if_pos hhas, hnone]
    exact ⟨rfl, rfl⟩

/-- A scenario that knows the title of its shop. -/
def corner : Scenario := { data := [("shop", .object [("title", .string "Corner")])] }

/-- A session that knows of the same shop whether it is open. -/
def visit : Context Unit := Context.solitary [("shop", .object [("open", .bool true)])]

/-- What the session holds of the shop is found in the snapshot. -/
theorem an_open_shop_is_in_the_snapshot :
    Keyed.Ordered visit.session.data ∧ Path.parse "shop.open" = ["shop", "open"] ∧
    (solitary corner).lookup visit ("data." ++ "shop.open") = some (.bool true) ∧
    ((solitary corner).lookup visit "data").bind (·.at? ["shop", "open"]) = some (.bool true) := by
  have hordered : Keyed.Ordered visit.session.data := List.pairwise_singleton _ _
  have hparse : Path.parse "shop.open" = ["shop", "open"] := by cbv
  obtain ⟨-, hdata, -⟩ :=
    snapshots_agree_unless_hidden (solitary corner) visit hordered "shop.open" (by simp [hparse])
  rw [hparse] at hdata
  have hfound : (solitary corner).lookup visit ("data." ++ "shop.open") = some (.bool true) := by
    cbv
  exact ⟨hordered, hparse, hfound, (hdata.2 (by decide)).symm.trans hfound⟩

/-- The title of the shop is found by its path, and not in the snapshot. -/
theorem a_title_is_not_in_the_snapshot :
    Keyed.Ordered visit.session.data ∧ Path.parse "shop.title" = ["shop", "title"] ∧
    ((solitary corner).interpolate 3
        (.array [.string "{{data.shop.title}}", .string "{{data}}"])).on visit =
      (.ok (.array [.string "Corner", .object [("shop", .object [("open", .bool true)])]]), visit) ∧
    (solitary corner).lookup visit ("data." ++ "shop.title") ≠
      ((solitary corner).lookup visit "data").bind (·.at? ["shop", "title"]) := by
  refine ⟨List.pairwise_singleton _ _, by cbv, by cbv, ?_⟩
  have hpath : (solitary corner).lookup visit ("data." ++ "shop.title") =
      some (.string "Corner") := by
    cbv
  have hsnapshot : ((solitary corner).lookup visit "data").bind (·.at? ["shop", "title"]) =
      none := by
    cbv
  rw [hpath, hsnapshot]
  simp

end Engine
end Dialogue
