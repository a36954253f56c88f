import Mathlib
import Dialogue.Proofs.Evaluation
import Dialogue.Proofs.Templates

/-!
# Filling in templates

A text can be cut at its leftmost tokens (`Template.Cut.Leftmost`) in one way, and
`Template.cut` is that way (`Template.cut_eq_iff`).  Interpolation finds the values of the
tokens, each once and from left to right, and puts their texts in their places.  What is put in
is not read again.

A text that is a single token becomes the value itself.  That is the same as filling in the text
but for the type of the value (`Engine.toText_textWith`).
-/

namespace Dialogue
namespace Template

/-- A text cut at tokens: the characters before a token, the token, and what is behind it. -/
inductive Cut where
  | rest (text : List Char)
  | token (before inner : List Char) (behind : Cut)
deriving DecidableEq, Repr

namespace Cut

/-- A text that is one token and nothing else. -/
def lone (inner : List Char) : Cut := .token [] inner (.rest [])

/-- The tokens, in order. -/
def tokens : Cut → List (List Char)
  | .rest _ => []
  | .token _ inner behind => inner :: behind.tokens

/-- What takes the place of a token: the text of its value, or the token as it was written. -/
def replacement (inner : List Char) : Option Value → List Char
  | some value => value.toText.toList
  | none => (Segment.token inner).source

/-- The text with its tokens replaced, in order. -/
def fill : Cut → List (Option Value) → List Char
  | .rest text, _ => text
  | .token before inner behind, values =>
    before ++ (replacement inner (values.headD none) ++ behind.fill values.tail)

/-- A segment put in front. -/
def cons : Segment → Cut → Cut
  | .token inner, behind => .token [] inner behind
  | .char c, .rest text => .rest (c :: text)
  | .char c, .token before inner behind => .token (c :: before) inner behind

end Cut

/-- A text that starts with a token. -/
def Opens (cs : List Char) : Prop :=
  ∃ inner after, (∀ c ∈ inner, isBrace c = false) ∧ cs = (Segment.token inner).source ++ after

/-- The text is cut at the first place where a token starts, and so is what is behind the token;
what is left is a text in which no token starts anywhere. -/
inductive Cut.Leftmost : Cut → List Char → Prop
  | rest {text : List Char} (h : ∀ behind, behind <:+ text → ¬ Opens behind) :
      Leftmost (.rest text) text
  | token {before inner after : List Char} {behind : Cut}
      (hbefore : ∀ last, last <:+ before → last ≠ [] →
        ¬ Opens (last ++ ((Segment.token inner).source ++ after)))
      (hinner : ∀ c ∈ inner, isBrace c = false) (hbehind : behind.Leftmost after) :
      Leftmost (.token before inner behind) (before ++ ((Segment.token inner).source ++ after))

/-- The cut of a text. -/
def cut (cs : List Char) : Cut := (segments cs).foldr Cut.cons (.rest [])

theorem opens_iff {cs : List Char} : Opens cs ↔ (token? cs).isSome := by
  rw [Option.isSome_iff_exists]
  constructor
  · rintro ⟨inner, after, h⟩
    exact ⟨(inner, after), token?_eq_some_iff.2 h⟩
  · rintro ⟨⟨inner, after⟩, h⟩
    exact ⟨inner, after, token?_eq_some_iff.1 h⟩

theorem cut_cons {c : Char} {cs : List Char} (h : ¬ Opens (c :: cs)) :
    cut (c :: cs) = (cut cs).cons (.char c) := by
  rw [opens_iff, Bool.not_eq_true, Option.isSome_eq_false_iff, Option.isNone_iff_eq_none] at h
  rw [cut, segments]
  split
  · rename_i hsome
    rw [h] at hsome
    cases hsome
  · rfl

theorem cut_source_append {inner : List Char} (h : ∀ c ∈ inner, isBrace c = false)
    (after : List Char) :
    cut ((Segment.token inner).source ++ after) = .token [] inner (cut after) := by
  have hread : token? ((Segment.token inner).source ++ after) = some (inner, after) :=
    token?_eq_some_iff.2 ⟨h, rfl⟩
  rw [Segment.source, List.cons_append] at hread ⊢
  rw [cut, segments]
  split
  · rename_i hsome
    rw [hread, Option.some.injEq, Prod.mk.injEq] at hsome
    obtain ⟨rfl, rfl⟩ := hsome
    rfl
  · rename_i hnone
    rw [hread] at hnone
    cases hnone

/-- A character that starts no token is put in front. -/
theorem Cut.Leftmost.cons_char {c : Char} {text : List Char} {cut : Cut} (h : cut.Leftmost text)
    (hc : ¬ Opens (c :: text)) : (cut.cons (.char c)).Leftmost (c :: text) := by
  cases h with
  | rest hrest =>
      refine .rest fun behind hbehind => ?_
      rcases List.suffix_cons_iff.1 hbehind with rfl | hshorter
      · exact hc
      · exact hrest behind hshorter
  | token hbefore hinner hbehind =>
      rw [← List.cons_append] at hc ⊢
      refine .token (fun last hlast hne => ?_) hinner hbehind
      rcases List.suffix_cons_iff.1 hlast with rfl | hshorter
      · exact hc
      · exact hbefore last hshorter hne

/-- The cut of a text is at its leftmost tokens. -/
theorem leftmost_cut (cs : List Char) : (cut cs).Leftmost cs := by
  unfold cut
  fun_induction segments cs with
  | case1 =>
      refine .rest fun behind hbehind => ?_
      rw [List.suffix_nil.1 hbehind, opens_iff]
      decide
  | case2 c rest inner after h ih =>
      obtain ⟨hinner, htext⟩ := token?_eq_some_iff.1 h
      rw [htext]
      have hbefore (last : List Char) (hlast : last <:+ []) (hne : last ≠ []) :
          ¬ Opens (last ++ ((Segment.token inner).source ++ after)) :=
        absurd (List.suffix_nil.1 hlast) hne
      exact .token hbefore hinner ih
  | case3 c rest h ih => exact ih.cons_char (by simp [opens_iff, h])

/-- There is no other way to do so. -/
theorem Cut.Leftmost.cut_eq {c : Cut} {cs : List Char} (h : c.Leftmost cs) : cut cs = c := by
  induction h with
  | @rest text hrest =>
      -- one character after the other, since no token starts
      induction text with
      | nil => rw [cut, segments]; rfl
      | cons c text ih =>
          have htail := ih fun behind hbehind =>
            hrest behind (hbehind.trans (List.suffix_cons c text))
          rw [cut_cons (hrest _ (List.suffix_refl _)), htail, Cut.cons]
  | @token before inner after behind hbefore hinner _ ih =>
      -- the characters before the token come first, as above
      induction before with
      | nil => rw [List.nil_append, cut_source_append hinner, ih]
      | cons c before ihbefore =>
          have htail := ihbefore fun last hlast =>
            hbefore last (hlast.trans (List.suffix_cons c before))
          have hc := hbefore (c :: before) (List.suffix_refl _) (List.cons_ne_nil _ _)
          rw [List.cons_append] at hc ⊢
          rw [cut_cons hc, htail, Cut.cons]

theorem cut_eq_iff {cs : List Char} {c : Cut} : cut cs = c ↔ c.Leftmost cs := by
  constructor
  · rintro rfl
    exact leftmost_cut cs
  · exact Cut.Leftmost.cut_eq

-- three braces around a name: the first is no part of the token, nor is the last
example : cut "\x7b\x7b\x7ba\x7d\x7d\x7d".toList = .token ['\x7b'] ['a'] (.rest ['\x7d']) := by
  decide +kernel

/-- Where no token has a value, nothing changes. -/
theorem Cut.Leftmost.fill_eq {c : Cut} {cs : List Char} (h : c.Leftmost cs)
    {values : List (Option Value)} (hvalues : ∀ value ∈ values, value = none) :
    c.fill values = cs := by
  induction h generalizing values with
  | rest => rfl
  | token _ _ _ ih =>
      have hhead : values.headD none = none := by
        cases values with
        | nil => rfl
        | cons value _ => exact hvalues value List.mem_cons_self
      have htail := ih fun value hvalue => hvalues value (List.mem_of_mem_tail hvalue)
      rw [Cut.fill, hhead, htail, Cut.replacement]

/-- The cut of a text is a single token just where its only segment is one. -/
theorem foldr_cons_eq_lone {segments : List Segment} {inner : List Char} :
    segments.foldr Cut.cons (.rest []) = .lone inner ↔ segments = [.token inner] := by
  have hrest (segments : List Segment) (h : segments.foldr Cut.cons (.rest []) = .rest []) :
      segments = [] := by
    cases segments with
    | nil => rfl
    | cons segment segments =>
        cases segment with
        | token => cases h
        | char => cases hcut : segments.foldr Cut.cons (.rest []) <;> simp [Cut.cons, hcut] at h
  constructor
  · intro h
    cases segments with
    | nil => cases h
    | cons segment segments =>
        cases segment with
        | token found =>
            obtain ⟨-, rfl, hbehind⟩ := Cut.token.inj h
            rw [hrest segments hbehind]
        | char =>
            cases hcut : segments.foldr Cut.cons (.rest []) <;>
              simp [Cut.cons, Cut.lone, hcut] at h
  · rintro rfl
    rfl

@[simp] theorem Cut.tokens_cons_char (c : Char) (cut : Cut) :
    (cut.cons (.char c)).tokens = cut.tokens := by
  cases cut <;> rfl

@[simp] theorem Cut.fill_cons_char (c : Char) (cut : Cut) (values : List (Option Value)) :
    (cut.cons (.char c)).fill values = c :: cut.fill values := by
  cases cut <;> rfl

end Template

namespace Engine

variable {σ : Type} (e : Engine σ) (self : Interpolation σ)

open Template

theorem segmentWith_token (inner : List Char) :
    e.segmentWith self (.token inner) =
      e.tokenWith self inner >>= fun value => pure (Cut.replacement inner value) := by
  rw [segmentWith]
  congr 1
  funext value
  cases value <;> rfl

/-- Replacing segment by segment is filling in the cut. -/
theorem mapM_segmentWith (segments : List Segment) :
    (segments.mapM (e.segmentWith self) >>= fun pieces => pure pieces.flatten) =
      (segments.foldr Cut.cons (.rest [])).tokens.mapM (e.tokenWith self) >>= fun values =>
        pure ((segments.foldr Cut.cons (.rest [])).fill values) := by
  induction segments with
  | nil => rfl
  | cons segment segments ih =>
      cases segment with
      | char c =>
          -- nothing is looked up
          have hbehind := congrArg (· >>= fun text => pure (c :: text)) ih
          simp only [bind_assoc, pure_bind] at hbehind
          simpa [segmentWith] using hbehind
      | token inner =>
          have hbehind (value : Option Value) :=
            congrArg (· >>= fun text => pure (Cut.replacement inner value ++ text)) ih
          simp only [bind_assoc, pure_bind] at hbehind
          simp only [List.foldr_cons, Cut.cons, Cut.tokens, Cut.fill, segmentWith_token,
            List.mapM_cons, bind_assoc, pure_bind, List.flatten_cons, List.nil_append,
            List.headD_cons, List.tail_cons, hbehind]

/-- A text that is a single token becomes its value, if it has one. -/
theorem textWith_of_lone {text : String} {inner : List Char} (h : cut text.toList = .lone inner) :
    e.textWith self text = (do
      let value ← e.tokenWith self inner
      return value.getD (.string text)) := by
  rw [textWith, foldr_cons_eq_lone.1 h]

theorem textWith_of_ne_lone {text : String} (h : ∀ inner, cut text.toList ≠ .lone inner) :
    e.textWith self text = (do
      let values ← (cut text.toList).tokens.mapM (e.tokenWith self)
      return .string (String.ofList ((cut text.toList).fill values))) := by
  have hfill := congrArg (· >>= fun text => pure (Value.string (String.ofList text)))
    (e.mapM_segmentWith self (segments text.toList))
  simp only [bind_assoc, pure_bind] at hfill
  rw [textWith]
  split
  · rename_i inner hsegments
    exact absurd (foldr_cons_eq_lone.2 hsegments) (h inner)
  · exact hfill

/-- A text that is a single token differs from others in that its value keeps its type. -/
theorem toText_textWith (text : String) :
    (e.textWith self text >>= fun value => pure value.toText) =
      (cut text.toList).tokens.mapM (e.tokenWith self) >>= fun values =>
        pure (String.ofList ((cut text.toList).fill values)) := by
  by_cases h : ∃ inner, cut text.toList = .lone inner
  · obtain ⟨inner, hlone⟩ := h
    -- a token without a value stands for itself, which is the whole text
    have hsource : (Segment.token inner).source = text.toList := by
      have hfill : (Cut.lone inner).fill [] = text.toList :=
        (cut_eq_iff.1 hlone).fill_eq (by simp)
      simpa [Cut.lone, Cut.fill, Cut.replacement] using hfill
    have hreplaced (value : Option Value) :
        (value.getD (.string text)).toText = String.ofList (Cut.replacement inner value) := by
      cases value with
      | none => rw [Cut.replacement, hsource, String.ofList_toList]; rfl
      | some value => rw [Cut.replacement, String.ofList_toList]; rfl
    rw [textWith_of_lone e self hlone, hlone]
    simp [Cut.lone, Cut.tokens, Cut.fill, hreplaced]
  · rw [textWith_of_ne_lone e self fun inner hlone => h ⟨inner, hlone⟩]
    simp only [bind_assoc, pure_bind, Value.toText]

/-- A text in which no token has a value stays as it was written. -/
theorem textWith_of_none {text : String} {ctx after : Context σ} {values : List (Option Value)}
    (h : ((cut text.toList).tokens.mapM (e.tokenWith self)).on ctx = (.ok values, after))
    (hvalues : ∀ value ∈ values, value = none) :
    (e.textWith self text).on ctx = (.ok (.string text), after) := by
  by_cases hcut : ∃ inner, cut text.toList = .lone inner
  · obtain ⟨inner, hlone⟩ := hcut
    rw [hlone, Cut.lone, Cut.tokens, Cut.tokens, List.mapM_cons, List.mapM_nil] at h
    obtain ⟨value, between, hvalue, hrest⟩ := Eval.exists_of_on_bind h
    obtain ⟨⟨⟩, rfl⟩ := Prod.ext_iff.1 hrest
    rw [textWith_of_lone e self hlone, Eval.on_bind_ok hvalue, hvalues value List.mem_cons_self]
    rfl
  · rw [textWith_of_ne_lone e self fun inner hlone => hcut ⟨inner, hlone⟩, Eval.on_bind_ok h,
      (leftmost_cut _).fill_eq hvalues, String.ofList_toList]
    rfl

/-- A token that stops, stops the whole. -/
theorem textWith_of_error {text : String} {past left : List (List Char)} {inner : List Char}
    (htokens : (cut text.toList).tokens = past ++ inner :: left)
    {ctx between after : Context σ} {values : List (Option Value)} {stop : Stop}
    (hpast : (past.mapM (e.tokenWith self)).on ctx = (.ok values, between))
    (hstop : (e.tokenWith self inner).on between = (.error stop, after)) :
    (e.textWith self text).on ctx = (.error stop, after) := by
  have hmapM : ((cut text.toList).tokens.mapM (e.tokenWith self)).on ctx =
      (.error stop, after) := by
    have htail : ((inner :: left).mapM (e.tokenWith self)).on between = (.error stop, after) := by
      rw [List.mapM_cons]
      exact Eval.on_bind_error hstop
    rw [htokens, List.mapM_append, Eval.on_bind_ok hpast]
    exact Eval.on_bind_error htail
  -- both ways of filling in a text have the same text, and taking the text never stops
  refine Eval.on_of_on_map_error (f := Value.toText) ?_
  rw [toText_textWith]
  exact Eval.on_bind_error hmapM

/-- Interpolating a text finds the values of its leftmost tokens, each once and in order, and
fills them in.  A text that is one token and nothing else becomes the token's value as it is.

What is filled in is not read again.  The first token that stops stops the whole, and where no
token has a value the text stays as it was written. -/
theorem interpolation_fills_tokens (bound : Nat) (text : String) :
    ∃ c : Cut, (∀ other : Cut, other.Leftmost text.toList ↔ other = c) ∧
    let whole := e.interpolate (bound + 1) (.string text)
    let value? := e.tokenWith (e.interpolate bound)
    (∀ inner, c = .lone inner → whole = do
      let value ← value? inner
      return value.getD (.string text)) ∧
    ((∀ inner, c ≠ .lone inner) → whole = do
      let values ← c.tokens.mapM value?
      return .string (String.ofList (c.fill values))) ∧
    ((do
      let value ← whole
      return value.toText) = do
      let values ← c.tokens.mapM value?
      return String.ofList (c.fill values)) ∧
    (∀ ctx after values, (c.tokens.mapM value?).on ctx = (.ok values, after) →
      (∀ value ∈ values, value = none) → whole.on ctx = (.ok (.string text), after)) ∧
    ∀ past inner left, c.tokens = past ++ inner :: left → ∀ ctx between after values stop,
      (past.mapM value?).on ctx = (.ok values, between) →
      (value? inner).on between = (.error stop, after) → whole.on ctx = (.error stop, after) := by
  let self := e.interpolate bound
  refine ⟨cut text.toList, fun other => cut_eq_iff.symm.trans eq_comm, ?_, ?_, ?_, ?_, ?_⟩
  · exact fun inner hlone => e.textWith_of_lone self hlone
  · exact fun hne => e.textWith_of_ne_lone self hne
  · exact e.toText_textWith self text
  · exact fun ctx after values h hvalues => e.textWith_of_none self h hvalues
  · intro past inner left htokens ctx between after values stop hpast hstop
    exact e.textWith_of_error self htokens hpast hstop

end Engine
end Dialogue
