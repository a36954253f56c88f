import Dialogue.Proofs.Nesting
import Dialogue.Proofs.Shorthand
import Dialogue.Proofs.Variables

/-!
# Where interpolation need not end

A value that is met while another one is interpolated is a part of it, or was read from
its text, and weighs less.  There is one exception: an argument of a call in short notation
may name a variable, and then the value of the variable is interpolated in its turn.  A
text with such an argument borrows.

* `interpolate_terminates_iff`: interpolation ends unless it borrows time and again,
* `borrowing_itself_never_ends`: a variable can hold a text that borrows itself.
-/

namespace Dialogue

namespace Engine

variable {σ : Type} {e : Engine σ}

/-- The request is for a text with a call one of whose arguments names a variable. -/
def Borrows (e : Engine σ) (request : Request σ) : Prop :=
  ∃ text inner name args keywords, request.2 = .string text ∧
    .token inner ∈ Template.segments text.toList ∧
    Template.call? (Template.expression inner) = some (name, args) ∧
    e.keywords? name = some keywords ∧
    ∃ part ∈ Shorthand.parts keywords (Shorthand.words args), ∃ word ∈ part.arguments,
      Template.isIdentifier word.toList ∧ (e.lookup request.1 word).isSome

/-- An argument that does not name a variable weighs what it is read from. -/
theorem weight_argument_le {ctx : Context σ} {word : String}
    (h : ¬ (Template.isIdentifier word.toList ∧ (e.lookup ctx word).isSome)) :
    (e.argument ctx word).weight ≤ word.toList.length + 1 := by
  have hnone : (if Template.isIdentifier word.toList then e.lookup ctx word else none) = none := by
    split
    · rename_i hidentifier
      exact Option.not_isSome_iff_eq_none.1 fun hsome => h ⟨hidentifier, hsome⟩
    · rfl
  simp only [argument, hnone]
  cases hread : Value.read? word with
  | none => simp [Value.weight]
  | some v => exact Nat.le_succ_of_le (Value.weight_of_read? hread)

/-- In a text that does not borrow, the parameters of calls weigh less than the text. -/
theorem within_of_not_borrows {ctx : Context σ} {text : String}
    (h : ¬ e.Borrows (ctx, .string text)) {inner : List Char}
    (hinner : .token inner ∈ Template.segments text.toList) {name args : String}
    {keywords : List String} (hkeywords : e.keywords? name = some keywords)
    (hcall : Template.call? (Template.expression inner) = some (name, args))
    {entry : String × Value}
    (hentry : entry ∈ (e.descriptor ctx name keywords args).drop Value.functionKey) :
    entry.2.Within (some (Value.string text).weight) := by
  rw [descriptor, Keyed.drop_put] at hentry
  obtain ⟨part, hpart, rfl⟩ :=
    Shorthand.exists_part_of_mem_params (List.mem_filter.1 hentry).1
  have hvalue := part.weight_value_le (e.argument ctx) fun word hword =>
    weight_argument_le fun hborrows => h ⟨text, inner, name, args, keywords, rfl, hinner, hcall,
      hkeywords, part, hpart, word, hword, hborrows⟩
  have hroom := Shorthand.room_part_le hpart
  have hwords := Shorthand.room_words_le args
  have hargs := Template.length_args hcall
  have hexpression := Text.length_trimmed_le inner
  have hlength := Template.length_inner hinner
  rw [Template.expression, String.toList_ofList] at hargs
  intro n hn
  obtain rfl := Option.some.inj hn
  simp only [Value.weight]
  omega

/-! ## What is nested weighs less -/

theorem answer_advances (builtIn : e.BuiltIn) (v : Value) :
    (e.answer v).Keeps Context.Advances := by
  intro ctx
  by_cases h : e.Terminates (ctx, v)
  · simp only [answer, Eval.on_make, h, if_true]
    exact limit_advances builtIn v ctx
  · simp only [answer, Eval.on_make, h, if_false]
    exact .refl ctx

theorem without_advances (builtIn : e.BuiltIn) (request : Request σ) (v : Value) :
    (e.answer.without request v).Keeps Context.Advances := by
  intro ctx
  by_cases h : (ctx, v) = request
  · subst h
    rw [Interpolation.on_without_self]
    exact .refl ctx
  · rw [Interpolation.on_without_of_ne h]
    exact answer_advances builtIn v ctx

theorem answer_answers (v : Value) : (e.answer v).StopsOnly (· ≠ .exhausted) := by
  rintro ctx stop h rfl
  by_cases hterminates : e.Terminates (ctx, v)
  · simp only [answer, limit, Eval.on_make, hterminates, if_true, dite_true] at h
    exact hterminates.choose_spec h
  · simp [answer, hterminates] at h

/-- What is assembled from interpolations within a limit asks for requests within the
limit. -/
theorem within_of_asked {limit : Option Nat} {α : Type} {X : Interpolation σ → Eval σ α}
    (hX : Assembled (Interpolating limit FunctionLibrary.readStorage) X) {request : Request σ}
    {ctx : Context σ}
    (hasked : ((X (e.answer.without request)).on ctx).1 = .error .exhausted) :
    request.2.Within limit := by
  refine Classical.byContradiction fun hrequest => ?_
  suffices h : (X (e.answer.without request)).StopsOnly (· ≠ .exhausted) from h ctx _ hasked rfl
  refine hX.stopsOnly _ (Interpolating.stopsOnly ?_ fun h => h.ne_exhausted)
  intro v hv ctx stop h
  have hne : (ctx, v) ≠ request := by
    rintro rfl
    exact hrequest hv
  rw [Interpolation.on_without_of_ne hne] at h
  exact answer_answers v ctx stop h

/-- A value that is nested in another weighs less, unless the other borrows. -/
theorem weight_lt_of_nests (builtIn : e.BuiltIn) (hscenario : e.scenario.functions = [])
    {request nested : Request σ} (hnests : e.Nests request nested)
    (hborrows : ¬ e.Borrows request) : nested.2.weight < request.2.weight := by
  obtain ⟨ctx, v⟩ := request
  suffices hwithin : nested.2.Within (some v.weight) from hwithin _ rfl
  match v with
  | .string text =>
      have hnull : Value.null.Within (some (Value.string text).weight) := by
        rintro n ⟨⟩
        exact Nat.succ_pos _
      have htext : Assembled (Interpolating (some (Value.string text).weight)
          FunctionLibrary.readStorage) fun interpolate =>
            textBy (e.tokenAt ctx interpolate) text := by
        refine textBy_assembled text fun inner hinner => ?_
        exact tokenAt_assembled builtIn.equipped ctx inner (.inr hscenario) hnull
          fun name args keywords hcall hkeywords entry =>
            within_of_not_borrows hborrows hinner hkeywords hcall
      have hasked : ((textBy (e.tokenAt ctx (e.answer.without nested)) text).on ctx).1 =
          .error .exhausted := by
        rw [← on_textWith builtIn.equipped (without_advances builtIn nested)]
        exact hnests
      exact within_of_asked htext hasked
  | .null | .bool _ | .number _ | .array _ | .object _ =>
      refine within_of_asked (interpolateWith_assembled_of_parts builtIn.equipped _
        (.inr hscenario) ?_ ?_) hnests
      · rintro n ⟨⟩
        exact Nat.le_refl _
      · exact fun text => nofun

/-! ## Termination -/

/-- Nested values cannot become lighter for ever, so an infinite chain borrows time and
again. -/
theorem exists_borrows_of_chain (builtIn : e.BuiltIn) (hscenario : e.scenario.functions = [])
    {chain : Nat → Request σ} (hchain : ∀ n, e.Nests (chain n) (chain (n + 1))) (n : Nat) :
    ∃ m, n ≤ m ∧ e.Borrows (chain m) := by
  refine Classical.byContradiction fun hnone => ?_
  have hlighter (k : Nat) : (chain (n + k)).2.weight + k ≤ (chain n).2.weight := by
    induction k with
    | zero => exact Nat.le_refl _
    | succ k ih =>
        have hborrows : ¬ e.Borrows (chain (n + k)) := fun h => hnone ⟨n + k, by omega, h⟩
        have hlt := weight_lt_of_nests builtIn hscenario (hchain (n + k)) hborrows
        change (chain (n + k + 1)).2.weight + (k + 1) ≤ (chain n).2.weight
        omega
  have := hlighter ((chain n).2.weight + 1)
  omega

/-- Without functions of the scenario, the interpolation of a value in a context ends, if
and only if no infinite chain of nested interpolations starts there and meets texts that
borrow time and again. -/
theorem interpolate_terminates_iff (builtIn : e.BuiltIn) (hscenario : e.scenario.functions = [])
    (ctx : Context σ) (v : Value) :
    (∃ bound, ((e.interpolate bound v).on ctx).1 ≠ .error .exhausted) ↔
      ¬ ∃ chain : Nat → Request σ, chain 0 = (ctx, v) ∧
        (∀ n, e.Nests (chain n) (chain (n + 1))) ∧ ∀ n, ∃ m, n ≤ m ∧ e.Borrows (chain m) := by
  have hterminates := terminates_iff_no_chain builtIn (ctx, v)
  constructor
  · rintro hends ⟨chain, hstart, hchain, -⟩
    exact hterminates.1 hends ⟨chain, hstart, hchain⟩
  · intro hnone
    refine hterminates.2 ?_
    rintro ⟨chain, hstart, hchain⟩
    exact hnone ⟨chain, hstart, hchain, exists_borrows_of_chain builtIn hscenario hchain⟩

/-- A borrowed text that ends. -/
theorem borrowing_once_ends :
    let ctx := Context.solitary [("x", .string "\x7b\x7by\x7d\x7d"), ("y", .string "secret")]
    let v : Value := .string "\x7b\x7bJoinToString:values:x\x7d\x7d"
    (solitary {}).BuiltIn ∧ ¬ ∃ chain : Nat → Request Unit, chain 0 = (ctx, v) ∧
      (∀ n, (solitary {}).Nests (chain n) (chain (n + 1))) ∧
      ∀ n, ∃ m, n ≤ m ∧ (solitary {}).Borrows (chain m) := by
  intro ctx v
  have houtcome : (((solitary {}).interpolate 4 v).on ctx).1 = .ok (.string "secret") := by cbv
  refine ⟨solitary_builtIn {}, ?_⟩
  exact (interpolate_terminates_iff (solitary_builtIn {}) rfl ctx v).1 ⟨4, by simp [houtcome]⟩

/-! ## A text that borrows itself -/

/-- A text that reads the entry whose key the variable `x` holds. -/
def keyInVariable : String := "\x7b\x7bReadStorage:key:x\x7d\x7d"

/-- If the variable holds the text itself, interpolating the text asks for interpolating
it. -/
theorem exhausted_of_keyInVariable {ctx : Context σ} {self : Interpolation σ}
    (equipped : e.Equipped FunctionLibrary.readStorage)
    (hlookup : e.lookup ctx "x" = some (.string keyInVariable))
    (h : ((self (.string keyInVariable)).on ctx).1 = .error .exhausted) :
    ((e.interpolateWith self (.string keyInVariable)).on ctx).1 = .error .exhausted := by
  have hsegments : Template.segments keyInVariable.toList =
      [.token "ReadStorage:key:x".toList] := by cbv
  have hcall : Template.call? (Template.expression "ReadStorage:key:x".toList) =
      some ("ReadStorage", "key:x") := by cbv
  have hfunction : e.functions.get? "ReadStorage" = some FunctionLibrary.readStorage := by
    rw [equipped.functions, if_pos (by rfl)]
  have hkeywords : e.keywords? "ReadStorage" =
      some (FunctionLibrary.readStorage : Executor σ).keywords := by
    rw [keywords?, hfunction]
  have hparts : Shorthand.parts (FunctionLibrary.readStorage : Executor σ).keywords
      (Shorthand.words "key:x") = [.pair "key" (some "x")] := by cbv
  have hargument : e.argument ctx "x" = .string keyInVariable :=
    argument_of_lookup (by decide) hlookup
  have hparams : Keyed.drop Value.functionKey
      (Shorthand.params (e.argument ctx) [.pair "key" (some "x")]) =
        [("key", .string keyInVariable)] := by
    rw [← hargument]
    rfl
  have hevaluate : ((e.evaluateFieldsWith self (e.descriptor ctx "ReadStorage"
      (FunctionLibrary.readStorage : Executor σ).keywords "key:x")).on ctx).1 =
        .error .exhausted := by
    rw [descriptor, hparts]
    simp only [evaluateFieldsWith, nameUnder_put, Keyed.drop_put, hparams, hfunction, eagerWith,
      FunctionLibrary.readStorage, List.mapM_cons, List.contains_nil, Bool.false_eq_true, if_false,
      bind_assoc]
    rw [Eval.on_bind, h]
  rw [interpolateWith, textWith_of_token hsegments, Eval.on_bind]
  simp only [tokenWith, hcall, hkeywords]
  rw [Eval.on_bind_ok (Eval.on_ask _ ctx), Eval.on_recover, Eval.on_bind, hevaluate]

/-- A variable can hold a text that is never done interpolating. -/
theorem borrowing_itself_never_ends :
    let ctx := Context.solitary [("x", .string keyInVariable)]
    (solitary {}).BuiltIn ∧ (solitary {}).scenario.functions = [] ∧
      ¬ ∃ bound, (((solitary {}).interpolate bound (.string keyInVariable)).on ctx).1 ≠
        .error .exhausted := by
  intro ctx
  have hlookup : (solitary {}).lookup ctx "x" = some (.string keyInVariable) := by cbv
  refine ⟨solitary_builtIn {}, rfl, ?_⟩
  rintro ⟨bound, hbound⟩
  refine hbound ?_
  induction bound with
  | zero => rfl
  | succ bound ih =>
      refine exhausted_of_keyInVariable (solitary_builtIn {}).equipped hlookup ?_
      refine Classical.byContradiction fun hother => ?_
      exact hother (ih hother)

end Engine
end Dialogue
