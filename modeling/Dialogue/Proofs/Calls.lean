import Dialogue.Proofs.Nesting
import Dialogue.Proofs.Shorthand
import Dialogue.Proofs.Variables

/-!
# Calls and descriptors

A call in short notation denotes a descriptor, and its arguments are the values of
variables.  One expects it to do what the descriptor does in which each argument is a
reference to the variable.  But the parameters of a function are interpolated before it
runs, and the values that a call has put into the descriptor are then interpolated in
their turn.

* `call_agrees_where_inert`: a call does what its descriptor with references does, if the
  values of its arguments are inert, and they have to be,
* `call_interpolates_values`: a value that is not inert makes a difference.
-/

namespace Dialogue

/-- The template that stands for a variable. -/
def Value.reference (word : String) : Value := .string (Template.write word.toList)

namespace Engine

variable {σ : Type} {e : Engine σ} {ctx : Context σ}

/-- Wherever the variables are these, a value is interpolated to a result, and nothing
changes. -/
def Yields (e : Engine σ) (ctx : Context σ) (v result : Value) : Prop :=
  ∀ later, ctx.SameVariables later → (e.limit v).on later = (.ok result, later)

/-- Wherever the variables are these, interpolation leaves a value as it is, and changes
nothing. -/
def Inert (e : Engine σ) (ctx : Context σ) (v : Value) : Prop :=
  ∀ later, ctx.SameVariables later →
    ∃ bound, (e.interpolate bound v).on later = (.ok v, later)

theorem inert_iff_yields (builtIn : e.BuiltIn) {v : Value} :
    e.Inert ctx v ↔ e.Yields ctx v v := by
  refine forall_congr' fun later => imp_congr_right fun _ => ?_
  rw [exists_interpolate_iff builtIn (by simp), on_limit_eq_iff builtIn (by simp)]

/-! ## References -/

theorem yields_of_interpolateWith (builtIn : e.BuiltIn) {v result : Value}
    (h : ∀ later, ctx.SameVariables later →
      (e.interpolateWith e.limit v).on later = (.ok result, later)) : e.Yields ctx v result :=
  fun later hlater => (on_limit_eq_iff builtIn (by simp)).2 (h later hlater)

/-- A reference to a variable yields its value. -/
theorem yields_reference (builtIn : e.BuiltIn) {word : String} {v : Value}
    (hword : Template.isIdentifier word.toList) (hv : e.lookup ctx word = some v) :
    e.Yields ctx (.reference word) v := by
  refine yields_of_interpolateWith builtIn fun later hlater => ?_
  have hplain := Shorthand.plain_of_isIdentifier hword
  have hsegments : Template.segments (Template.write word.toList).toList = [.token word.toList] :=
    Template.segments_write fun c hc => (hplain.marks c hc).2
  have hexpression : Template.expression word.toList = word := hplain.trimmed
  have hcall : Template.call? word = none :=
    Template.call?_eq_none fun c hc => (hplain.marks c hc).1
  have htoken : (e.tokenWith e.limit word.toList).on later = (.ok (some v), later) := by
    simp only [tokenWith, hexpression, hcall, Eval.on_ask, lookup_congr hlater, hv]
  rw [Value.reference, interpolateWith, textWith_of_token hsegments, Eval.on_bind_ok htoken]
  rfl

/-- Items that yield one by one. -/
theorem yields_array (builtIn : e.BuiltIn) {words : List String} {item result : String → Value}
    (h : ∀ word ∈ words, e.Yields ctx (item word) (result word)) :
    e.Yields ctx (.array (words.map item)) (.array (words.map result)) := by
  refine yields_of_interpolateWith builtIn fun later hlater => ?_
  have hitems : ((words.map item).mapM e.limit).on later = (.ok (words.map result), later) := by
    induction words with
    | nil => rfl
    | cons word rest ih =>
        have hrest := ih fun other hother => h other (List.mem_cons_of_mem word hother)
        rw [List.map_cons, List.mapM_cons, Eval.on_bind_ok (h word List.mem_cons_self later hlater),
          Eval.on_bind_ok hrest]
        rfl
  rw [interpolateWith, Eval.on_bind_ok hitems]
  rfl

/-! ## Parameters -/

/-- A value that is inert, and a value that stands for it. -/
structure Stands (e : Engine σ) (ctx : Context σ) (given named : Value) : Prop where
  inert : e.Yields ctx given given
  yields : e.Yields ctx named given

/-- What has to hold of the arguments of a call. -/
def Resolves (e : Engine σ) (ctx : Context σ) (word : String) : Prop :=
  Template.isIdentifier word.toList ∧ ∃ v, e.lookup ctx word = some v ∧ e.Inert ctx v

theorem stands_value (builtIn : e.BuiltIn) {part : Shorthand.Part}
    (h : ∀ word ∈ part.arguments, e.Resolves ctx word) :
    e.Stands ctx (part.value (e.argument ctx)) (part.value .reference) := by
  have hword (word : String) (hword : word ∈ part.arguments) :
      e.Stands ctx (e.argument ctx word) (.reference word) := by
    obtain ⟨hidentifier, v, hv, hinert⟩ := h word hword
    rw [argument_of_lookup hidentifier hv]
    exact ⟨(inert_iff_yields builtIn).1 hinert, yields_reference builtIn hidentifier hv⟩
  match part with
  | .pair key none =>
      have hnull : e.Yields ctx .null .null := yields_of_interpolateWith builtIn fun _ _ => rfl
      exact ⟨hnull, hnull⟩
  | .pair key (some word) => exact hword word (by simp [Shorthand.Part.arguments])
  | .run arguments =>
      constructor
      · exact yields_array builtIn fun word hmem => (hword word hmem).inert
      · exact yields_array builtIn fun word hmem => (hword word hmem).yields

/-- What a call puts into its descriptor stands beside the references. -/
theorem params_stand (builtIn : e.BuiltIn) {ps : List Shorthand.Part}
    (h : ∀ part ∈ ps, ∀ word ∈ part.arguments, e.Resolves ctx word) :
    Keyed.Matches (fun _ => e.Stands ctx) (Shorthand.params (e.argument ctx) ps)
      (Shorthand.params .reference ps) := by
  induction ps using List.reverseRecOn with
  | nil => exact .nil
  | append_singleton rest part ih =>
      rw [Shorthand.params_concat, Shorthand.params_concat]
      have hrest := ih fun other hother => h other (List.mem_append_left _ hother)
      exact Keyed.matches_put hrest (stands_value builtIn (h part (by simp)))

/-! ## Functions of the library -/

/-- What a function gets under a key once the parameters that it does not hold back were
interpolated: the inert value, or what stands for it. -/
def Held (e : Engine σ) (ctx : Context σ) (deferred : List String) (key : String)
    (given held : Value) : Prop :=
  held = given ∨ key ∈ deferred ∧ e.Stands ctx given held

theorem on_eagerWith (deferred : List String) {given named : Fields}
    (h : Keyed.Matches (fun _ => e.Stands ctx) given named) :
    (eagerWith e.limit deferred given).on ctx = (.ok given, ctx) ∧
      ∃ held, (eagerWith e.limit deferred named).on ctx = (.ok held, ctx) ∧
        Keyed.Matches (e.Held ctx deferred) given held := by
  induction h with
  | nil => exact ⟨rfl, [], rfl, .nil⟩
  | @cons key v w given named hstand _ ih =>
      obtain ⟨hgiven, held, hheld, hrest⟩ := ih
      have hsame := Context.SameVariables.refl ctx
      simp only [eagerWith, List.mapM_cons] at hgiven hheld ⊢
      by_cases hdeferred : deferred.contains key
      · simp only [hdeferred, if_true, pure_bind]
        refine ⟨?_, (key, w) :: held, ?_, .cons (.inr ⟨?_, hstand⟩) hrest⟩
        · rw [Eval.on_bind_ok hgiven]
          rfl
        · rw [Eval.on_bind_ok hheld]
          rfl
        · exact List.contains_iff_mem.1 hdeferred
      · simp only [hdeferred, if_false, bind_assoc, pure_bind, Bool.false_eq_true]
        refine ⟨?_, (key, v) :: held, ?_, .cons (.inl rfl) hrest⟩
        · rw [Eval.on_bind_ok (hstand.inert ctx hsame), Eval.on_bind_ok hgiven]
          rfl
        · rw [Eval.on_bind_ok (hstand.yields ctx hsame), Eval.on_bind_ok hheld]
          rfl

section

variable {deferred : List String} {given held : Fields}

theorem eq_of_held (h : Keyed.Matches (e.Held ctx deferred) given held)
    (hkeys : ∀ key ∈ Keyed.keys given, key ∉ deferred) : held = given := by
  induction h with
  | nil => rfl
  | @cons key v w given held hvalue _ ih =>
      have hsame := hvalue.resolve_right fun h => hkeys key List.mem_cons_self h.1
      rw [hsame, ih fun other hother => hkeys other (List.mem_cons_of_mem key hother)]

theorem get?_of_held (h : Keyed.Matches (e.Held ctx deferred) given held) {key : String}
    (hkey : key ∉ deferred) : Keyed.get? held key = Keyed.get? given key := by
  induction h with
  | nil => rfl
  | @cons other v w given held hvalue _ ih =>
      rw [Keyed.get?_cons, Keyed.get?_cons, ih]
      split
      · rename_i hother
        subst hother
        exact congrArg some (hvalue.resolve_right fun h => hkey h.1)
      · rfl

theorem branch_of_held (h : Keyed.Matches (e.Held ctx deferred) given held) (otherwise : Value)
    (key : String) :
    (Logic.branch e.limit otherwise (held.get? key)).on ctx =
      (Logic.branch e.limit otherwise (given.get? key)).on ctx := by
  induction h with
  | nil => rfl
  | @cons other v w given held hvalue _ ih =>
      rw [Keyed.get?_cons, Keyed.get?_cons]
      split
      · rcases hvalue with rfl | ⟨-, hstand⟩
        · rfl
        · exact (hstand.yields ctx (.refl ctx)).trans (hstand.inert ctx (.refl ctx)).symm
      · exact ih

end

/-- The parameters that a function does not interpolate in the context of its call: the
cases of `Switch`, whose parts are, and the template of `Map`, which is in the frames of
the items. -/
def withheld : List (String × String) := [("Switch", "cases"), ("Map", "template")]

theorem switch_of_held {given held : Fields}
    (h : Keyed.Matches (e.Held ctx (Logic.switch : Executor σ).deferred) given held)
    (hcases : "cases" ∉ Keyed.keys given) :
    (Logic.switch.execute e.limit held).on ctx = (Logic.switch.execute e.limit given).on ctx := by
  have hnone (fields : Fields) (hfields : "cases" ∉ Keyed.keys fields) :
      Parameters.list fields "cases" = [] := by
    have hget : Keyed.get? fields "cases" = none :=
      Option.eq_none_iff_forall_not_mem.2 fun v hv =>
        hfields (List.mem_map_of_mem (Keyed.mem_of_get? hv))
    simp [Parameters.list, Parameters.given?, hget]
  have hvalue := get?_of_held h (by decide : "value" ∉ ["cases", "defaultResult"])
  simp only [Logic.switch, hnone given hcases,
    hnone held (Keyed.keys_of_matches h ▸ hcases), hvalue,
    Logic.choose]
  exact branch_of_held h _ _

theorem equals_of_held {given held : Fields}
    (h : Keyed.Matches (e.Held ctx (Logic.equals : Executor σ).deferred) given held) :
    (Logic.equals.execute e.limit held).on ctx = (Logic.equals.execute e.limit given).on ctx := by
  have hvalues := get?_of_held h (by decide : "values" ∉ ["trueResult", "falseResult"])
  simp only [Logic.equals, Parameters.list, Parameters.given?, hvalues]
  exact branch_of_held h _ _

/-- A function of the library does the same with the references that it holds back. -/
theorem execute_of_held {name : String} {x : Executor σ}
    (hx : FunctionLibrary.standard.get? name = some x) {given held : Fields}
    (h : Keyed.Matches (e.Held ctx x.deferred) given held)
    (hkeys : ∀ key ∈ Keyed.keys given, (name, key) ∉ withheld) :
    (x.execute e.limit held).on ctx = (x.execute e.limit given).on ctx := by
  have hsame (hdeferred : ∀ key ∈ Keyed.keys given, key ∉ x.deferred) : held = given :=
    eq_of_held h hdeferred
  rcases List.mem_append.1 (Keyed.mem_of_get?_ofEntries hx) with hmem | hmem
  · rcases FunctionLibrary.deferred_of_mem hmem with hnone | ⟨rfl, rfl⟩ | ⟨rfl, rfl⟩ | rfl
    · rw [hsame fun key _ => by simp [hnone]]
    · exact switch_of_held h fun hcases => hkeys _ hcases (by simp [withheld])
    · rw [hsame]
      intro key hkey htemplate
      obtain rfl : key = "template" := by simpa [Collections.map] using htemplate
      exact hkeys _ hkey (by simp [withheld])
    · exact equals_of_held h
  · obtain ⟨-, rfl⟩ := Prod.mk.inj (List.mem_singleton.1 hmem)
    rw [hsame fun key _ => by simp [FunctionLibrary.readStorage]]

/-! ## Functions of the scenario -/

/-- The same value twice, or an inert value and one that stands for it. -/
def Alike (e : Engine σ) (ctx : Context σ) (first second : Value) : Prop :=
  second = first ∨ e.Stands ctx first second

theorem overlay_alike {given named : Fields}
    (h : Keyed.Matches (fun _ => e.Stands ctx) given named) (defaults : Fields) :
    Keyed.Matches (fun _ => e.Alike ctx) (Keyed.overlay defaults given)
      (Keyed.overlay defaults named) :=
  Keyed.matches_overlay (Keyed.matches_self (fun _ _ => .inl rfl) defaults)
    (h.imp fun _ _ _ => .inr)

theorem fieldsWith_of_alike (builtIn : e.BuiltIn) {first second : Fields}
    (h : Keyed.Matches (fun _ => e.Alike ctx) first second) :
    (fieldsWith e.limit first).AgreesFrom ctx (fieldsWith e.limit second) := by
  induction h with
  | nil => exact .pure []
  | @cons key v w first second halike _ ih =>
      simp only [fieldsWith, List.mapM_cons] at ih ⊢
      have hvalue : (e.limit v).AgreesFrom ctx (e.limit w) := by
        intro later hlater
        refine ⟨?_, hlater.trans (limit_advances builtIn v later).sameVariables⟩
        rcases halike with rfl | hstand
        · rfl
        · exact (hstand.inert later hlater).trans (hstand.yields later hlater).symm
      exact .bind (.bind hvalue fun result => .pure (key, result)) fun entry =>
        .bind ih fun entries => .pure (entry :: entries)

/-- Where the values that a call puts into its descriptor are inert, references do as
well. -/
theorem evaluateFieldsWith_of_stand (builtIn : e.BuiltIn) {name : String} {given named : Fields}
    (h : Keyed.Matches (fun _ => e.Stands ctx) given named)
    (hkeys : ∀ key ∈ Keyed.keys given, (name, key) ∉ withheld) :
    (e.evaluateFieldsWith e.limit (named.put Value.functionKey (.string name))).on ctx =
      (e.evaluateFieldsWith e.limit (given.put Value.functionKey (.string name))).on ctx := by
  have hdrop := Keyed.matches_drop h Value.functionKey
  simp only [evaluateFieldsWith, nameUnder_put, Keyed.drop_put]
  cases hfunction : e.functions.get? name with
  | some x =>
      obtain ⟨hgiven, held, hnamed, hheld⟩ := on_eagerWith x.deferred hdrop
      rw [builtIn.functions] at hfunction
      simp only
      rw [Eval.on_bind_ok hgiven, Eval.on_bind_ok hnamed]
      refine execute_of_held hfunction hheld fun key hkey => ?_
      obtain ⟨entry, hentry, rfl⟩ := List.mem_map.1 hkey
      exact hkeys _ (List.mem_map_of_mem (List.mem_filter.1 hentry).1)
  | none =>
      cases e.scenario.functions.get? name with
      | none => rfl
      | some function =>
          have harguments := fieldsWith_of_alike builtIn
            (overlay_alike hdrop function.params) ctx (.refl ctx)
          simp only [callWith]
          rw [Eval.on_bind, Eval.on_bind, harguments.1]

/-! ## Calls -/

/-- Evaluating a known function stops as interpolations do. -/
theorem evaluateFieldsWith_stopsOnly (builtIn : e.BuiltIn) {fields : Fields} {name : String}
    {keywords : List String} (hname : Value.nameUnder Value.functionKey fields = some name)
    (hkeywords : e.keywords? name = some keywords) :
    (e.evaluateFieldsWith e.limit fields).StopsOnly Stop.Usual := by
  rcases evaluateFieldsWith_assembled builtIn.equipped fields (.inl rfl) (Value.within_none _)
    fun _ _ => Value.within_none _ with h | ⟨other, hother, hunknown, -⟩
  · exact h.stopsOnly _ (Interpolating.stopsOnly (fun v _ => limit_stopsOnly builtIn v) .inr)
  · obtain rfl : name = other := Option.some.inj (hname.symm.trans hother)
    cases hunknown.symm.trans hkeywords

/-- The token of a written call evaluates the descriptor with the parameters of its parts, and
has no value if a name turns out to be unknown. -/
theorem on_tokenWith_call {name : String} {keywords : List String} {ps : List Shorthand.Part}
    (hreadable : Shorthand.Readable name keywords ps) (hkeywords : e.keywords? name = some keywords)
    (self : Interpolation σ) (ctx : Context σ) :
    (e.tokenWith self (Shorthand.call name ps).toList).on ctx =
      ((e.evaluateFieldsWith self ((Shorthand.params (e.argument ctx) ps).put
          Value.functionKey (.string name)) >>= fun v => pure (some v)).recover isUnknown
        fun _ => pure none).on ctx := by
  simp only [tokenWith, hreadable.call?_expression, hkeywords]
  rw [Eval.on_bind_ok (Eval.on_ask _ ctx), descriptor, hreadable.parts_write]

/-- A text that is the token of a written call evaluates the descriptor as the token does, and
stays as it is where the token has no value. -/
theorem on_interpolateWith_written {name : String} {keywords : List String}
    {ps : List Shorthand.Part} (hreadable : Shorthand.Readable name keywords ps)
    (hkeywords : e.keywords? name = some keywords) (self : Interpolation σ) (ctx : Context σ) :
    let text := Template.write (Shorthand.call name ps).toList
    (e.interpolateWith self (.string text)).on ctx =
      ((e.evaluateFieldsWith self ((Shorthand.params (e.argument ctx) ps).put
          Value.functionKey (.string name))).recover isUnknown
        fun _ => pure (.string text)).on ctx := by
  intro text
  rw [interpolateWith, textWith_of_token hreadable.segments_write, Eval.on_bind,
    on_tokenWith_call hreadable hkeywords, Eval.on_recover, Eval.on_recover, Eval.on_bind]
  rcases (e.evaluateFieldsWith self _).on ctx with ⟨stop | v, after⟩
  · cases stop with
    | failed failure => by_cases hunknown : isUnknown failure <;> simp [hunknown, text]
    | exhausted => rfl
  · rfl

/-- A call of a known function does what evaluating its descriptor does. -/
theorem on_interpolateWith_call (builtIn : e.BuiltIn) {name : String} {keywords : List String}
    {ps : List Shorthand.Part} (hreadable : Shorthand.Readable name keywords ps)
    (hkeywords : e.keywords? name = some keywords) (ctx : Context σ) :
    (e.interpolateWith e.limit (.string (Template.write (Shorthand.call name ps).toList))).on ctx =
      (e.evaluateFieldsWith e.limit
        ((Shorthand.params (e.argument ctx) ps).put Value.functionKey (.string name))).on ctx := by
  have hstops := evaluateFieldsWith_stopsOnly builtIn
    (nameUnder_put (Shorthand.params (e.argument ctx) ps) name) hkeywords
  rw [on_interpolateWith_written hreadable hkeywords, Eval.on_recover_isUnknown hstops]

/-- The written call, and the descriptor in which each argument is replaced by something,
come to the same. -/
def CallAgrees (e : Engine σ) (ctx : Context σ) (name : String) (ps : List Shorthand.Part)
    (replacement : String → Value) : Prop :=
  let call : Value := .string (Template.write (Shorthand.call name ps).toList)
  let descriptor : Fields :=
    (Shorthand.params replacement ps).put Value.functionKey (.string name)
  ∀ result : Except Stop Value × Context σ, result.1 ≠ .error .exhausted →
    ((∃ bound, (e.interpolate bound call).on ctx = result) ↔
      ∃ bound, (e.evaluate bound (.object descriptor)).on ctx = result)

section

variable {name : String} {keywords : List String} {ps : List Shorthand.Part}

/-- Both are compared in the limit. -/
theorem callAgrees_iff (builtIn : e.BuiltIn) (hreadable : Shorthand.Readable name keywords ps)
    (hkeywords : e.keywords? name = some keywords) (ctx : Context σ)
    (replacement : String → Value) :
    e.CallAgrees ctx name ps replacement ↔
      ∀ result : Except Stop Value × Context σ, result.1 ≠ .error .exhausted →
        ((e.evaluateFieldsWith e.limit ((Shorthand.params (e.argument ctx) ps).put
            Value.functionKey (.string name))).on ctx = result ↔
          (e.evaluateFieldsWith e.limit ((Shorthand.params replacement ps).put
            Value.functionKey (.string name))).on ctx = result) := by
  refine forall_congr' fun result => imp_congr_right fun hresult => ?_
  rw [exists_interpolate_iff builtIn hresult, exists_evaluate_iff builtIn hresult,
    on_interpolateWith_call builtIn hreadable hkeywords]

/-- The values of the arguments are in the place of templates. -/
theorem callAgrees_argument (builtIn : e.BuiltIn)
    (hreadable : Shorthand.Readable name keywords ps)
    (hkeywords : e.keywords? name = some keywords) (ctx : Context σ) :
    e.CallAgrees ctx name ps (e.argument ctx) := by
  rw [callAgrees_iff builtIn hreadable hkeywords]
  exact fun result _ => Iff.rfl

theorem callAgrees_reference (builtIn : e.BuiltIn)
    (hreadable : Shorthand.Readable name keywords ps)
    (hkeywords : e.keywords? name = some keywords)
    (hkeys : ∀ part ∈ ps, (name, part.key) ∉ withheld)
    (hresolves : ∀ part ∈ ps, ∀ word ∈ part.arguments, e.Resolves ctx word) :
    e.CallAgrees ctx name ps .reference := by
  rw [callAgrees_iff builtIn hreadable hkeywords]
  intro result _
  rw [evaluateFieldsWith_of_stand builtIn (params_stand builtIn hresolves)]
  intro key hkey
  obtain ⟨entry, hentry, rfl⟩ := List.mem_map.1 hkey
  obtain ⟨part, hpart, rfl⟩ := Shorthand.exists_part_of_mem_params hentry
  exact hkeys part hpart

end

/-! ## A function that hands back its argument -/

/-- The function of a scenario that hands back what it is given. -/
def echo : ScenarioFunction where
  params := [("value", .null)]
  result := .reference "params.value"

theorem lookup_params_value {ctx : Context σ} {v : Value} (h : ctx.params = [("value", v)]) :
    e.lookup ctx "params.value" = some v := by
  have hpath : Path.parse "params.value" = ["params", "value"] := by cbv
  rw [lookup, hpath]
  simp [lookupPath, lookupIn, Place.ofSegment?, h, Fields.at?, Value.at?, Keyed.get?_cons]

theorem on_callWith_echo (builtIn : e.BuiltIn) (v : Value) (ctx : Context σ) :
    (callWith e.limit echo [("value", v)]).on ctx =
      match (e.limit v).on ctx with
      | (.ok result, after) =>
        (.ok result,
          if result.isAction then { after with effects := after.effects ++ [result] } else after)
      | (.error stop, after) => (.error stop, after) := by
  have hoverlay : Keyed.overlay echo.params [("value", v)] = [("value", v)] := rfl
  rw [callWith, hoverlay]
  simp only [fieldsWith, List.mapM_cons, List.mapM_nil, bind_assoc, pure_bind]
  rw [Eval.on_bind]
  rcases (e.limit v).on ctx with ⟨stop | result, after⟩
  · rfl
  · simp only
    have hword : Template.isIdentifier "params.value".toList := by decide
    have hresult : (Eval.withParams [("value", result)] (Eval.withLocals [("value", result)]
        (resultWith e.limit echo.result))).on after = (.ok result, after) := by
      let inner : Context σ :=
        { after with params := [("value", result)], scope := after.scope.push [("value", result)] }
      have hlookup : e.lookup inner "params.value" = some result := lookup_params_value rfl
      have hyields := yields_reference builtIn hword hlookup inner (.refl inner)
      have hself : resultWith e.limit echo.result = e.limit (.reference "params.value") := rfl
      simp only [Eval.on_withParams, Eval.on_withLocals, hself]
      rw [hyields]
      simp [inner]
    rw [Eval.on_bind_ok hresult]
    by_cases haction : result.isAction
    · simp only [haction, if_true]
      rfl
    · simp only [haction, if_false, Bool.false_eq_true]
      rfl

theorem evaluateFieldsWith_echo {name : String} (hfunction : e.functions.get? name = none)
    (hecho : e.scenario.functions.get? name = some echo) (argument : String → Value)
    (word : String) :
    e.evaluateFieldsWith e.limit
        ((Shorthand.params argument [.pair "value" (some word)]).put Value.functionKey
          (.string name)) =
      callWith e.limit echo [("value", argument word)] := by
  have hdrop : Keyed.drop Value.functionKey
      (Shorthand.params argument [.pair "value" (some word)]) = [("value", argument word)] := rfl
  simp only [evaluateFieldsWith, nameUnder_put, Keyed.drop_put, hdrop, hfunction, hecho]

theorem readable_echo {name word : String} (hname : Template.isName name.toList)
    (hword : Template.isIdentifier word.toList) :
    Shorthand.Readable name ["value"] [.pair "value" (some word)] where
  isName := hname
  nonempty := by simp
  plain part hpart other hother := by
    obtain rfl := List.mem_singleton.1 hpart
    rcases List.mem_cons.1 hother with rfl | hargument
    · exact Shorthand.plain_of_isIdentifier (by decide)
    · obtain rfl := List.mem_singleton.1 hargument
      exact Shorthand.plain_of_isIdentifier hword
  legible := ⟨by decide, rfl, trivial⟩

/-- A function that hands back its argument gives away what is not inert. -/
theorem inert_of_echo_agrees (builtIn : e.BuiltIn) {name word : String} {v : Value}
    (hname : Template.isName name.toList) (hfunction : e.functions.get? name = none)
    (hecho : e.scenario.functions.get? name = some echo)
    (hword : Template.isIdentifier word.toList) (hv : e.lookup ctx word = some v)
    (h : ∀ later, ctx.SameVariables later →
      e.CallAgrees later name [.pair "value" (some word)] .reference) : e.Inert ctx v := by
  rw [inert_iff_yields builtIn]
  intro later hlater
  have hkeywords : e.keywords? name = some ["value"] := by
    simp [keywords?, hfunction, hecho, echo, Keyed.keys]
  have hlookup : e.lookup later word = some v := (lookup_congr hlater word).trans hv
  have hreference := yields_reference builtIn hword hlookup later (.refl later)
  have hagrees := (callAgrees_iff builtIn (readable_echo hname hword) hkeywords later _).1
    (h later hlater)
  simp only [evaluateFieldsWith_echo hfunction hecho, on_callWith_echo builtIn, hreference,
    argument_of_lookup hword hlookup] at hagrees
  have hcall := (hagrees _ (by simp)).2 rfl
  rcases hvalue : (e.limit v).on later with ⟨stop | result, after⟩
  · simp [hvalue] at hcall
  · simp only [hvalue, Prod.mk.injEq, Except.ok.injEq] at hcall
    obtain ⟨rfl, hafter⟩ := hcall
    obtain rfl : after = later := by
      by_cases haction : result.isAction
      · cases after
        cases later
        simpa [haction] using hafter
      · simpa [haction] using hafter
    rfl

/-- A call in short notation takes the values of its arguments for templates: it does what
the descriptor does in which they are the parameters.  So it does what the descriptor with
references to its arguments does, with the same outcome and the same changes, provided that
these values are inert.  The proviso is needed: an argument of a function that hands it back
has to be inert if the call and the descriptor agree. -/
theorem call_agrees_where_inert (builtIn : e.BuiltIn) (ctx : Context σ) :
    (∀ name keywords ps, Shorthand.Readable name keywords ps → e.keywords? name = some keywords →
      e.CallAgrees ctx name ps (e.argument ctx)) ∧
    (∀ name keywords ps, Shorthand.Readable name keywords ps → e.keywords? name = some keywords →
      (∀ part ∈ ps, (name, part.key) ∉ withheld) →
      (∀ part ∈ ps, ∀ word ∈ part.arguments, Template.isIdentifier word.toList ∧
        ∃ v, e.lookup ctx word = some v ∧ e.Inert ctx v) →
      e.CallAgrees ctx name ps .reference) ∧
    ∀ name word v, Template.isName name.toList → e.functions.get? name = none →
      e.scenario.functions.get? name = some echo → Template.isIdentifier word.toList →
      e.lookup ctx word = some v →
      (∀ later, ctx.SameVariables later →
        e.CallAgrees later name [.pair "value" (some word)] .reference) → e.Inert ctx v := by
  refine ⟨?_, ?_, ?_⟩
  · intro name keywords ps hreadable hkeywords
    exact callAgrees_argument builtIn hreadable hkeywords ctx
  · intro name keywords ps hreadable hkeywords hkeys hresolves
    exact callAgrees_reference builtIn hreadable hkeywords hkeys hresolves
  · intro name word v hname hfunction hecho hword hv h
    exact inert_of_echo_agrees builtIn hname hfunction hecho hword hv h

/-- Flags are inert. -/
theorem call_agrees_on_flag :
    let e := solitary { functions := [("Echo", echo)] }
    let ctx := Context.solitary [("x", .bool true)]
    e.BuiltIn ∧ e.CallAgrees ctx "Echo" [.pair "value" (some "x")] .reference ∧
      e.Inert ctx (.bool true) := by
  intro e ctx
  have hinert (later : Context Unit) : e.Inert later (.bool true) := fun _ _ => ⟨1, rfl⟩
  have hlookup : e.lookup ctx "x" = some (.bool true) := by cbv
  have hname : Template.isName "Echo".toList := by decide
  have hword : Template.isIdentifier "x".toList := by decide
  have hfunction : e.functions.get? "Echo" = none := by cbv
  have hagrees (later : Context Unit) (hlater : ctx.SameVariables later) :
      e.CallAgrees later "Echo" [.pair "value" (some "x")] .reference := by
    refine (call_agrees_where_inert (solitary_builtIn _) later).2.1 "Echo" ["value"] _
      (readable_echo hname hword) (by cbv) ?_ ?_
    · simp [withheld]
    · intro part hpart word hmem
      obtain rfl := List.mem_singleton.1 hpart
      obtain rfl := List.mem_singleton.1 hmem
      exact ⟨hword, .bool true, (lookup_congr hlater "x").trans hlookup, hinert later⟩
  refine ⟨solitary_builtIn _, hagrees ctx (.refl ctx), ?_⟩
  exact (call_agrees_where_inert (solitary_builtIn _) ctx).2.2 "Echo" "x" _ hname hfunction rfl
    hword hlookup hagrees

/-- A call hands on what its argument refers to, where the descriptor hands on the
argument. -/
theorem call_interpolates_values :
    ¬ (solitary {}).CallAgrees
      (Context.solitary [("x", .string "\x7b\x7by\x7d\x7d"), ("y", .string "secret")])
      "JoinToString" [.run ["x"]] .reference := by
  let ctx := Context.solitary [("x", .string "\x7b\x7by\x7d\x7d"), ("y", .string "secret")]
  let call : Value := .string "\x7b\x7bJoinToString:values:x\x7d\x7d"
  let fields : Fields :=
    [("function", .string "JoinToString"), ("values", .array [.string "\x7b\x7bx\x7d\x7d"])]
  have hcall : (((solitary {}).interpolate 4 call).on ctx).1 = .ok (.string "secret") := by cbv
  have hfields : (((solitary {}).evaluate 4 (.object fields)).on ctx).1 =
      .ok (.string "\x7b\x7by\x7d\x7d") := by cbv
  have hended : (((solitary {}).evaluate 4 (.object fields)).on ctx).1 ≠ .error .exhausted := by
    rw [hfields]
    simp
  have hended' : (((solitary {}).interpolate 4 call).on ctx).1 ≠ .error .exhausted := by
    rw [hcall]
    simp
  intro h
  have hdescriptor := (exists_interpolate_iff (solitary_builtIn {}) hended).1
    ((h _ hended).2 ⟨4, rfl⟩)
  have hwritten := (exists_interpolate_iff (solitary_builtIn {}) hended').1 ⟨4, rfl⟩
  have houtcome := congrArg Prod.fst (hdescriptor.symm.trans hwritten)
  rw [hfields, hcall] at houtcome
  simp at houtcome

end Engine
end Dialogue
