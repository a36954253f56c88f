import Mathlib
import Dialogue.Proofs.Calls

/-!
# Written calls

A call is written as the name of its function and the words of its parts, with colons between
them.  What the parts denote can be told without reading it (`Engine.Denotes`): under each key
the value that the last part of the key gives, and the function under a key of its own.
Interpolation reads the call and evaluates the descriptor with these fields and no others.

* `Shorthand.flatMap_words_parts`: reading the words of a call loses none of them,
* `Shorthand.legible_iff`: the parts that are read back are the legible ones,
* `Engine.denotes_iff`: parts denote one collection of fields,
* `Engine.written_calls_are_read_back`: a token around a written call evaluates the descriptor
  that its parts denote.
-/

namespace Dialogue

namespace Shorthand

variable {keywords : List String}

/-! ## Reading words -/

/-- Reading the words of a call loses none of them. -/
theorem flatMap_words_parts (keywords ws : List String) :
    (parts keywords ws).flatMap Part.words = ws := by
  fun_induction parts keywords ws with
  | case1 => rfl
  | case2 rest ih =>
      rw [List.flatMap_cons, ih, Part.words, List.cons_append, List.takeWhile_append_dropWhile]
  | case3 key hkey => rfl
  | case4 key hkey argument rest ih =>
      rw [List.flatMap_cons, ih]
      rfl

/-- The first part starts with the first word. -/
theorem head?_of_parts {ws : List String} {part : Part}
    (h : part ∈ (parts keywords ws).head?) : ws.head? = some part.key := by
  obtain ⟨rest, hparts⟩ := List.head?_eq_some_iff.1 h
  rw [← flatMap_words_parts keywords ws, hparts, List.flatMap_cons, Part.words_eq]
  rfl

/-- What is read is legible, unless a key at the end has no argument. -/
theorem legible_parts {ws : List String} (h : ∀ key, .pair key none ∉ parts keywords ws) :
    Legible keywords (parts keywords ws) := by
  fun_induction parts keywords ws with
  | case1 => trivial
  | case2 rest ih =>
      refine ⟨fun word hword => ?_, fun part hpart => ?_, ?_⟩
      · simpa using List.mem_takeWhile_imp hword
      · -- the run ended at the first word of the next part
        have hend := List.head?_dropWhile_not (fun word => !isKeyword keywords word) rest
        rw [head?_of_parts hpart] at hend
        simpa using hend
      · exact ih fun key hkey => h key (List.mem_cons_of_mem _ hkey)
  | case3 key hkey => exact absurd List.mem_cons_self (h key)
  | case4 key hkey argument rest ih =>
      exact ⟨hkey, rfl, ih fun other hother => h other (List.mem_cons_of_mem _ hother)⟩

/-- Legible parts have all their arguments. -/
theorem Legible.pair_none_not_mem {ps : List Part} (h : Legible keywords ps) (key : String) :
    .pair key none ∉ ps := by
  induction ps with
  | nil => exact List.not_mem_nil
  | cons part rest ih =>
      cases part with
      | pair other argument =>
          obtain ⟨-, hargument, hrest⟩ := h
          intro hmem
          rcases List.mem_cons.1 hmem with heq | htail
          · obtain ⟨-, rfl⟩ := Part.pair.inj heq
            cases hargument
          · exact ih hrest htail
      | run arguments =>
          obtain ⟨-, -, hrest⟩ := h
          intro hmem
          exact ih hrest ((List.mem_cons.1 hmem).resolve_left (by simp))

/-- Parts with all their arguments are read back just where they are legible. -/
theorem legible_iff {ps : List Part} :
    Legible keywords ps ↔
      (∀ key, .pair key none ∉ ps) ∧ parts keywords (ps.flatMap Part.words) = ps := by
  constructor
  · intro h
    exact ⟨h.pair_none_not_mem, parts_words h⟩
  · rintro ⟨hcomplete, hread⟩
    rw [← hread] at hcomplete ⊢
    exact legible_parts hcomplete

/-! ## Parameters -/

/-- The last of the parts of a key, if it has one. -/
def last? (key : String) (ps : List Part) : Option Part :=
  (ps.filter fun part => part.key == key).getLast?

theorem last?_concat (key : String) (ps : List Part) (part : Part) :
    last? key (ps ++ [part]) = if part.key = key then some part else last? key ps := by
  rw [last?, last?, List.filter_append]
  by_cases hkey : part.key = key
  · simp [hkey]
  · simp [hkey]

theorem mem_of_last? {key : String} {ps : List Part} {part : Part}
    (h : last? key ps = some part) : part ∈ ps :=
  (List.mem_filter.1 (List.mem_of_getLast? h)).1

section

variable (argument : String → Value)

/-- Under each key is what the last part of the key gives. -/
theorem get?_params (ps : List Part) (key : String) :
    Keyed.get? (params argument ps) key = (last? key ps).map (Part.value argument) := by
  induction ps using List.reverseRecOn with
  | nil => rfl
  | append_singleton ps part ih =>
      rw [params_concat, last?_concat, Keyed.get?_put, ih]
      by_cases hkey : part.key = key
      · rw [if_pos hkey.symm, if_pos hkey, Option.map_some]
      · rw [if_neg (Ne.symm hkey), if_neg hkey]

theorem ordered_params (ps : List Part) : Keyed.Ordered (params argument ps) := by
  induction ps using List.reverseRecOn with
  | nil => exact .nil
  | append_singleton ps part ih =>
      rw [params_concat]
      exact Keyed.ordered_put ih _ _

end

end Shorthand

namespace Engine

variable {σ : Type} {e : Engine σ} {ctx : Context σ}

/-! ## What parts denote -/

/-- The value that a word is read as: that of the variable that it names, if it has one; else
the value that it writes in JSON; else the word itself. -/
inductive ReadAs (e : Engine σ) (ctx : Context σ) (word : String) : Value → Prop
  | named {v : Value} (hword : Template.isIdentifier word.toList)
      (hv : e.lookup ctx word = some v) : ReadAs e ctx word v
  | json {v : Value} (hfree : Template.isIdentifier word.toList → e.lookup ctx word = none)
      (hv : Value.read? word = some v) : ReadAs e ctx word v
  | text (hfree : Template.isIdentifier word.toList → e.lookup ctx word = none)
      (hnone : Value.read? word = none) : ReadAs e ctx word (.string word)

/-- The value that a part gives: its argument's, or the list of its arguments'. -/
inductive Gives (e : Engine σ) (ctx : Context σ) : Shorthand.Part → Value → Prop
  | pair {key word : String} {v : Value} (h : e.ReadAs ctx word v) :
      Gives e ctx (.pair key (some word)) v
  | run {words : List String} {values : List Value}
      (h : List.Forall₂ (e.ReadAs ctx) words values) : Gives e ctx (.run words) (.array values)

/-- The fields that the parts of a call denote.  Under the key of the function is its name,
whatever the parts are, and under any other key what the last part of the key gives. -/
structure Denotes (e : Engine σ) (ctx : Context σ) (name : String) (ps : List Shorthand.Part)
    (fields : Fields) : Prop where
  ordered : Keyed.Ordered fields
  function : fields.get? Value.functionKey = some (.string name)
  parameter : ∀ key v, key ≠ Value.functionKey →
    (fields.get? key = some v ↔ ∃ part, Shorthand.last? key ps = some part ∧ e.Gives ctx part v)

/-- The three ways of reading a word are those of an argument. -/
theorem readAs_iff {word : String} {v : Value} :
    e.ReadAs ctx word v ↔ e.argument ctx word = v := by
  have hargument (hfree : Template.isIdentifier word.toList → e.lookup ctx word = none) :
      e.argument ctx word = (Value.read? word).getD (.string word) := by
    have hbound : (if Template.isIdentifier word.toList then e.lookup ctx word else none) =
        none := by
      simpa using hfree
    simp only [argument, hbound]
  constructor
  · intro h
    cases h with
    | named hword hv => exact argument_of_lookup hword hv
    | json hfree hv => rw [hargument hfree, hv, Option.getD_some]
    | text hfree hnone => rw [hargument hfree, hnone, Option.getD_none]
  · rintro rfl
    by_cases hfree : Template.isIdentifier word.toList → e.lookup ctx word = none
    · rw [hargument hfree]
      cases hv : Value.read? word with
      | some v => exact .json hfree hv
      | none => exact .text hfree hv
    · obtain ⟨hword, hbound⟩ := Classical.not_imp.1 hfree
      obtain ⟨v, hv⟩ := Option.ne_none_iff_exists'.1 hbound
      rw [argument_of_lookup hword hv]
      exact .named hword hv

/-- A part with all its arguments gives one value. -/
theorem gives_iff {part : Shorthand.Part} {v : Value} (hpart : ∀ key, part ≠ .pair key none) :
    e.Gives ctx part v ↔ part.value (e.argument ctx) = v := by
  match part with
  | .pair key none => exact absurd rfl (hpart key)
  | .pair key (some word) =>
      show e.Gives ctx (.pair key (some word)) v ↔ e.argument ctx word = v
      rw [← readAs_iff]
      constructor
      · rintro ⟨h⟩
        exact h
      · exact .pair
  | .run words =>
      show e.Gives ctx (.run words) v ↔ .array (words.map (e.argument ctx)) = v
      have hread : e.ReadAs ctx = fun word v => e.argument ctx word = v :=
        funext fun _ => funext fun _ => propext readAs_iff
      have hvalues (values : List Value) :
          List.Forall₂ (e.ReadAs ctx) words values ↔ words.map (e.argument ctx) = values := by
        rw [hread, ← List.forall₂_map_left_iff, List.forall₂_eq_eq_eq]
      constructor
      · rintro (_ | h)
        rw [(hvalues _).1 h]
      · rintro rfl
        exact .run ((hvalues _).2 rfl)

/-- The parts of a call denote what is read from them, and nothing else. -/
theorem denotes_iff {name : String} {ps : List Shorthand.Part} {fields : Fields}
    (hcomplete : ∀ key, .pair key none ∉ ps) :
    e.Denotes ctx name ps fields ↔
      fields = (Shorthand.params (e.argument ctx) ps).put Value.functionKey (.string name) := by
  have hparameter (key : String) (v : Value) :
      Keyed.get? (Shorthand.params (e.argument ctx) ps) key = some v ↔
        ∃ part, Shorthand.last? key ps = some part ∧ e.Gives ctx part v := by
    rw [Shorthand.get?_params, Option.map_eq_some_iff]
    refine exists_congr fun part => and_congr_right fun hlast => ?_
    refine (gives_iff fun key hkey => ?_).symm
    exact hcomplete key (hkey ▸ Shorthand.mem_of_last? hlast)
  have hordered := Keyed.ordered_put (Shorthand.ordered_params (e.argument ctx) ps)
    Value.functionKey (.string name)
  constructor
  · intro h
    refine Keyed.eq_of_get?_eq h.ordered hordered fun key => ?_
    rw [Keyed.get?_put]
    split
    · rename_i hkey
      rw [hkey, h.function]
    · rename_i hkey
      ext v
      rw [h.parameter key v hkey, hparameter]
  · rintro rfl
    refine ⟨hordered, Keyed.get?_put_self _ _ _, fun key v hkey => ?_⟩
    rw [Keyed.get?_put_of_ne _ _ hkey, hparameter]

/-! ## Calls -/

/-- Reading a call undoes writing it: the parts are the ones that were written.  So the token
around the call evaluates the descriptor with just the fields that the parts denote.  It has the
value that the function answers and the failures of the function, and it is left as it is where
the function comes to an unknown name. -/
theorem written_calls_are_read_back {name : String} {keywords : List String}
    {ps : List Shorthand.Part} (hreadable : Shorthand.Readable name keywords ps)
    (hkeywords : e.keywords? name = some keywords) (bound : Nat) (ctx : Context σ) :
    Shorthand.parts keywords (Shorthand.words (Shorthand.write ps)) = ps ∧
    ∃ fields : Fields, (∀ other, e.Denotes ctx name ps other ↔ other = fields) ∧
      let token := (Shorthand.call name ps).toList
      let evaluated := e.evaluate bound (.object fields)
      (e.tokenWith (e.interpolate bound) token).on ctx =
        ((evaluated >>= fun v => pure (some v)).recover isUnknown fun _ => pure none).on ctx ∧
      (e.interpolate (bound + 1) (.string (Template.write token))).on ctx =
        (evaluated.recover isUnknown fun _ => pure (.string (Template.write token))).on ctx := by
  obtain ⟨hcomplete, hread⟩ := Shorthand.legible_iff.1 hreadable.legible
  refine ⟨hreadable.words_write ▸ hread, _, fun other => denotes_iff hcomplete, ?_, ?_⟩
  · exact on_tokenWith_call hreadable hkeywords (e.interpolate bound) ctx
  · exact on_interpolateWith_written hreadable hkeywords (e.interpolate bound) ctx

/-- Of two runs the last one counts, and of two separators.  A run can be empty, and the argument
of a pair may look like a keyword. -/
theorem joined_words_are_read_back :
    let e := solitary {}
    let ctx := Context.solitary [("x", .string "one")]
    let keywords := ["values", "separator", "prefix", "suffix"]
    let ps : List Shorthand.Part := [.run [], .run ["x", "true", "a b"],
      .pair "prefix" (some "values"), .pair "separator" (some "x"), .pair "separator" (some "+")]
    let fields : Fields := [("function", .string "JoinToString"), ("prefix", .string "values"),
      ("separator", .string "+"),
      ("values", .array [.string "one", .bool true, .string "a b"])]
    let call := "JoinToString:values:values:x:true:a b:prefix:values:separator:x:separator:+"
    e.keywords? "JoinToString" = some keywords ∧
      Shorthand.Readable "JoinToString" keywords ps ∧
      Shorthand.call "JoinToString" ps = call ∧
      e.Denotes ctx "JoinToString" ps fields ∧
      ((e.interpolate 4 (.string (Template.write call.toList))).on ctx).1 =
        .ok (.string "valuesone+true+a b") := by
  intro e ctx keywords ps fields call
  have hkeywords : e.keywords? "JoinToString" = some keywords := by cbv
  have hplain : ∀ word ∈ ps.flatMap Shorthand.Part.words, Shorthand.Plain word := by
    show ∀ word ∈ ["values", "values", "x", "true", "a b", "prefix", "values", "separator", "x",
      "separator", "+"], Shorthand.Plain word
    intro word hword
    fin_cases hword <;> exact ⟨by decide, by simp [Template.isBrace]⟩
  have hreadable : Shorthand.Readable "JoinToString" keywords ps := by
    refine ⟨by decide, by simp [ps], fun part hpart word hword => ?_, ?_⟩
    · exact hplain word (List.mem_flatMap.2 ⟨part, hpart, hword⟩)
    · simp [ps, keywords, Shorthand.Legible, Shorthand.isKeyword, Shorthand.valuesKey,
        Shorthand.Part.key]
  have hcall : Shorthand.call "JoinToString" ps = call := by cbv
  have hdenotes : e.Denotes ctx "JoinToString" ps fields :=
    (denotes_iff hreadable.legible.pair_none_not_mem).2 (by cbv)
  obtain ⟨-, found, hfound, -, hvalue⟩ := written_calls_are_read_back hreadable hkeywords 3 ctx
  obtain rfl := (hfound fields).1 hdenotes
  rw [hcall] at hvalue
  refine ⟨hkeywords, hreadable, hcall, hdenotes, ?_⟩
  rw [hvalue]
  cbv

end Engine
end Dialogue
