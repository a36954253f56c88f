import Dialogue.Engine.Shorthand
import Dialogue.Proofs.Keyed
import Dialogue.Proofs.Templates
import Dialogue.Proofs.Weight

/-!
# Calls in short notation

The parameters of a call come one by one from its parts, and the parts from the words
between the colons.  So the values that are read from the words of a call weigh less than
a text with the call in it.
-/

namespace Dialogue

namespace Shorthand

/-- The room that words take up, with a colon after each. -/
def room (words : List String) : Nat :=
  (words.map fun word => word.toList.length + 1).sum

@[simp] theorem room_nil : room [] = 0 := rfl

theorem room_cons (word : String) (rest : List String) :
    room (word :: rest) = word.toList.length + 1 + room rest := rfl

theorem room_append (first second : List String) :
    room (first ++ second) = room first + room second := by
  simp [room]

theorem room_words_le (args : String) : room (words args) ≤ args.toList.length + 1 := by
  have hcut := Text.length_cutAt (· == ':') args.toList
  have htrim : ∀ pieces : List (List Char),
      room ((pieces.map String.ofList).map Text.trim) ≤
        (pieces.map fun piece => piece.length + 1).sum := by
    intro pieces
    induction pieces with
    | nil => exact Nat.le_refl 0
    | cons piece rest ih =>
        have := Text.length_trimmed_le piece
        simp only [List.map_cons, room_cons, List.sum_cons, Text.trim, String.toList_ofList]
          at ih ⊢
        omega
  rw [← hcut]
  exact htrim _

/-! ## Parts -/

namespace Part

/-- The parameter that a part gives. -/
def key : Part → String
  | .pair key _ => key
  | .run _ => valuesKey

/-- The words that stand for values. -/
def arguments : Part → List String
  | .pair _ argument => argument.toList
  | .run arguments => arguments

/-- The value that a part gives to its parameter. -/
def value (argument : String → Value) : Part → Value
  | .pair _ none => .null
  | .pair _ (some word) => argument word
  | .run arguments => .array (arguments.map argument)

theorem assign_eq (argument : String → Value) (params : Fields) (part : Part) :
    part.assign argument params = params.put part.key (part.value argument) := by
  match part with
  | .pair _ none | .pair _ (some _) | .run _ => rfl

theorem words_eq (part : Part) : part.words = part.key :: part.arguments := by
  match part with
  | .pair _ none | .pair _ (some _) | .run _ => rfl

/-- A part weighs no more than the room of its words, if its arguments do. -/
theorem weight_value_le (part : Part) (argument : String → Value)
    (h : ∀ word ∈ part.arguments, (argument word).weight ≤ word.toList.length + 1) :
    (part.value argument).weight ≤ room part.words := by
  match part with
  | .pair _ none => exact Nat.zero_le _
  | .pair key (some word) =>
      have := h word (by simp [arguments])
      simp only [value, Part.words, room_cons]
      omega
  | .run words =>
      have := Value.itemsWeight_map_le argument (fun word => word.toList.length + 1) words h
      rw [value, Value.weight, Part.words, room_cons, room]
      omega

end Part

/-- The parts of a call take up no more room than its words. -/
theorem room_part_le {keywords words : List String} {part : Part}
    (h : part ∈ parts keywords words) : room part.words ≤ room words := by
  fun_induction parts keywords words with
  | case1 => cases h
  | case2 rest ih =>
      have hsplit := List.takeWhile_append_dropWhile
        (p := fun word => !isKeyword keywords word) (l := rest)
      have hrest : room rest = _ := congrArg room hsplit.symm
      rw [room_append] at hrest
      rw [room_cons, hrest]
      rcases List.mem_cons.1 h with rfl | htail
      · rw [Part.words, room_cons]
        omega
      · have := ih htail
        omega
  | case3 key hkey =>
      obtain rfl := List.mem_singleton.1 h
      exact Nat.le_refl _
  | case4 key hkey argument rest ih =>
      simp only [room_cons]
      rcases List.mem_cons.1 h with rfl | htail
      · simp only [Part.words, room_cons, room_nil]
        omega
      · have := ih htail
        omega

/-- The parameter of a further part is written last. -/
theorem params_concat (argument : String → Value) (ps : List Part) (part : Part) :
    params argument (ps ++ [part]) = (params argument ps).put part.key (part.value argument) := by
  rw [params, List.foldl_append]
  exact Part.assign_eq argument _ part

/-- Every parameter of a call is given by one of its parts. -/
theorem exists_part_of_mem_params {argument : String → Value} {parts : List Part}
    {entry : String × Value} (h : entry ∈ params argument parts) :
    ∃ part ∈ parts, entry = (part.key, part.value argument) := by
  induction parts using List.reverseRecOn with
  | nil => cases h
  | append_singleton rest part ih =>
      rw [params_concat] at h
      rcases Keyed.mem_of_mem_put h with hpart | hrest
      · exact ⟨part, by simp, hpart⟩
      · obtain ⟨other, hother, hentry⟩ := ih hrest
        exact ⟨other, List.mem_append_left _ hother, hentry⟩

/-- The parameters depend on what the words that are written stand for. -/
theorem params_congr {first second : String → Value} {ps : List Part}
    (h : ∀ part ∈ ps, ∀ word ∈ part.arguments, first word = second word) :
    params first ps = params second ps := by
  induction ps using List.reverseRecOn with
  | nil => rfl
  | append_singleton rest part ih =>
      have hvalue : part.value first = part.value second := by
        have hwords := h part (by simp)
        match part with
        | .pair _ none => rfl
        | .pair _ (some word) => exact hwords word List.mem_cons_self
        | .run arguments => exact congrArg Value.array (List.map_congr_left hwords)
      rw [params_concat, params_concat, hvalue,
        ih fun other hother => h other (List.mem_append_left _ hother)]

/-! ## Writing and reading calls -/

/-- A word that can stand between colons. -/
structure Plain (word : String) : Prop where
  trimmed : Text.trim word = word
  marks : ∀ c ∈ word.toList, c ≠ ':' ∧ Template.isBrace c = false

theorem plain_of_isIdentifier {word : String} (h : Template.isIdentifier word.toList) :
    Plain word := by
  have hchar : ∀ c ∈ word.toList,
      Text.isBlank c = false ∧ c ≠ ':' ∧ Template.isBrace c = false := by
    intro c hc
    rcases Template.isWordChar_of_isIdentifier h c hc with hword | rfl
    · exact Template.isWordChar_spec hword
    · decide
  refine ⟨?_, fun c hc => (hchar c hc).2⟩
  rw [Text.trim, Text.trimmed_eq_self, String.ofList_toList]
  · exact fun c hc => (hchar c (List.mem_of_mem_head? hc)).1
  · exact fun c hc => (hchar c (List.mem_of_mem_getLast? hc)).1

theorem mem_join {ws : List String} {c : Char} (h : c ∈ (String.intercalate ":" ws).toList) :
    c = ':' ∨ ∃ word ∈ ws, c ∈ word.toList := by
  induction ws with
  | nil => simp at h
  | cons word rest ih =>
      cases rest with
      | nil => exact .inr ⟨word, List.mem_cons_self, by simpa using h⟩
      | cons next rest =>
          rw [String.intercalate_cons_cons, String.toList_append, List.mem_append,
            String.toList_append, List.mem_append] at h
          rcases h with (hword | hcolon) | hrest
          · exact .inr ⟨word, List.mem_cons_self, hword⟩
          · exact .inl (by simpa using hcolon)
          · exact (ih hrest).imp id fun ⟨other, hother, hc⟩ =>
              ⟨other, List.mem_cons_of_mem _ hother, hc⟩

/-- Words that are written between colons are read back. -/
theorem words_join {ws : List String} (hws : ws ≠ []) (hplain : ∀ word ∈ ws, Plain word) :
    words (String.intercalate ":" ws) = ws := by
  induction ws with
  | nil => exact absurd rfl hws
  | cons word rest ih =>
      have hword := hplain word List.mem_cons_self
      have hpiece : ∀ c ∈ word.toList, (c == ':') = false := fun c hc => by
        simpa using (hword.marks c hc).1
      cases rest with
      | nil =>
          rw [String.intercalate_singleton, words, Text.pieces, Text.cutAt_of_forall hpiece]
          simp [hword.trimmed]
      | cons next rest =>
          have hrest := ih (by simp) fun other hother =>
            hplain other (List.mem_cons_of_mem _ hother)
          have htext : (String.intercalate ":" (word :: next :: rest)).toList =
              word.toList ++ ':' :: (String.intercalate ":" (next :: rest)).toList := by
            simp [String.intercalate_cons_cons]
          rw [words, Text.pieces, htext, Text.cutAt_append hpiece rfl, List.map_cons, List.map_cons,
            String.ofList_toList, hword.trimmed]
          exact congrArg _ hrest

/-- The last character of written words is not blank, nor is the colon before them. -/
theorem last_join {ws : List String} (hplain : ∀ word ∈ ws, Plain word) :
    ∀ c ∈ (':' :: (String.intercalate ":" ws).toList).getLast?, Text.isBlank c = false := by
  induction ws with
  | nil =>
      simp
      decide
  | cons word rest ih =>
      cases rest with
      | nil =>
          have hlast := Text.last_trimmed word.toList
          have hword : Text.trimmed word.toList = word.toList := by
            have htrimmed := congrArg String.toList (hplain word List.mem_cons_self).trimmed
            rwa [Text.trim, String.toList_ofList] at htrimmed
          rw [hword] at hlast
          rw [String.intercalate_singleton, List.getLast?_cons]
          rintro c ⟨⟩
          cases hc : word.toList.getLast? with
          | none => rfl
          | some last => exact hlast last hc
      | cons next rest =>
          have htext : ':' :: (String.intercalate ":" (word :: next :: rest)).toList =
              (':' :: word.toList) ++ ':' :: (String.intercalate ":" (next :: rest)).toList := by
            simp [String.intercalate_cons_cons]
          rw [htext, List.getLast?_append, Option.or_of_isSome (by simp)]
          exact ih fun other hother => hplain other (List.mem_cons_of_mem _ hother)

/-- Parts that are read back: a key of a pair is not the one that starts a run, and a run
ends where the next part starts. -/
def Legible (keywords : List String) : List Part → Prop
  | [] => True
  | .pair key argument :: rest => key ≠ valuesKey ∧ argument.isSome ∧ Legible keywords rest
  | .run arguments :: rest =>
    (∀ word ∈ arguments, isKeyword keywords word = false) ∧
      (∀ part ∈ rest.head?, isKeyword keywords part.key) ∧ Legible keywords rest

theorem parts_words {keywords : List String} {ps : List Part} (h : Legible keywords ps) :
    parts keywords (ps.flatMap Part.words) = ps := by
  induction ps with
  | nil => simp [parts]
  | cons part rest ih =>
      cases part with
      | pair key argument =>
          obtain ⟨hkey, hargument, hrest⟩ := h
          obtain ⟨word, rfl⟩ := Option.isSome_iff_exists.1 hargument
          simp only [List.flatMap_cons, Part.words, List.cons_append, List.nil_append]
          rw [parts]
          simp only [hkey, if_false, ih hrest]
      | run arguments =>
          obtain ⟨harguments, hnext, hrest⟩ := h
          have hall : ∀ word ∈ arguments, (!isKeyword keywords word) = true := by
            simpa using harguments
          have hend :
              (rest.flatMap Part.words).takeWhile (fun word => !isKeyword keywords word) = [] ∧
              (rest.flatMap Part.words).dropWhile (fun word => !isKeyword keywords word) =
                rest.flatMap Part.words := by
            cases rest with
            | nil => exact ⟨rfl, rfl⟩
            | cons next rest =>
                have hkeyword := hnext next rfl
                simp [Part.words_eq, hkeyword]
          simp only [List.flatMap_cons, Part.words, List.cons_append]
          rw [parts.eq_def]
          simp only [if_true, List.takeWhile_append_of_pos hall, List.dropWhile_append_of_pos hall,
            hend.1, hend.2, List.append_nil, ih hrest]

/-- The written form of a call. -/
def call (name : String) (ps : List Part) : String := name ++ ":" ++ write ps

/-- What has to hold of a call for its written form to be read back. -/
structure Readable (name : String) (keywords : List String) (ps : List Part) : Prop where
  isName : Template.isName name.toList
  nonempty : ps ≠ []
  plain : ∀ part ∈ ps, ∀ word ∈ part.words, Plain word
  legible : Legible keywords ps

namespace Readable

variable {name : String} {keywords : List String} {ps : List Part}

theorem words_write (h : Readable name keywords ps) : words (write ps) = ps.flatMap Part.words := by
  refine words_join ?_ fun word hword => ?_
  · obtain ⟨part, rest, hps⟩ := List.exists_cons_of_ne_nil h.nonempty
    simp [hps, Part.words_eq]
  · obtain ⟨part, hpart, hword⟩ := List.mem_flatMap.1 hword
    exact h.plain part hpart word hword

theorem parts_write (h : Readable name keywords ps) : parts keywords (words (write ps)) = ps := by
  rw [h.words_write, parts_words h.legible]

theorem segments_write (h : Readable name keywords ps) :
    Template.segments (Template.write (call name ps).toList).toList =
      [.token (call name ps).toList] := by
  refine Template.segments_write fun c hc => ?_
  simp only [call, String.toList_append, List.mem_append] at hc
  rcases hc with (hname | hcolon) | hwords
  · exact (Template.isWordChar_spec (Template.isWordChar_of_isName h.isName c hname)).2.2
  · obtain rfl : c = ':' := by simpa using hcolon
    decide
  · rcases mem_join hwords with rfl | ⟨word, hword, hc⟩
    · decide
    · obtain ⟨part, hpart, hword⟩ := List.mem_flatMap.1 hword
      exact ((h.plain part hpart word hword).marks c hc).2

theorem expression_call (h : Readable name keywords ps) :
    Template.expression (call name ps).toList = call name ps := by
  have hplain : ∀ word ∈ ps.flatMap Part.words, Plain word := fun word hword => by
    obtain ⟨part, hpart, hword⟩ := List.mem_flatMap.1 hword
    exact h.plain part hpart word hword
  have htext : (call name ps).toList = name.toList ++ ':' :: (write ps).toList := by
    simp [call]
  rw [Template.expression, Text.trimmed_eq_self, String.ofList_toList]
  · intro c hc
    obtain ⟨first, rest, hname⟩ : ∃ first rest, name.toList = first :: rest := by
      refine List.exists_cons_of_ne_nil fun hnil => ?_
      have := h.isName
      rw [hnil] at this
      cases this
    rw [htext, hname] at hc
    obtain rfl := Option.some.inj hc
    have hfirst := Template.isWordChar_of_isName h.isName first (by simp [hname])
    exact (Template.isWordChar_spec hfirst).1
  · intro c hc
    rw [htext, List.getLast?_append, Option.or_of_isSome (by simp)] at hc
    exact last_join hplain c hc

theorem call?_expression (h : Readable name keywords ps) :
    Template.call? (Template.expression (call name ps).toList) = some (name, write ps) := by
  rw [h.expression_call]
  exact Template.call?_write h.isName

end Readable

end Shorthand
end Dialogue
