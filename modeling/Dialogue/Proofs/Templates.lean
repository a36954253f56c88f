import Mathlib
import Dialogue.Engine.Template

/-!
# Reading templates

Names and dotted paths consist of characters that mean nothing to a template, so a token
around one is read back as it was written, and so is a call of a function by its name.
-/

namespace Dialogue

namespace Text

theorem length_trimmed_le (cs : List Char) : (trimmed cs).length ≤ cs.length := by
  have hleft := (List.dropWhile_suffix isBlank (l := cs)).length_le
  have hright := (List.dropWhile_suffix isBlank (l := (cs.dropWhile isBlank).reverse)).length_le
  rw [List.length_reverse] at hright
  rw [trimmed, List.length_reverse]
  exact Nat.le_trans hright hleft

/-- Pieces take up the text, less one character for each cut. -/
theorem length_cutAt (p : Char → Bool) (cs : List Char) :
    ((cutAt p cs).map fun piece => piece.length + 1).sum = cs.length + 1 := by
  induction cs with
  | nil => rfl
  | cons c rest ih =>
      rw [cutAt]
      split
      · simp only [List.map_cons, List.sum_cons, List.length_nil, ih, List.length_cons]
        omega
      · split
        · rename_i h
          exact absurd h (cutAt_ne_nil p rest)
        · rename_i piece pieces h
          rw [h] at ih
          simp only [List.map_cons, List.sum_cons, List.length_cons] at ih ⊢
          omega

/-- A text without blanks at its ends is its own trimmed form. -/
theorem trimmed_eq_self {cs : List Char} (hfirst : ∀ c ∈ cs.head?, isBlank c = false)
    (hlast : ∀ c ∈ cs.getLast?, isBlank c = false) : trimmed cs = cs := by
  have hdrop (ds : List Char) (h : ∀ c ∈ ds.head?, isBlank c = false) :
      ds.dropWhile isBlank = ds := by
    cases ds with
    | nil => rfl
    | cons c rest => exact List.dropWhile_cons_of_neg (by simp [h c rfl])
  rw [trimmed, hdrop cs hfirst, hdrop cs.reverse (by simpa using hlast), List.reverse_reverse]

theorem last_trimmed (cs : List Char) : ∀ c ∈ (trimmed cs).getLast?, isBlank c = false := by
  intro c hc
  rw [trimmed, List.getLast?_reverse] at hc
  have := List.head?_dropWhile_not isBlank (cs.dropWhile isBlank).reverse
  rw [hc] at this
  exact this

/-- Cutting after a piece without cuts. -/
theorem cutAt_append {p : Char → Bool} {piece : List Char} (h : ∀ c ∈ piece, p c = false)
    {c : Char} (hc : p c) (rest : List Char) :
    cutAt p (piece ++ c :: rest) = piece :: cutAt p rest := by
  induction piece with
  | nil => simp [cutAt, hc]
  | cons d piece ih =>
      have hd := h d List.mem_cons_self
      simp [cutAt, hd, ih fun c hc => h c (List.mem_cons_of_mem d hc)]

theorem cutAt_of_forall {p : Char → Bool} {piece : List Char} (h : ∀ c ∈ piece, p c = false) :
    cutAt p piece = [piece] := by
  induction piece with
  | nil => rfl
  | cons d piece ih =>
      have hd := h d List.mem_cons_self
      simp [cutAt, hd, ih fun c hc => h c (List.mem_cons_of_mem d hc)]

/-- What is appended without cuts belongs to the last piece. -/
theorem exists_last_cutAt {p : Char → Bool} {more : List Char} (h : ∀ c ∈ more, p c = false)
    (cs : List Char) : ∃ front last, cutAt p cs = front ++ [last] ∧
      cutAt p (cs ++ more) = front ++ [last ++ more] := by
  induction cs with
  | nil => exact ⟨[], [], rfl, cutAt_of_forall h⟩
  | cons c rest ih =>
      obtain ⟨front, last, hrest, hmore⟩ := ih
      rw [List.cons_append, cutAt, cutAt, hrest, hmore]
      by_cases hc : p c
      · exact ⟨[] :: front, last, by simp [hc], by simp [hc]⟩
      · cases front with
        | nil => exact ⟨[], c :: last, by simp [hc], by simp [hc]⟩
        | cons piece pieces => exact ⟨(c :: piece) :: pieces, last, by simp [hc], by simp [hc]⟩

/-- Trimming leaves what is not blank. -/
theorem trimmed_ne_nil {cs : List Char} {c : Char} (hc : c ∈ cs) (hblank : isBlank c = false) :
    trimmed cs ≠ [] := by
  intro h
  rw [trimmed, List.reverse_eq_nil_iff, List.dropWhile_eq_nil_iff] at h
  rw [← List.takeWhile_append_dropWhile (p := isBlank) (l := cs), List.mem_append] at hc
  rcases hc with hc | hc
  · rw [List.mem_takeWhile_imp hc] at hblank
    cases hblank
  · rw [h c (List.mem_reverse.2 hc)] at hblank
    cases hblank

/-- Every character is a cut or belongs to a piece. -/
theorem exists_piece_of_mem {p : Char → Bool} {cs : List Char} {c : Char} (h : c ∈ cs) :
    p c ∨ ∃ piece ∈ cutAt p cs, c ∈ piece := by
  induction cs with
  | nil => cases h
  | cons d rest ih =>
      rw [cutAt]
      split
      · rename_i hd
        rcases List.mem_cons.1 h with rfl | hrest
        · exact .inl hd
        · rcases ih hrest with hp | ⟨piece, hpiece, hc⟩
          · exact .inl hp
          · exact .inr ⟨piece, List.mem_cons_of_mem _ hpiece, hc⟩
      · cases hcut : cutAt p rest with
        | nil => exact absurd hcut (cutAt_ne_nil p rest)
        | cons piece pieces =>
            rw [hcut] at ih
            rcases List.mem_cons.1 h with rfl | hrest
            · exact .inr ⟨c :: piece, List.mem_cons_self, List.mem_cons_self⟩
            · rcases ih hrest with hp | ⟨other, hother, hc⟩
              · exact .inl hp
              · rcases List.mem_cons.1 hother with rfl | htail
                · exact .inr ⟨d :: other, List.mem_cons_self, List.mem_cons_of_mem d hc⟩
                · exact .inr ⟨other, List.mem_cons_of_mem _ htail, hc⟩

end Text

namespace Template

/-! ## Lengths -/

theorem length_inner {inner cs : List Char} (h : .token inner ∈ segments cs) :
    inner.length + 4 ≤ cs.length := by
  obtain ⟨before, after, hsegments⟩ := List.append_of_mem h
  have hsource := congrArg List.length (flatMap_source_segments cs)
  rw [hsegments] at hsource
  simp only [List.flatMap_append, List.flatMap_cons, Segment.source, List.length_append,
    List.length_cons, List.length_nil] at hsource
  omega

theorem length_args {expression name args : String} (h : call? expression = some (name, args)) :
    args.toList.length < expression.toList.length := by
  unfold call? at h
  simp only at h
  split at h
  · cases h
  · rename_i hsuffix
    have := (List.dropWhile_suffix (· != ':') (l := expression.toList)).length_le
    rw [hsuffix] at this
    split at h
    · simp only [Option.some.injEq, Prod.mk.injEq] at h
      simp only [← h.2, String.toList_ofList]
      exact this
    · cases h

/-! ## Names -/

/-- The characters of names and paths are neither blank nor marks of a template. -/
theorem isWordChar_spec {c : Char} (h : isWordChar c) :
    Text.isBlank c = false ∧ c ≠ ':' ∧ isBrace c = false := by
  have hrange : (48 ≤ c.toNat ∧ c.toNat ≤ 57) ∨ (65 ≤ c.toNat ∧ c.toNat ≤ 90) ∨
      c.toNat = 95 ∨ (97 ≤ c.toNat ∧ c.toNat ≤ 122) := by
    simp only [isWordChar, Char.isAlphanum, Char.isAlpha, Char.isUpper, Char.isLower,
      Char.isDigit, Bool.or_eq_true, Bool.and_eq_true, decide_eq_true_eq, ge_iff_le,
      UInt32.le_iff_toNat_le] at h
    rcases h with ((h | h) | h) | rfl
    · exact .inr (.inl h)
    · exact .inr (.inr (.inr h))
    · exact .inl h
    · exact .inr (.inr (.inl rfl))
  refine ⟨?_, ?_, ?_⟩
  · simp only [Text.isBlank, Bool.or_eq_false_iff, Bool.and_eq_false_iff, decide_eq_false_iff_not,
      beq_eq_false_iff_ne, ne_eq]
    omega
  · rintro rfl
    revert hrange
    decide
  · simp only [isBrace, Bool.or_eq_false_iff, decide_eq_false_iff_not]
    constructor <;> rintro rfl <;> revert hrange <;> decide

theorem isWordChar_of_isName {cs : List Char} (h : isName cs) : ∀ c ∈ cs, isWordChar c := by
  cases cs with
  | nil => simp
  | cons first rest =>
      simp only [isName, Bool.and_eq_true, List.all_eq_true] at h
      intro c hc
      rcases List.mem_cons.1 hc with rfl | hrest
      · have hfirst := h.1
        simp only [Bool.or_eq_true, decide_eq_true_eq] at hfirst
        simp only [isWordChar, Char.isAlphanum, Bool.or_eq_true, decide_eq_true_eq]
        exact hfirst.imp .inl id
      · exact h.2 c hrest

theorem isWordChar_of_isIdentifier {cs : List Char} (h : isIdentifier cs) :
    ∀ c ∈ cs, isWordChar c ∨ c = '.' := by
  intro c hc
  rcases Text.exists_piece_of_mem (p := (· = '.')) hc with hpoint | ⟨piece, hpiece, hmem⟩
  · exact .inr (by simpa using hpoint)
  · left
    unfold isIdentifier at h
    split at h
    · cases h
    · rename_i first rest hcut
      simp only [Bool.and_eq_true, List.all_eq_true] at h
      rw [hcut] at hpiece
      rcases List.mem_cons.1 hpiece with rfl | hrest
      · exact isWordChar_of_isName h.1 c hmem
      · exact (h.2 piece hrest).2 c hmem

/-! ## Writing and reading -/

/-- A token is an expression without braces between its marks. -/
theorem token?_eq_some_iff {cs inner after : List Char} :
    token? cs = some (inner, after) ↔
      (∀ c ∈ inner, isBrace c = false) ∧ cs = (Segment.token inner).source ++ after := by
  constructor
  · intro h
    refine ⟨?_, by simpa [Segment.source] using token?_eq_some h⟩
    unfold token? at h
    split at h
    · split at h
      · simp only [Option.some.injEq, Prod.mk.injEq] at h
        obtain ⟨rfl, -⟩ := h
        intro c hc
        simpa using List.mem_takeWhile_imp hc
      · cases h
    · cases h
  · rintro ⟨hinner, rfl⟩
    have hfree : ∀ c ∈ inner, (!isBrace c) = true := by simpa using hinner
    have hmark : (!isBrace '\x7d') = false := by decide
    simp [token?, Segment.source, List.dropWhile_append_of_pos hfree,
      List.takeWhile_append_of_pos hfree, hmark]

/-- The written form of a token. -/
def write (inner : List Char) : String :=
  String.ofList ('\x7b' :: '\x7b' :: (inner ++ ['\x7d', '\x7d']))

/-- A token without braces inside is read back. -/
theorem segments_write {inner : List Char} (h : ∀ c ∈ inner, isBrace c = false) :
    segments (write inner).toList = [.token inner] := by
  have htoken : token? ('\x7b' :: '\x7b' :: (inner ++ ['\x7d', '\x7d'])) = some (inner, []) :=
    token?_eq_some_iff.2 ⟨h, (List.append_nil _).symm⟩
  rw [write, String.toList_ofList, segments]
  split
  · rename_i found after hfound
    rw [htoken, Option.some.injEq, Prod.mk.injEq] at hfound
    obtain ⟨rfl, rfl⟩ := hfound
    rw [segments]
  · rename_i hnone
    rw [htoken] at hnone
    cases hnone

/-- A name and a colon before its arguments make a call. -/
theorem call?_write {name args : String} (h : isName name.toList) :
    call? (name ++ ":" ++ args) = some (name, args) := by
  have hname : ∀ c ∈ name.toList, (c != ':') = true := fun c hc => by
    simpa using (isWordChar_spec (isWordChar_of_isName h c hc)).2.1
  have htrimmed : Text.trimmed name.toList = name.toList :=
    Text.trimmed_eq_self
      (fun c hc => (isWordChar_spec (isWordChar_of_isName h c (List.mem_of_mem_head? hc))).1)
      (fun c hc => (isWordChar_spec (isWordChar_of_isName h c (List.mem_of_mem_getLast? hc))).1)
  have htext : (name ++ ":" ++ args).toList = name.toList ++ ':' :: args.toList := by
    simp
  simp only [call?, htext, List.dropWhile_append_of_pos hname, List.takeWhile_append_of_pos hname]
  simp [htrimmed, h]

/-- A word without a colon makes no call. -/
theorem call?_eq_none {expression : String} (h : ∀ c ∈ expression.toList, c ≠ ':') :
    call? expression = none := by
  have hword : ∀ c ∈ expression.toList, (c != ':') = true := fun c hc => by simpa using h c hc
  have hnone : expression.toList.dropWhile (· != ':') = [] := by
    rw [← List.append_nil expression.toList, List.dropWhile_append_of_pos hword]
    rfl
  simp [call?, hnone]

end Template
end Dialogue
