import Dialogue.Text.Blank

/-!
# Templates

A token is an expression without braces between two opening and two closing braces.  A
text is cut into characters and tokens from left to right; at every place a token is
taken if there is one.  Nothing is lost: the written forms of the segments, joined, are
the text.
-/

namespace Dialogue
namespace Template

/-- A piece of a template. -/
inductive Segment where
  | char (c : Char)
  | token (inner : List Char)
deriving DecidableEq, Repr

/-- Characters that cannot stand inside a token. -/
def isBrace (c : Char) : Bool := c = '\x7b' || c = '\x7d'

/-- The inside of a token at the front of a text, and what follows the token. -/
def token? : List Char → Option (List Char × List Char)
  | '\x7b' :: '\x7b' :: rest =>
    match rest.dropWhile (fun c => !isBrace c) with
    | '\x7d' :: '\x7d' :: after => some (rest.takeWhile (fun c => !isBrace c), after)
    | _ => none
  | _ => none

theorem token?_eq_some {cs inner after : List Char} (h : token? cs = some (inner, after)) :
    cs = '\x7b' :: '\x7b' :: (inner ++ '\x7d' :: '\x7d' :: after) := by
  unfold token? at h
  split at h
  · rename_i rest
    split at h
    · rename_i tail heq
      simp only [Option.some.injEq, Prod.mk.injEq] at h
      obtain ⟨rfl, rfl⟩ := h
      have := List.takeWhile_append_dropWhile (p := fun c => !isBrace c) (l := rest)
      rw [heq] at this
      rw [this]
    · simp at h
  · simp at h

theorem length_lt_of_token? {cs inner after : List Char} (h : token? cs = some (inner, after)) :
    after.length < cs.length := by
  rw [token?_eq_some h]
  simp only [List.length_cons, List.length_append]
  omega

set_option linter.unusedVariables false in
/-- The segments of a text. -/
def segments (cs : List Char) : List Segment :=
  match cs with
  | [] => []
  | c :: rest =>
    match h : token? (c :: rest) with
    | some (inner, after) => .token inner :: segments after
    | none => .char c :: segments rest
termination_by cs.length
decreasing_by
  · exact length_lt_of_token? h
  · simp

/-- The written form of a segment. -/
def Segment.source : Segment → List Char
  | .char c => [c]
  | .token inner => '\x7b' :: '\x7b' :: (inner ++ ['\x7d', '\x7d'])

/-- The expression of a token, without blanks around it. -/
def expression (inner : List Char) : String :=
  String.ofList (Text.trimmed inner)

/-- The segments of a text are the text. -/
theorem flatMap_source_segments (cs : List Char) : (segments cs).flatMap Segment.source = cs := by
  fun_induction segments cs with
  | case1 => rfl
  | case2 c rest inner after h ih =>
    rw [List.flatMap_cons, ih, Segment.source, token?_eq_some h]
    simp
  | case3 c rest h ih => simp [List.flatMap_cons, ih, Segment.source]

/-- Letters, digits and the underscore. -/
def isWordChar (c : Char) : Bool := c.isAlphanum || c = '_'

/-- A word that does not start with a digit. -/
def isName (cs : List Char) : Bool :=
  match cs with
  | [] => false
  | c :: rest => (c.isAlpha || c = '_') && rest.all isWordChar

/-- Words between points, of which the first is a name. -/
def isIdentifier (cs : List Char) : Bool :=
  match Text.cutAt (· = '.') cs with
  | [] => false
  | first :: rest => isName first && rest.all fun word => !word.isEmpty && word.all isWordChar

/-- An expression that calls a function in short notation: the function's name, and the
arguments after the first colon. -/
def call? (expression : String) : Option (String × String) :=
  let cs := expression.toList
  match cs.dropWhile (· != ':') with
  | [] => none
  | _ :: args =>
    let name := Text.trimmed (cs.takeWhile (· != ':'))
    if isName name then some (String.ofList name, String.ofList args) else none

end Template
end Dialogue
