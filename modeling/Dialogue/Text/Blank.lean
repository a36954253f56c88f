/-!
# Blank characters

White space is the Unicode property `White_Space`, not the ASCII notion of
`Char.isWhitespace`: trimming a reply, splitting a console line and the padding
inside a template token all use the same set.

The functions work on character lists, which is the form the laws are stated
for, and are wrapped once for `String`.
-/

namespace Dialogue
namespace Text

/-- The Unicode property `White_Space`. -/
def isBlank (c : Char) : Bool :=
  let n := c.toNat
  (9 ≤ n && n ≤ 13) || n == 0x20 || n == 0x85 || n == 0xA0 || n == 0x1680 ||
    (0x2000 ≤ n && n ≤ 0x200A) || n == 0x2028 || n == 0x2029 || n == 0x202F ||
    n == 0x205F || n == 0x3000

/-- The list without its blank ends. -/
def trimmed (cs : List Char) : List Char :=
  (cs.dropWhile isBlank).reverse.dropWhile isBlank |>.reverse

/-- A text without its blank ends. -/
def trim (s : String) : String :=
  String.ofList (trimmed s.toList)

/-- Cuts at every character that satisfies `p`; the cut characters are dropped and
empty pieces are kept, so there is always one piece more than there are cuts. -/
def cutAt (p : Char → Bool) : List Char → List (List Char)
  | [] => [[]]
  | c :: rest =>
    if p c then
      [] :: cutAt p rest
    else
      match cutAt p rest with
      | [] => [[c]]
      | piece :: pieces => (c :: piece) :: pieces

/-- The pieces of a text between occurrences of one character. -/
def pieces (separator : Char) (s : String) : List String :=
  (cutAt (· == separator) s.toList).map String.ofList

/-- The maximal runs of characters that are not blank. -/
def words (s : String) : List String :=
  ((cutAt isBlank s.toList).filter (fun word => !word.isEmpty)).map String.ofList

/-- Whether one text occurs at the start of another. -/
def startsWith (start : String) (s : String) : Bool :=
  start.toList.isPrefixOf s.toList

theorem cutAt_ne_nil (p : Char → Bool) (cs : List Char) : cutAt p cs ≠ [] := by
  cases cs with
  | nil => simp [cutAt]
  | cons c rest =>
    simp only [cutAt]
    split
    · simp
    · split <;> simp

/-- Every character that core calls white space is blank. -/
theorem isBlank_of_isWhitespace {c : Char} (h : c.isWhitespace = true) : isBlank c = true := by
  simp only [Char.isWhitespace, Bool.or_eq_true, decide_eq_true_eq] at h
  rcases h with ((h | h) | h) | h <;> subst h <;> decide

end Text
end Dialogue
