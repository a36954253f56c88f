import Dialogue.Json.Document

/-!
# Reading JSON text

The reader accepts strict JSON: one value between blanks, no comments, no trailing
commas, no leading zeros, no raw control characters in texts.  It recognises the shape
of the whole text first (`Document.read?`); numbers and texts get their values on the
way, or are marked as flaws.
-/

namespace Dialogue
namespace Json

/-- The four blanks that JSON allows between tokens. -/
def isSpace (c : Char) : Bool :=
  c = ' ' || c = '\n' || c = '\t' || c = '\r'

/-- What follows the blanks at the front. -/
def skipSpace (cs : List Char) : List Char :=
  cs.dropWhile isSpace

/-- A piece of a quoted text: a character, or a UTF-16 unit written as an escape. -/
inductive Piece where
  | char (c : Char)
  | unit (n : Nat)
deriving DecidableEq

/-- The value of a hexadecimal digit. -/
def hexValue? (c : Char) : Option Nat :=
  if c.isDigit then some (c.toNat - '0'.toNat)
  else if 'a' ≤ c ∧ c ≤ 'f' then some (c.toNat - 'a'.toNat + 10)
  else if 'A' ≤ c ∧ c ≤ 'F' then some (c.toNat - 'A'.toNat + 10)
  else none

/-- The unit that four hexadecimal digits denote. -/
def unit? (a b c d : Char) : Option Nat := do
  let a ← hexValue? a
  let b ← hexValue? b
  let c ← hexValue? c
  let d ← hexValue? d
  some (((a * 16 + b) * 16 + c) * 16 + d)

/-- The character behind a one-letter escape. -/
def shortEscape? : Char → Option Char
  | '"' => some '"'
  | '\\' => some '\\'
  | '/' => some '/'
  | 'b' => some '\x08'
  | 'f' => some '\x0c'
  | 'n' => some '\n'
  | 'r' => some '\r'
  | 't' => some '\t'
  | _ => none

/-- The pieces of a quoted text up to its closing quote, and what follows the quote.
`done` holds the pieces read so far, last first. -/
def quoted? (done : List Piece) : List Char → Option (List Piece × List Char)
  | [] => none
  | '"' :: rest => some (done.reverse, rest)
  | '\\' :: 'u' :: a :: b :: c :: d :: rest =>
    match unit? a b c d with
    | some n => quoted? (.unit n :: done) rest
    | none => none
  | '\\' :: c :: rest =>
    match shortEscape? c with
    | some e => quoted? (.char e :: done) rest
    | none => none
  | c :: rest =>
    if c = '\\' || c.toNat < 0x20 then none else quoted? (.char c :: done) rest

/-- The first half of a surrogate pair. -/
def isLead (n : Nat) : Bool := 0xD800 ≤ n && n < 0xDC00

/-- The second half of a surrogate pair. -/
def isTrail (n : Nat) : Bool := 0xDC00 ≤ n && n < 0xE000

/-- Joins surrogate pairs.  A half without its partner has no character. -/
def characters? (done : List Char) : List Piece → Option (List Char)
  | [] => some done.reverse
  | .char c :: rest => characters? (c :: done) rest
  | .unit n :: .unit m :: rest =>
    if isLead n then
      if isTrail m then
        characters? (Char.ofNat (0x10000 + (n - 0xD800) * 0x400 + (m - 0xDC00)) :: done) rest
      else none
    else if isTrail n then none
    else characters? (Char.ofNat n :: done) (.unit m :: rest)
  | .unit n :: rest =>
    if isLead n || isTrail n then none else characters? (Char.ofNat n :: done) rest

/-- The text that pieces denote. -/
def text? (pieces : List Piece) : Option String :=
  (characters? [] pieces).map String.ofList

/-- An integer literal.  Beyond 64 bits it is a float, and so is minus zero. -/
def integer? (negative : Bool) (digits : List Char) : Option Number :=
  let n := Decimal.ofDigits 0 digits
  let float? := (Decimal.Literal.toFloat? { negative, digits, exponent := 0 }).map Number.float
  if negative then
    if n = 0 ∨ n > Nat.pow 2 63 then float? else some (.int (-(n : Int)))
  else if n < Nat.pow 2 64 then some (.int n)
  else float?

/-- The exponent part of a number, if there is one, and what follows it. -/
def exponentPart? (cs : List Char) : Option (Option Int × List Char) :=
  match cs with
  | c :: rest =>
    if c = 'e' || c = 'E' then
      let (negative, rest) := Decimal.spanSign rest
      let (digits, rest) := Decimal.spanDigits rest
      (Decimal.digits? digits).map fun n => (some (if negative then -(n : Int) else n), rest)
    else some (none, cs)
  | [] => some (none, [])

/-- A number without its sign, and what follows it. -/
def unsigned? (negative : Bool) (cs : List Char) : Option (Option Number × List Char) := do
  let (whole, rest) := Decimal.spanDigits cs
  if whole.isEmpty || (whole.length > 1 && whole.head? == some '0') then none
  let (fraction, rest) ← match rest with
    | '.' :: rest =>
      let (fraction, rest) := Decimal.spanDigits rest
      if fraction.isEmpty then none else some (some fraction, rest)
    | _ => some (none, rest)
  let (exponent, rest) ← exponentPart? rest
  if fraction.isNone && exponent.isNone then some (integer? negative whole, rest)
  else
    let fraction := fraction.getD []
    let literal : Decimal.Literal :=
      { negative, digits := whole ++ fraction, exponent := exponent.getD 0 - fraction.length }
    some (literal.toFloat?.map Number.float, rest)

end Json

namespace Document

open Json

mutual

/-- A value at the front of a text, and what follows it.  Each nested call uses up one
unit of `fuel`; a text of `n` characters never needs more than `2 * n + 2`. -/
def value (fuel : Nat) (cs : List Char) : Option (Document × List Char) :=
  match fuel with
  | 0 => none
  | fuel + 1 =>
    match skipSpace cs with
    | 'n' :: 'u' :: 'l' :: 'l' :: rest => some (.null, rest)
    | 't' :: 'r' :: 'u' :: 'e' :: rest => some (.bool true, rest)
    | 'f' :: 'a' :: 'l' :: 's' :: 'e' :: rest => some (.bool false, rest)
    | '"' :: rest => (quoted? [] rest).map fun (pieces, rest) => (.string (text? pieces), rest)
    | '-' :: rest => (unsigned? true rest).map fun (n, rest) => (.number n, rest)
    | '[' :: rest =>
      match skipSpace rest with
      | ']' :: rest => some (.array [], rest)
      | rest => items fuel [] rest
    | '\x7b' :: rest =>
      match skipSpace rest with
      | '\x7d' :: rest => some (.object [], rest)
      | rest => members fuel [] rest
    | rest => (unsigned? false rest).map fun (n, rest) => (.number n, rest)

/-- The items of an array from one item on; `done` holds the items before it, last
first. -/
def items (fuel : Nat) (done : List Document) (cs : List Char) :
    Option (Document × List Char) :=
  match fuel with
  | 0 => none
  | fuel + 1 =>
    match value fuel cs with
    | none => none
    | some (item, rest) =>
      match skipSpace rest with
      | ',' :: rest => items fuel (item :: done) rest
      | ']' :: rest => some (.array (item :: done).reverse, rest)
      | _ => none

/-- The members of an object from one member on. -/
def members (fuel : Nat) (done : List (Option String × Document)) (cs : List Char) :
    Option (Document × List Char) :=
  match fuel with
  | 0 => none
  | fuel + 1 =>
    match skipSpace cs with
    | '"' :: rest =>
      match quoted? [] rest with
      | none => none
      | some (pieces, rest) =>
        match skipSpace rest with
        | ':' :: rest =>
          match value fuel rest with
          | none => none
          | some (item, rest) =>
            match skipSpace rest with
            | ',' :: rest => members fuel ((text? pieces, item) :: done) rest
            | '\x7d' :: rest => some (.object ((text? pieces, item) :: done).reverse, rest)
            | _ => none
        | _ => none
    | _ => none

end

/-- The document that a whole text holds. -/
def read? (text : String) : Option Document :=
  let cs := text.toList
  match value (2 * cs.length + 2) cs with
  | some (document, rest) => if (skipSpace rest).isEmpty then some document else none
  | none => none

end Document

namespace Value

/-- The value that a JSON text denotes. -/
def read? (text : String) : Option Value :=
  (Document.read? text).bind (Document.value? Document.depthLimit)

end Value
end Dialogue
