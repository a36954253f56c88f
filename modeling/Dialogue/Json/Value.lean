import Dialogue.Decimal.Reading
import Dialogue.Keyed

/-!
# Values

A scenario is written in JSON, and everything that its author can name (data, inputs,
answers of an endpoint, descriptors of actions and functions) is a JSON value.  An
integer and a float are different numbers, also when they are equal in size: `5` and
`5.0` are written differently.
-/

namespace Dialogue

/-- A JSON number: an integer of 64 bits, signed or not, or a finite float. -/
inductive Number where
  | int (n : Int)
  | float (x : Float)

/-- A JSON value. -/
inductive Value where
  | null
  | bool (b : Bool)
  | number (n : Number)
  | string (s : String)
  | array (items : List Value)
  | object (fields : List (String × Value))

instance : Inhabited Value := ⟨.null⟩

/-- Values under names: the fields of an object, a frame of variables, session data. -/
abbrev Fields := Keyed Value

namespace Number

/-- The integers that a number can hold. -/
def Fits (n : Int) : Prop := -9223372036854775808 ≤ n ∧ n < 18446744073709551616

instance (n : Int) : Decidable (Fits n) := inferInstanceAs (Decidable (_ ∧ _))

/-- The nearest float. -/
def toFloat : Number → Float
  | .int n => Float.ofInt n
  | .float x => x

/-- The integer part of a finite float that has no fraction. -/
def wholePart? (x : Float) : Option Int :=
  let bits := x.toBits.toNat
  let fraction : Nat := bits % Nat.pow 2 52
  let biased : Nat := bits / Nat.pow 2 52 % Nat.pow 2 11
  let negative : Bool := bits / Nat.pow 2 63 = 1
  let mantissa := if biased = 0 then fraction else Nat.pow 2 52 + fraction
  let exponent : Int := (if biased = 0 then 1 else biased : Nat) - 1075
  let magnitude? : Option Nat :=
    if biased = 2047 then none
    else if exponent ≥ 0 then some (mantissa * Nat.pow 2 exponent.toNat)
    else if mantissa % Nat.pow 2 (-exponent).toNat = 0 then
      some (mantissa / Nat.pow 2 (-exponent).toNat)
    else none
  magnitude?.map fun m => if negative then -(m : Int) else m

/-- Whole floats below this size are treated as integers. -/
def wholeLimit : Int := 9000000000000000

/-- The integer that a float stands for when it is whole and below `wholeLimit`. -/
def smallWhole? (x : Float) : Option Int :=
  (wholePart? x).filter fun n => n.natAbs < wholeLimit

/-- The number that represents a float: an integer if it is small and whole, nothing
if it is not finite. -/
def ofFloat? (x : Float) : Option Number :=
  match smallWhole? x with
  | some n => some (.int n)
  | none => (Decimal.finite? x).map .float

end Number

namespace Value

/-- A whole number as a value. -/
def ofNat (n : Nat) : Value := .number (.int n)

/-- An integer as a value. -/
def ofInt (n : Int) : Value := .number (.int n)

/-- A text or null. -/
def ofText? : Option String → Value
  | some s => .string s
  | none => .null

/-- A list of texts. -/
def ofTexts (texts : List String) : Value :=
  .array (texts.map .string)

/-- An object from fields in any order. -/
def record (fields : List (String × Value)) : Value :=
  .object (Keyed.ofEntries fields)

/-- The text of a string value. -/
def text? : Value → Option String
  | .string s => some s
  | _ => none

/-- Whether a value is null. -/
def isNull : Value → Bool
  | .null => true
  | _ => false

/-- The fields of an object. -/
def fields? : Value → Option Fields
  | .object fields => some fields
  | _ => none

/-- The items of an array. -/
def items? : Value → Option (List Value)
  | .array items => some items
  | _ => none

/-- The kind of a value, as error messages name it. -/
def typeName : Value → String
  | .null => "null"
  | .bool _ => "boolean"
  | .number _ => "number"
  | .string _ => "string"
  | .array _ => "array"
  | .object _ => "object"

mutual

/-- Keys increase in every object of the value. -/
def Ordered : Value → Prop
  | .array items => OrderedItems items
  | .object fields => Keyed.Ordered fields ∧ OrderedFields fields
  | _ => True

/-- Every value of a list is ordered. -/
def OrderedItems : List Value → Prop
  | [] => True
  | v :: rest => Ordered v ∧ OrderedItems rest

/-- Every value of a list of fields is ordered. -/
def OrderedFields : List (String × Value) → Prop
  | [] => True
  | (_, v) :: rest => Ordered v ∧ OrderedFields rest

end

theorem orderedItems_iff {items : List Value} :
    OrderedItems items ↔ ∀ v ∈ items, v.Ordered := by
  induction items with
  | nil => simp [OrderedItems]
  | cons v rest ih => simp [OrderedItems, ih]

theorem orderedFields_iff {fields : List (String × Value)} :
    OrderedFields fields ↔ ∀ entry ∈ fields, entry.2.Ordered := by
  induction fields with
  | nil => simp [OrderedFields]
  | cons entry rest ih => simp [OrderedFields, ih]

end Value
end Dialogue
