import OpcodeTable.Json.Members
import OpcodeTable.Number.Shortest

/-!
# JSON values

The values that a record carries along.  Integers and floating-point numbers are kept apart: an
integer is exact, a floating-point number is one of the binary64 format.

`Value.same` is equality up to the order of object members at every depth.  The order of array
items counts, an integer never equals a floating-point number, and the two floating-point zeros are
the same.
-/

set_option autoImplicit false

namespace OpcodeTable
namespace Json

/-- A JSON number. -/
inductive Number where
  | integer (n : Int)
  | float (x : Binary64)
deriving DecidableEq, Repr

/-- A JSON value. -/
inductive Value where
  | null
  | boolean (b : Bool)
  | number (n : Number)
  | string (s : String)
  | array (items : List Value)
  | object (members : List (String × Value))
deriving Inhabited, Repr

/-- The fields of a record. -/
abbrev Fields := Members Value

/-- Numbers are written positionally while the leading digit stands between the fifth place after
the point and the sixteenth before it. -/
def numberLayout : DecimalLayout :=
  ⟨-5, 15⟩

/-- The text of a number. -/
def Number.text : Number → String
  | .integer n => toString n
  | .float x => x.text numberLayout

/-- Whether two numbers are of one kind and equal. -/
def Number.same : Number → Number → Bool
  | .integer m, .integer n => m = n
  | .float x, .float y => x.sameNumber y
  | _, _ => false

namespace Value

mutual

/-- Whether two values are equal up to the order of members. -/
def same : Value → Value → Bool
  | .null, .null => true
  | .boolean a, .boolean b => a = b
  | .number m, .number n => m.same n
  | .string s, .string t => s = t
  | .array xs, .array ys => sameItems xs ys
  | .object ms, .object ns => ms.length = ns.length && sameIn ms ns
  | _, _ => false

/-- Whether two lists hold the same values in the same order. -/
def sameItems : List Value → List Value → Bool
  | [], [] => true
  | x :: xs, y :: ys => same x y && sameItems xs ys
  | _, _ => false

/-- Whether every member of the first list has the same value under its name in the second. -/
def sameIn : List (String × Value) → List (String × Value) → Bool
  | [], _ => true
  | (name, value) :: rest, ms =>
    (match ms.lookup name with
      | some other => same value other
      | none => false) && sameIn rest ms

end

/-- The members of an object. -/
def fields? : Value → Option Fields
  | .object members => some members
  | _ => none

end Value

end Json
end OpcodeTable
