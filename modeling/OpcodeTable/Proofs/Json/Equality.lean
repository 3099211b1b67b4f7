import OpcodeTable.Record
import OpcodeTable.Table

/-!
# Deciding whether values are equal

Two values are equal if they are built in the same way, with the members of their objects in the
same order.  This is decided along both values, so that what has been read from a text can be
compared with what is expected.
-/

set_option autoImplicit false

namespace OpcodeTable

namespace Json
namespace Value

mutual

/-- Whether two values are equal, in the order of members too. -/
def equal : Value → Value → Bool
  | .null, .null => true
  | .boolean a, .boolean b => a = b
  | .number m, .number n => m = n
  | .string s, .string t => s = t
  | .array xs, .array ys => equalItems xs ys
  | .object ms, .object ns => equalMembers ms ns
  | _, _ => false

/-- Whether two lists of values are equal. -/
def equalItems : List Value → List Value → Bool
  | [], [] => true
  | x :: xs, y :: ys => equal x y && equalItems xs ys
  | _, _ => false

/-- Whether two lists of members are equal. -/
def equalMembers : List (String × Value) → List (String × Value) → Bool
  | [], [] => true
  | (name, value) :: ms, (other, value') :: ns =>
    name = other && equal value value' && equalMembers ms ns
  | _, _ => false

end

mutual

theorem equal_iff (first second : Value) : equal first second = true ↔ first = second := by
  cases first with
  | null => cases second <;> simp [equal]
  | boolean b => cases second <;> simp [equal]
  | number n => cases second <;> simp [equal]
  | string s => cases second <;> simp [equal]
  | array xs => cases second <;> simp [equal, equalItems_iff]
  | object ms => cases second <;> simp [equal, equalMembers_iff]

theorem equalItems_iff (xs ys : List Value) : equalItems xs ys = true ↔ xs = ys := by
  cases xs with
  | nil => cases ys <;> simp [equalItems]
  | cons x rest => cases ys <;> simp [equalItems, equal_iff x, equalItems_iff rest]

theorem equalMembers_iff (ms ns : List (String × Value)) : equalMembers ms ns = true ↔ ms = ns := by
  cases ms with
  | nil => cases ns <;> simp [equalMembers]
  | cons m rest =>
    cases ns <;>
      simp [equalMembers, equal_iff m.2, equalMembers_iff rest, Prod.ext_iff]

end

instance : DecidableEq Value := fun first second =>
  decidable_of_iff (equal first second = true) (equal_iff first second)

end Value
end Json

deriving instance DecidableEq for Record, Table

end OpcodeTable
