/-!
# Sets of characters

Sets of characters as a pattern describes them: built from ranges of code points by the operations
of set algebra, and by closing a set under the change between small and capital ASCII letters.
-/

set_option autoImplicit false

namespace OpcodeTable
namespace Pattern

/-- A set of characters. -/
inductive CharSet where
  /-- The characters from one code point to another. -/
  | range (first last : Nat)
  | union (a b : CharSet)
  | intersection (a b : CharSet)
  | complement (a : CharSet)
  /-- The characters that are in the set as they are, or with the case of an ASCII letter changed. -/
  | caseless (a : CharSet)
deriving DecidableEq, Repr

/-- The code point with the case changed, if it is that of an ASCII letter. -/
def swapCase (code : Nat) : Nat :=
  if 0x41 ≤ code ∧ code ≤ 0x5a then code + 0x20
  else if 0x61 ≤ code ∧ code ≤ 0x7a then code - 0x20
  else code

namespace CharSet

/-- Whether the character with this code point is in the set. -/
def has : CharSet → Nat → Bool
  | .range first last, code => first ≤ code && code ≤ last
  | .union a b, code => a.has code || b.has code
  | .intersection a b, code => a.has code && b.has code
  | .complement a, code => !a.has code
  | .caseless a, code => a.has code || a.has (swapCase code)

/-- The set without a character. -/
def empty : CharSet := .range 1 0

/-- The set of one character. -/
def single (code : Nat) : CharSet := .range code code

/-- The set, or what is not in it. -/
def negated (negate : Bool) (a : CharSet) : CharSet :=
  if negate then .complement a else a

/-- The union of sets that are given by ranges. -/
def ofRanges (ranges : List (Nat × Nat)) : CharSet :=
  ranges.foldr (fun r a => .union (.range r.1 r.2) a) empty

/-- The characters of the first set that are not in the second one. -/
def difference (a b : CharSet) : CharSet :=
  .intersection a (.complement b)

/-- The characters of one of the two sets that are not in the other. -/
def symmetricDifference (a b : CharSet) : CharSet :=
  .union (difference a b) (difference b a)

end CharSet

end Pattern
end OpcodeTable
