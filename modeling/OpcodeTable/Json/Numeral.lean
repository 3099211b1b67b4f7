import OpcodeTable.Json.Value

/-!
# Numerals

A number as it is written: a sign, the digits before and behind the point, and an exponent.

`Numeral.number?` gives a numeral its value.  One without a point and an exponent is an integer if
it fits into 64 bits, without a sign for a numeral without one and with a sign for one that has a
minus; the only exception is minus zero, which is a floating-point number because it keeps its
sign.  Every other numeral is a floating-point number: its leading digits, as many as fit into 64
bits, are the significand, and the number is the significand scaled by a power of ten.
-/

set_option autoImplicit false

namespace OpcodeTable
namespace Json

/-- The exponent part of a numeral. -/
structure Exponent where
  negative : Bool
  digits : List Char
deriving DecidableEq, Repr

/-- A number as it is written.  Without a point there are no fraction digits. -/
structure Numeral where
  negative : Bool
  whole : List Char
  fraction : List Char
  exponent : Option Exponent
deriving DecidableEq, Repr

namespace Numeral

/-- The value of a decimal digit. -/
def digitValue (c : Char) : Nat :=
  c.toNat - '0'.toNat

/-- Appends digits to a number as long as it does not exceed the limit, and gives back the digits
from the first one on that would make it do so. -/
def absorb (limit number : Nat) : List Char → Nat × List Char
  | [] => (number, [])
  | c :: rest =>
    if 10 * number + digitValue c ≤ limit then absorb limit (10 * number + digitValue c) rest
    else (number, c :: rest)

/-- The largest significand, and the largest integer. -/
def maxSignificand : Nat := 1 <<< 64 - 1

/-- The magnitude of the smallest integer. -/
def maxNegated : Nat := 1 <<< 63

/-- The largest exponent that is told apart from an unbounded one. -/
def maxExponent : Nat := 1 <<< 31 - 1

/-- The significand, made of the leading digits before the point and then of those behind it.  The
exponent says how many digits before the point were left out, less the number of digits behind the
point that were taken in. -/
def decimal (numeral : Numeral) : Decimal :=
  let (whole, dropped) := absorb maxSignificand 0 numeral.whole
  let (digits, left) := absorb maxSignificand whole numeral.fraction
  ⟨digits, dropped.length + left.length - numeral.fraction.length⟩

/-- The floating-point value of a numeral, if it is not too large.  An exponent beyond
`maxExponent` makes a zero, unless it would make a nonzero significand larger. -/
def float? (numeral : Numeral) : Option Binary64 :=
  let decimal := numeral.decimal
  match numeral.exponent with
  | none => Binary64.ofDecimal? numeral.negative decimal.digits decimal.exponent
  | some exponent =>
    match absorb maxExponent 0 exponent.digits with
    | (size, []) =>
      let shift : Int := if exponent.negative then -(size : Int) else size
      Binary64.ofDecimal? numeral.negative decimal.digits (decimal.exponent + shift)
    | (_, _ :: _) =>
      if decimal.digits ≠ 0 ∧ ¬exponent.negative then none
      else some (Binary64.zero numeral.negative)

/-- The integer that a numeral without a point and an exponent stands for, if it fits. -/
def integer? (numeral : Numeral) : Option Int :=
  if numeral.fraction = [] ∧ numeral.exponent = none then
    match absorb maxSignificand 0 numeral.whole with
    | (size, []) =>
      if ¬numeral.negative then some size
      else if size ≠ 0 ∧ size ≤ maxNegated then some (-(size : Int))
      else none
    | (_, _ :: _) => none
  else none

/-- The value of a numeral, if it is not too large. -/
def number? (numeral : Numeral) : Option Number :=
  match numeral.integer? with
  | some n => some (.integer n)
  | none => numeral.float?.map .float

/-- How many digits of the exponent stand behind the one that makes it exceed `maxExponent`. -/
def excess (numeral : Numeral) : Nat :=
  match numeral.exponent with
  | none => 0
  | some exponent => (absorb maxExponent 0 exponent.digits).2.length - 1

end Numeral

end Json
end OpcodeTable
