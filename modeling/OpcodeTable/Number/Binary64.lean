/-!
# Double-precision numbers

The finite numbers of the IEEE 754 binary64 format, computed with exactly.  A number is a sign and
a *rank*: the place of its magnitude among all magnitudes in increasing order.  Rank `0` is zero,
the ranks below `2 ^ 52` are the subnormal magnitudes, and every later block of `2 ^ 52` ranks is
one binade, so a larger rank is always a larger magnitude and no magnitude has two ranks.

Every magnitude is a whole number of *units* of `2 ^ (-1074)`, the smallest positive one.  Products
and quotients are therefore fractions of natural numbers, and `nearestRank` rounds such a fraction
to the nearest magnitude, a tie going to the even rank.  Ranks from `infiniteRank` on stand for
results that are too large for the format.

## What is here

* `Binary64.nearestRank` rounds a fraction of units to the nearest magnitude.
* `Binary64.product` and `Binary64.quotient` are the rounded operations on ranks.
* `Binary64.ofDecimal?` turns a decimal significand and exponent into a number by a single scaling
  with a rounded power of ten, in steps of `10 ^ 308` where the exponent is very negative.
-/

set_option autoImplicit false

namespace OpcodeTable

namespace Binary64

/-- The number of magnitudes in one binade. -/
def binade : Nat := 1 <<< 52

/-- The rank that follows the largest finite magnitude. -/
def infiniteRank : Nat := 2047 * binade

/-- How many units of `2 ^ (-1074)` make the number one. -/
def one : Nat := 1 <<< 1074

/-- The significand of the magnitude with this rank. -/
def significand (rank : Nat) : Nat :=
  if rank < binade then rank else binade + rank % binade

/-- The power of two, counted from the smallest, by which the significand is scaled. -/
def scale (rank : Nat) : Nat :=
  rank / binade - 1

/-- The magnitude with this rank, in units of `2 ^ (-1074)`. -/
def units (rank : Nat) : Nat :=
  significand rank <<< scale rank

/-- The whole number nearest to `num / den`; a tie goes to the even one. -/
def halfEven (num den : Nat) : Nat :=
  let floor := num / den
  let excess := 2 * (num % den)
  if den < excess ∨ excess = den ∧ floor % 2 = 1 then floor + 1 else floor

/-- The rank of the magnitude nearest to `num / den` units; a tie goes to the even rank.  A
significand that rounds up to `2 ^ 53` carries into the next binade by itself. -/
def nearestRank (num den : Nat) : Nat :=
  let shift := (num / den).log2 - 52
  shift * binade + halfEven num (den <<< shift)

/-- The rounded product of two magnitudes. -/
def product (a b : Nat) : Nat :=
  nearestRank (units a * units b) one

/-- The rounded quotient of two magnitudes. -/
def quotient (a b : Nat) : Nat :=
  nearestRank (units a * one) (units b)

/-- The magnitude nearest to a natural number. -/
def ofNat (n : Nat) : Nat :=
  nearestRank (n * one) 1

/-- The largest power of ten that is a finite magnitude. -/
def largestPower : Nat := 308

/-- The magnitude nearest to a power of ten. -/
def powerOfTen (k : Nat) : Nat :=
  ofNat (Nat.pow 10 k)

/-- Scales a magnitude by a power of ten: one rounded product or quotient, after as many quotients
by `10 ^ 308` as a very negative exponent asks for.  There is no answer for a nonzero magnitude
that would have to grow by more than `10 ^ 308`. -/
def scaleByTen (rank : Nat) (exponent : Int) : Option Nat :=
  if exponent.natAbs ≤ largestPower then
    if 0 ≤ exponent then some (product rank (powerOfTen exponent.natAbs))
    else some (quotient rank (powerOfTen exponent.natAbs))
  else if rank = 0 then some 0
  else if 0 < exponent then none
  else scaleByTen (quotient rank (powerOfTen largestPower)) (exponent + largestPower)
termination_by exponent.natAbs
decreasing_by simp only [largestPower] at *; omega

end Binary64

open Binary64 in
/-- A finite double-precision number.  Zero has both signs. -/
structure Binary64 where
  /-- Whether the number has a minus sign. -/
  negative : Bool
  /-- The place of the magnitude among all magnitudes. -/
  rank : Nat
  /-- The magnitude is a finite one. -/
  finite : rank < infiniteRank
deriving DecidableEq, Repr

namespace Binary64

/-- The number with this sign and rank, if the rank is that of a finite magnitude. -/
def ofRank? (negative : Bool) (rank : Nat) : Option Binary64 :=
  if finite : rank < infiniteRank then some ⟨negative, rank, finite⟩ else none

/-- The number `significand * 10 ^ exponent` as the scaling by powers of ten gives it, or nothing
if that is too large. -/
def ofDecimal? (negative : Bool) (significand : Nat) (exponent : Int) : Option Binary64 :=
  (scaleByTen (ofNat significand) exponent).bind (ofRank? negative)

/-- Zero with the given sign. -/
def zero (negative : Bool) : Binary64 :=
  ⟨negative, 0, by decide⟩

/-- Numerical equality: the two zeros are one number, all else is told apart. -/
def sameNumber (x y : Binary64) : Bool :=
  x = y || x.rank = 0 && y.rank = 0

end Binary64

end OpcodeTable
