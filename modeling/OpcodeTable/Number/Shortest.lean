import OpcodeTable.Number.Binary64

/-!
# The shortest decimal text of a number

A number is written with the fewest decimal digits that are still rounded back to it, and of the
candidates with that many digits with the nearest.

For a fixed number of digits the candidates are the points of a decimal grid, and only the two
neighbours of the exact value on that grid need to be tested: if any point of the grid rounds to
the number, so does one of these two.  `shortest` walks through the grids from one digit on and
takes the first hit.  All comparisons are between natural numbers, in *half units* of
`2 ^ (-1075)`, so that the midpoints between neighbouring magnitudes are whole too.
-/

set_option autoImplicit false

namespace OpcodeTable

/-- The decimal number `digits * 10 ^ exponent`. -/
structure Decimal where
  digits : Nat
  exponent : Int
deriving DecidableEq, Repr

namespace Binary64

/-- The number of decimal digits of a natural number; zero has none. -/
def digitCount (n : Nat) : Nat :=
  if n = 0 then 0 else digitCount (n / 10) + 1

/-- The exponent of the leading decimal digit of a positive magnitude. -/
def leadingExponent (rank : Nat) : Int :=
  if one ≤ units rank then (digitCount (units rank / one) : Int) - 1
  else -(digitCount ((one - 1) / units rank) : Int)

/-- Whether `num / den` half units are rounded to the magnitude of this rank.  The midpoints to
the neighbours belong to the even rank. -/
def roundsTo (rank num den : Nat) : Bool :=
  let below := (units (rank - 1) + units rank) * den
  let above := (units rank + units (rank + 1)) * den
  if rank % 2 = 0 then below ≤ num ∧ num ≤ above else below < num ∧ num < above

/-- The point of the grid of multiples of `10 ^ exponent` that is nearest to the magnitude among
its two neighbours on the grid, those left out that are not rounded to it; a tie goes to the even
multiple. -/
def onGrid? (rank : Nat) (exponent : Int) : Option Decimal :=
  let step := 2 * one * Nat.pow 10 exponent.toNat
  let den := Nat.pow 10 (-exponent).toNat
  let exact := 2 * units rank * den
  let lower := exact / step
  let nearer := Binary64.halfEven exact step
  match roundsTo rank (lower * step) den, roundsTo rank ((lower + 1) * step) den with
  | true, true => some ⟨nearer, exponent⟩
  | true, false => some ⟨lower, exponent⟩
  | false, true => some ⟨lower + 1, exponent⟩
  | false, false => none

/-- The exact decimal value of a magnitude. -/
def exactDecimal (rank : Nat) : Decimal :=
  ⟨units rank * Nat.pow 5 1074, -1074⟩

/-- The decimal number with the fewest digits that is rounded to the magnitude, for positive
magnitudes.  Seventeen digits are always enough. -/
def shortest (rank : Nat) : Decimal :=
  ((List.range 17).findSome? fun (more : Nat) => onGrid? rank (leadingExponent rank - more)).getD
    (exactDecimal rank)

end Binary64

/-- Which exponents of the leading digit are written without an exponent mark. -/
structure DecimalLayout where
  least : Int
  most : Int

namespace Decimal

/-- The decimal digits of the number without trailing zeros. -/
def significantDigits (d : Decimal) : List Char :=
  (d.digits.repr.toList.reverse.dropWhile (· = '0')).reverse

/-- The exponent of the leading digit. -/
def leadingExponent (d : Decimal) : Int :=
  d.exponent + d.digits.repr.length - 1

/-- The positional form, always with a digit on either side of the point. -/
def positional (digits : List Char) (leading : Int) : String :=
  if leading < 0 then
    "0." ++ String.ofList (List.replicate (-leading - 1).toNat '0' ++ digits)
  else
    let whole := leading.toNat + 1
    let padded := digits ++ List.replicate (whole - digits.length) '0'
    let fraction := if padded.length ≤ whole then ['0'] else padded.drop whole
    String.ofList (padded.take whole) ++ "." ++ String.ofList fraction

/-- The form with an exponent mark: the point only where a second digit follows, and the sign of
the exponent always. -/
def withExponent (digits : List Char) (leading : Int) : String :=
  let fraction := if digits.length ≤ 1 then [] else '.' :: digits.drop 1
  String.ofList (digits.take 1 ++ fraction) ++ "e" ++ (if leading < 0 then "-" else "+")
    ++ toString leading.natAbs

/-- The text of a positive decimal number under a layout. -/
def text (layout : DecimalLayout) (d : Decimal) : String :=
  if layout.least ≤ d.leadingExponent ∧ d.leadingExponent ≤ layout.most then
    positional d.significantDigits d.leadingExponent
  else withExponent d.significantDigits d.leadingExponent

end Decimal

/-- The text of a number: a minus sign if it has one, and the shortest decimal that is rounded to
its magnitude. -/
def Binary64.text (layout : DecimalLayout) (x : Binary64) : String :=
  (if x.negative then "-" else "")
    ++ if x.rank = 0 then "0.0" else (Binary64.shortest x.rank).text layout

end OpcodeTable
