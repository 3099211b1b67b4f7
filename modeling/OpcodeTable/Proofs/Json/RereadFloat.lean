import OpcodeTable.Proofs.Json.IntegerLiteral
import OpcodeTable.Proofs.Number.Scaling

/-!
# What becomes of a floating-point number that is printed and read again

The printer writes the shortest decimal that is rounded to a number, and the reader does not round
that decimal but scales its digits.  So the number may come back as a neighbour.  How far that can
be and for which decimals it cannot happen is said here.

## What is here

* `Numeral.asRead`, the decimal number that the reader scales, and `Numeral.float?_of_le`.
* `Binary64.IsShort`, the numbers that are written with few digits.
* `exists_reread?`, by which a number is read again as one that is near, and a short one as itself.
* `valueText_reread`, by which every printed value can be read again.
-/

set_option autoImplicit false

namespace OpcodeTable

/-- The decimal has at most fifteen digits and an exponent of a moderate size.  With just sixteen
digits before the point it does not count as short, since the zero behind the point makes the
significand too large. -/
def Decimal.IsShort (d : Decimal) : Prop :=
  d.significantDigits.length ≤ 15 ∧
    (d.leadingExponent + 1 - d.significantDigits.length).natAbs ≤ Binary64.exactPower ∧
    d.leadingExponent ≠ 15

/-- The number is written as a short decimal. -/
def Binary64.IsShort (x : Binary64) : Prop :=
  x.rank = 0 ∨ (Binary64.shortest x.rank).IsShort

instance (d : Decimal) : Decidable d.IsShort :=
  inferInstanceAs (Decidable (_ ∧ _ ∧ _))

instance (x : Binary64) : Decidable x.IsShort :=
  inferInstanceAs (Decidable (_ ∨ _))

namespace Json

/-! ## What the reader scales -/

namespace Numeral

/-- The decimal number that is scaled if all digits are counted. -/
def asRead (numeral : Numeral) : Decimal :=
  ⟨Nat.ofDigitChars 10 (numeral.whole ++ numeral.fraction) 0,
    numeral.shift - numeral.fraction.length⟩

theorem value_asRead (numeral : Numeral) : numeral.asRead.value = numeral.value :=
  rfl

theorem decimal_of_le {numeral : Numeral}
    (hwhole : Nat.ofDigitChars 10 numeral.whole 0 ≤ maxSignificand)
    (hall : numeral.asRead.digits ≤ maxSignificand) :
    numeral.decimal = ⟨numeral.asRead.digits, -(numeral.fraction.length : Int)⟩ := by
  rw [asRead, Nat.ofDigitChars_append] at hall ⊢
  simp [decimal, absorb_eq_of_le hwhole, absorb_eq_of_le hall]

/-- If its digits are few enough a numeral is what scaling makes of them. -/
theorem float?_of_le {numeral : Numeral}
    (hwhole : Nat.ofDigitChars 10 numeral.whole 0 ≤ maxSignificand)
    (hall : numeral.asRead.digits ≤ maxSignificand) (hshift : numeral.shift.natAbs ≤ maxExponent) :
    numeral.float? =
      Binary64.ofDecimal? numeral.negative numeral.asRead.digits numeral.asRead.exponent := by
  have hexponent : -(numeral.fraction.length : Int) + numeral.shift = numeral.asRead.exponent := by
    change _ = numeral.shift - (numeral.fraction.length : Int)
    omega
  rw [float?, decimal_of_le hwhole hall, ← hexponent]
  rw [shift] at hshift ⊢
  cases hpart : numeral.exponent with
  | none => rw [Int.add_zero]
  | some exponent =>
    obtain ⟨negative, digits⟩ := exponent
    simp only [hpart] at hshift
    have hle : Nat.ofDigitChars 10 digits 0 ≤ maxExponent := by
      split at hshift <;> omega
    simp only [absorb_eq_of_le hle]

end Numeral

theorem scaleByTen_of_ofDecimal? {negative : Bool} {significand : Nat} {exponent : Int}
    {x : Binary64} (h : Binary64.ofDecimal? negative significand exponent = some x) :
    Binary64.scaleByTen (Binary64.ofNat significand) exponent = some x.rank := by
  obtain ⟨rank, hrank, hx⟩ := Option.bind_eq_some_iff.1 h
  rw [Binary64.ofRank?] at hx
  split at hx
  · cases hx
    exact hrank
  · cases hx

open Binary64

/-- With a large exponent nothing is reached. -/
theorem le_largestPower_of_scaleByTen {rank scaled : Nat} {exponent : Int} (hrank : rank ≠ 0)
    (h : scaleByTen rank exponent = some scaled) : exponent ≤ largestPower := by
  by_contra hlarge
  have hexponent : ¬(exponent.natAbs ≤ largestPower) := by omega
  rw [scaleByTen, if_neg hexponent, if_neg hrank, if_pos (by omega)] at h
  cases h

/-! ## The digits of the shortest decimal -/

theorem significantDigits_le (d : Decimal) :
    Nat.ofDigitChars 10 d.significantDigits 0 ≤ d.digits := by
  obtain ⟨zeros, hsplit⟩ := exists_toDigits_eq d
  have hdigits : Nat.ofDigitChars 10 (Nat.toDigits 10 d.digits) 0 = d.digits :=
    Nat.ofDigitChars_ten_toDigits
  rw [hsplit, Nat.ofDigitChars_append, Nat.ofDigitChars_replicate_zero] at hdigits
  exact Nat.le_trans (Nat.le_mul_of_pos_left _ (pow_ten_pos zeros)) (Nat.le_of_eq hdigits)

section Shortest

variable {numeral : Numeral} {d : Decimal}
  (hstands : StandsFor numeral d.significantDigits d.leadingExponent) (hpos : 0 < d.digits)

include hstands hpos

/-- With the zeros that are written behind them there are at most seventeen digits. -/
theorem asRead_digits_le (hdigits : d.digits ≤ 10 ^ 17) : numeral.asRead.digits ≤ 10 ^ 17 := by
  obtain ⟨zeros, hzeros, hcounted, -⟩ := hstands.counted
  have hlt := ofDigitChars_lt (leadingDigits_significantDigits hpos).isDigit
  rw [Numeral.asRead, hcounted]
  rcases hzeros with rfl | ⟨hlength, hleading⟩
  · rw [Nat.pow_zero, Nat.one_mul]
    exact Nat.le_trans (significantDigits_le d) hdigits
  · have hall : zeros + d.significantDigits.length ≤ 17 := by omega
    calc 10 ^ zeros * Nat.ofDigitChars 10 d.significantDigits 0
        ≤ 10 ^ zeros * 10 ^ d.significantDigits.length := Nat.mul_le_mul_left _ (Nat.le_of_lt hlt)
      _ = 10 ^ (zeros + d.significantDigits.length) := (Nat.pow_add ..).symm
      _ ≤ 10 ^ 17 := Nat.pow_le_pow_right (by decide) hall

/-- Up to fifteen digits, with zeros behind them up to the sixteenth, are a magnitude. -/
theorem units_asRead (hlength : d.significantDigits.length ≤ 15)
    (hleading : d.leadingExponent ≠ 15) :
    units (ofNat numeral.asRead.digits) = numeral.asRead.digits * one := by
  obtain ⟨zeros, hzeros, hcounted, -⟩ := hstands.counted
  have hlt := ofDigitChars_lt (leadingDigits_significantDigits hpos).isDigit
  rw [Numeral.asRead, hcounted]
  generalize Nat.ofDigitChars 10 d.significantDigits 0 = digits at hlt
  have hsplit : 10 ^ zeros * digits = 5 ^ zeros * digits * 2 ^ zeros := by
    rw [show 10 = 5 * 2 from rfl, Nat.mul_pow]
    ring
  refine units_ofNat ?_ hsplit
  rcases zeros with _ | more
  · have hfew : 10 ^ d.significantDigits.length ≤ 10 ^ 15 :=
      Nat.pow_le_pow_right (by decide) hlength
    have hlimit : 10 ^ 15 < 2 * binade := by decide
    rw [Nat.pow_zero, Nat.one_mul]
    omega
  · -- the zeros have a factor of two each, and one of them is enough
    obtain ⟨hsum, hmost⟩ := hzeros.resolve_left (Nat.succ_ne_zero _)
    have hall : more + 1 + d.significantDigits.length ≤ 16 := by omega
    have hlimit : 10 ^ 16 < 2 * binade * 2 := by decide
    refine Nat.lt_of_mul_lt_mul_right (Nat.lt_of_le_of_lt ?_ hlimit)
    calc 5 ^ (more + 1) * digits * 2
        ≤ 5 ^ (more + 1) * digits * 2 ^ (more + 1) :=
          Nat.mul_le_mul_left _ (Nat.le_self_pow (Nat.succ_ne_zero _) 2)
      _ = 10 ^ (more + 1) * digits := hsplit.symm
      _ ≤ 10 ^ (more + 1) * 10 ^ d.significantDigits.length :=
          Nat.mul_le_mul_left _ (Nat.le_of_lt hlt)
      _ = 10 ^ (more + 1 + d.significantDigits.length) := (Nat.pow_add ..).symm
      _ ≤ 10 ^ 16 := Nat.pow_le_pow_right (by decide) hall

end Shortest

/-- The exponent is that of the last digit, or there is a zero behind the point. -/
theorem asRead_exponent {numeral : Numeral} {d : Decimal}
    (hstands : StandsFor numeral d.significantDigits d.leadingExponent) :
    numeral.asRead.exponent = d.leadingExponent + 1 - d.significantDigits.length ∨
      numeral.asRead.exponent = -1 := by
  obtain ⟨zeros, hzeros, -, hexponent⟩ := hstands.counted
  have hasRead : numeral.asRead.exponent = numeral.shift - numeral.fraction.length := rfl
  omega

/-! ## Reading again -/

/-- What the text of a magnitude is read as. -/
theorem near_of_float? {numeral : Numeral} {rank : Nat} {y : Binary64} (hrank : 0 < rank)
    (hstands : StandsFor numeral (shortest rank).significantDigits (shortest rank).leadingExponent)
    (hshift : numeral.shift ≤ Numeral.maxExponent) (hy : numeral.float? = some y) :
    Near 5 rank y.rank ∧ ((shortest rank).IsShort → y.rank = rank) := by
  obtain ⟨hdigits, hpoint⟩ := shortest_spec hrank
  have hpos := (nextTo_shortest hrank).1
  have hvalue : numeral.asRead.value = (shortest rank).value := by
    rw [Numeral.value_asRead, hstands.value, value_eq_significantDigits]
  have hnearest : nearestDecimal numeral.asRead = rank :=
    (nearestDecimal_congr hvalue).trans (nearestDecimal_of_gridPoint hrank hpoint)
  have hbetween : Between rank numeral.asRead.value := hvalue ▸ between_of_gridPoint hpoint
  have hall := asRead_digits_le hstands hpos hdigits
  have hlimit : 10 ^ 17 ≤ Numeral.maxSignificand ∧ 10 ^ 17 ≤ 2 ^ 64 := by decide
  have hlow := neg_exponent_lt_of_between hrank hbetween (Nat.le_trans hall hlimit.2)
  have hsize : numeral.shift.natAbs ≤ Numeral.maxExponent := by
    have hexponent : numeral.asRead.exponent = numeral.shift - numeral.fraction.length := rfl
    have hmax : 400 ≤ Numeral.maxExponent := by decide
    omega
  rw [Numeral.float?_of_le hstands.whole (Nat.le_trans hall hlimit.1) hsize] at hy
  have hscaled := scaleByTen_of_ofDecimal? hy
  constructor
  · have hnonzero := ofNat_ne_zero (digits_pos_of_between hrank hbetween)
    obtain ⟨scaled, hscale, hnear⟩ := scaleByTen_drift hrank hnearest hbetween
      (Nat.le_trans hall hlimit.2) (le_largestPower_of_scaleByTen hnonzero hscaled)
    rw [hscale] at hscaled
    exact Option.some_inj.1 hscaled ▸ hnear
  · rintro ⟨hlength, hexponent, hleading⟩
    have hexact : numeral.asRead.exponent.natAbs ≤ exactPower := by
      rcases asRead_exponent hstands with heq | heq
      · rwa [heq]
      · rw [heq]
        decide
    have hunits := units_asRead hstands hpos hlength hleading
    rw [scaleByTen_of_exact hunits hexact, hnearest] at hscaled
    exact (Option.some_inj.1 hscaled).symm

/-- **A number is read again as one that is no farther than five places from it, and a short number
as itself.** -/
theorem exists_reread? (x : Binary64) : ∃ y : Binary64, reread? x = some (.float y) ∧
    y.negative = x.negative ∧ Near 5 x.rank y.rank ∧ (x.IsShort → y = x) := by
  obtain ⟨negative, rank, hfinite⟩ := x
  rcases Nat.eq_zero_or_pos rank with rfl | hpos
  · exact ⟨_, reread?_zero negative, rfl, .refl, fun _ => rfl⟩
  rcases Nat.lt_or_ge rank (infiniteRank - 1) with hrank | hlargest
  · obtain ⟨numeral, y, hstands, hshift, hsign, hy, hread⟩ :=
      exists_reread?_of_pos (x := ⟨negative, rank, hfinite⟩) hpos hrank
    obtain ⟨hnear, hshort⟩ := near_of_float? hpos hstands hshift hy
    have hnegative : y.negative = negative := (Numeral.negative_of_float? hy).trans hsign
    refine ⟨y, hread, hnegative, hnear, fun hx => ?_⟩
    obtain ⟨ynegative, yrank, yfinite⟩ := y
    obtain rfl : yrank = rank := hshort (hx.resolve_left (Nat.ne_of_gt hpos))
    cases hnegative
    rfl
  · obtain rfl : rank = infiniteRank - 1 := by omega
    exact ⟨_, reread?_largest negative, rfl, .refl, fun _ => rfl⟩

/-- The text of a readable value stands for the value with its floating-point numbers as they are
read again. -/
theorem valueText_reread {depth : Nat} {value : Value} (h : Readable depth value) :
    ValueText depth value.text.toList (value.mapFloats rereadNumber) := by
  refine valueText_mapFloats h fun x _ => scalarText_of_reread? ?_
  obtain ⟨y, hy, -⟩ := exists_reread? x
  rw [rereadNumber, hy, Option.getD_some]

end Json
end OpcodeTable
