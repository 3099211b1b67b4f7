import Mathlib.Algebra.Order.Field.Basic
import Mathlib.Algebra.Order.Field.Rat
import Mathlib.Tactic.Linarith
import Mathlib.Tactic.NormNum
import Mathlib.Tactic.Positivity
import OpcodeTable.Number.Shortest
import OpcodeTable.Proofs.Number.Rounding

/-!
# Where the shortest decimal lies

The decimal number that a magnitude is written as is one that is rounded to it, so it is no zero,
and it does not lie beyond the midpoint to the next magnitude.

## What is here

* `Decimal.value`, what a decimal number stands for.
* `Binary64.NextTo`, the decimal numbers that are near enough to a magnitude in this sense.
* `Binary64.gridPoint_of_onGrid?`, what is found on a decimal grid, and
  `Binary64.between_of_gridPoint`, where that lies.
-/

set_option autoImplicit false

namespace OpcodeTable

/-- What a decimal number stands for. -/
def Decimal.value (d : Decimal) : ℚ :=
  d.digits * 10 ^ d.exponent

namespace Binary64

/-- A decimal number that is no zero and does not lie beyond the midpoint between the magnitude of a
rank and the next one, in half units. -/
def NextTo (rank : Nat) (d : Decimal) : Prop :=
  0 < d.digits ∧ d.value * (2 * one) ≤ units rank + units (rank + 1)

/-- A number between the midpoints from the magnitude of a rank to the one before and the next one,
in half units. -/
def Between (rank : Nat) (value : ℚ) : Prop :=
  (units (rank - 1) + units rank : ℚ) ≤ value * (2 * one) ∧
    value * (2 * one) ≤ units rank + units (rank + 1)

/-- A power of ten as a fraction of two whole powers. -/
theorem zpow_mul_pow (e : Int) :
    (10 : ℚ) ^ e * 10 ^ (-e).toNat = 10 ^ e.toNat := by
  rw [← zpow_natCast, ← zpow_natCast, ← zpow_add₀ (by norm_num)]
  congr 1
  omega

/-- A decimal number as a fraction. -/
theorem value_mul_pow (d : Decimal) :
    d.value * 10 ^ (-d.exponent).toNat = d.digits * 10 ^ d.exponent.toNat := by
  rw [Decimal.value, mul_assoc, zpow_mul_pow]

theorem value_of_neg {d : Decimal} {k : Nat} (h : d.exponent = -(k : Int)) :
    d.value = d.digits / 10 ^ k := by
  rw [Decimal.value, h, zpow_neg, zpow_natCast, div_eq_mul_inv]

theorem units_pos {rank : Nat} (h : 0 < rank) : 0 < units rank := by
  have hfirst : units 1 = 1 := units_of_lt (by decide)
  exact Nat.lt_of_lt_of_le (by rw [hfirst]; decide) (units_mono h)

theorem roundsTo_bounds {rank num den : Nat} (h : roundsTo rank num den = true) :
    (units (rank - 1) + units rank) * den ≤ num ∧
      num ≤ (units rank + units (rank + 1)) * den := by
  unfold roundsTo at h
  split at h
  · exact of_decide_eq_true h
  · exact (of_decide_eq_true h).imp Nat.le_of_lt Nat.le_of_lt

/-- The point of a grid below a magnitude. -/
def gridFloor (rank : Nat) (exponent : Int) : Nat :=
  2 * units rank * 10 ^ (-exponent).toNat / (2 * one * 10 ^ exponent.toNat)

/-- Whether a point of a grid is rounded to the magnitude. -/
def gridPoint (rank : Nat) (exponent : Int) (n : Nat) : Bool :=
  roundsTo rank (n * (2 * one * 10 ^ exponent.toNat)) (10 ^ (-exponent).toNat)

/-- A decimal number that is rounded to a magnitude lies between the midpoints to its neighbours. -/
theorem between_of_gridPoint {rank : Nat} {d : Decimal}
    (h : gridPoint rank d.exponent d.digits = true) : Between rank d.value := by
  obtain ⟨hbelow, habove⟩ := roundsTo_bounds h
  have hpow : (0 : ℚ) < 10 ^ (-d.exponent).toNat := by positivity
  have hvalue : d.value * (2 * one) * 10 ^ (-d.exponent).toNat =
      d.digits * (2 * one * 10 ^ d.exponent.toNat) := by
    rw [mul_right_comm, value_mul_pow]
    ring
  constructor
  · refine le_of_mul_le_mul_right ?_ hpow
    rw [hvalue]
    exact_mod_cast hbelow
  · refine le_of_mul_le_mul_right ?_ hpow
    rw [hvalue]
    exact_mod_cast habove

/-- What lies there is no zero. -/
theorem digits_pos_of_between {rank : Nat} (hrank : 0 < rank) {d : Decimal}
    (h : Between rank d.value) : 0 < d.digits := by
  have hunits : (0 : ℚ) < units rank := Nat.cast_pos.2 (units_pos hrank)
  have hprev : (0 : ℚ) ≤ units (rank - 1) := Nat.cast_nonneg _
  refine Nat.pos_of_ne_zero fun hzero => ?_
  have hbelow := h.1
  rw [Decimal.value, hzero, Nat.cast_zero, zero_mul, zero_mul] at hbelow
  linarith

theorem nextTo_of_gridPoint {rank : Nat} (h : 0 < rank) {d : Decimal}
    (hpoint : gridPoint rank d.exponent d.digits = true) : NextTo rank d := by
  have hbetween := between_of_gridPoint hpoint
  exact ⟨digits_pos_of_between h hbetween, hbetween.2⟩

theorem halfEven_eq_or (num den : Nat) :
    halfEven num den = num / den ∨ halfEven num den = num / den + 1 := by
  rw [halfEven_eq]
  split
  · exact .inr rfl
  · exact .inl rfl

theorem onGrid?_eq (rank : Nat) (exponent : Int) : onGrid? rank exponent =
    match gridPoint rank exponent (gridFloor rank exponent),
      gridPoint rank exponent (gridFloor rank exponent + 1) with
    | true, true => some ⟨halfEven (2 * units rank * 10 ^ (-exponent).toNat)
        (2 * one * 10 ^ exponent.toNat), exponent⟩
    | true, false => some ⟨gridFloor rank exponent, exponent⟩
    | false, true => some ⟨gridFloor rank exponent + 1, exponent⟩
    | false, false => none :=
  rfl

/-- What is found on a grid is one of the two points beside the magnitude, and is rounded to it. -/
theorem gridPoint_of_onGrid? {rank : Nat} {exponent : Int} {d : Decimal}
    (h : onGrid? rank exponent = some d) :
    d.exponent = exponent ∧ d.digits ≤ gridFloor rank exponent + 1 ∧
      gridPoint rank d.exponent d.digits = true := by
  rw [onGrid?_eq] at h
  split at h
  · next hlower hupper =>
    cases h
    rcases halfEven_eq_or (2 * units rank * 10 ^ (-exponent).toNat)
      (2 * one * 10 ^ exponent.toNat) with heq | heq
    · exact ⟨rfl, halfEven_le .., heq ▸ hlower⟩
    · exact ⟨rfl, halfEven_le .., heq ▸ hupper⟩
  · next hlower _ =>
    cases h
    exact ⟨rfl, Nat.le_succ _, hlower⟩
  · next _ hupper =>
    cases h
    exact ⟨rfl, Nat.le_refl _, hupper⟩
  · cases h

end Binary64
end OpcodeTable
