import Mathlib.Algebra.Order.Ring.Pow
import OpcodeTable.Proofs.Number.SeventeenDigits

/-!
# What scaling makes of a decimal number

A significand is rounded, a power of ten is rounded, and so is their product or quotient.  If the
first two are magnitudes themselves, what comes out is the nearest magnitude.  Otherwise each
rounding may lead away from it, and where the exponent is very negative there are two quotients.

## What is here

* `Binary64.nearestDecimal`, the magnitude that is nearest to a decimal number.
* `Binary64.scaleByTen_of_exact`, when scaling leads to it.
* `Within.mul`, `Within.div` and `Within.trans`, which put roundings together, and
  `Binary64.nearestRank_drift`, how far they lead away from a magnitude.
* `Binary64.scaleByTen_drift`, by which that is no farther than five places.
-/

set_option autoImplicit false

namespace OpcodeTable
namespace Binary64

/-! ## The nearest magnitude -/

/-- The magnitude that is nearest to a decimal number. -/
def nearestDecimal (d : Decimal) : Nat :=
  nearestRank (d.digits * one * 10 ^ d.exponent.toNat) (10 ^ (-d.exponent).toNat)

theorem pow_ten_pos (k : Nat) : 0 < 10 ^ k :=
  Nat.pow_pos (by decide)

theorem nearestDecimal_congr {d other : Decimal} (h : d.value = other.value) :
    nearestDecimal d = nearestDecimal other := by
  refine nearestRank_congr (pow_ten_pos _) (pow_ten_pos _) ?_
  have hd := value_mul_pow d
  have hother := value_mul_pow other
  rw [h] at hd
  have hcross : (d.digits * 10 ^ d.exponent.toNat : ℚ) * 10 ^ (-other.exponent).toNat =
      other.digits * 10 ^ other.exponent.toNat * 10 ^ (-d.exponent).toNat := by
    rw [← hd, ← hother]
    ring
  have hnat : d.digits * 10 ^ d.exponent.toNat * 10 ^ (-other.exponent).toNat =
      other.digits * 10 ^ other.exponent.toNat * 10 ^ (-d.exponent).toNat := by
    exact_mod_cast hcross
  calc d.digits * one * 10 ^ d.exponent.toNat * 10 ^ (-other.exponent).toNat
      = one * (d.digits * 10 ^ d.exponent.toNat * 10 ^ (-other.exponent).toNat) := by ring
    _ = one * (other.digits * 10 ^ other.exponent.toNat * 10 ^ (-d.exponent).toNat) := by rw [hnat]
    _ = other.digits * one * 10 ^ other.exponent.toNat * 10 ^ (-d.exponent).toNat := by ring

/-- A decimal number that is rounded to a magnitude has it as its nearest one. -/
theorem nearestDecimal_of_gridPoint {rank : Nat} (h : 0 < rank) {d : Decimal}
    (hpoint : gridPoint rank d.exponent d.digits = true) : nearestDecimal d = rank := by
  have hpow := pow_ten_pos (-d.exponent).toNat
  rw [← nearestRank_of_roundsTo h hpow hpoint]
  exact nearestRank_congr hpow (Nat.mul_pos (by decide) hpow) (by ring)

/-! ## Exact powers of ten -/

/-- The largest exponent of a power of ten that is a magnitude. -/
def exactPower : Nat := 22

theorem units_powerOfTen {k : Nat} (h : k ≤ exactPower) : units (powerOfTen k) = 10 ^ k * one := by
  have hall : ∀ k < exactPower + 1, units (powerOfTen k) = 10 ^ k * one := by decide +kernel
  exact hall k (Nat.lt_succ_of_le h)

/-- A number of at most 53 binary digits, with zeros behind them, is a magnitude. -/
theorem units_ofNat {n m shift : Nat} (h : m < 2 * binade) (hn : n = m * 2 ^ shift) :
    units (ofNat n) = n * one := by
  obtain ⟨more, hone⟩ : ∃ more, one = 1 <<< more := ⟨1074, one.eq_1⟩
  rw [ofNat, hn, hone, Nat.one_shiftLeft, Nat.mul_assoc, ← Nat.pow_add, units_nearestRank_of_lt h]

/-- **From a magnitude an exact power of ten leads to the nearest magnitude.** -/
theorem scaleByTen_of_exact {d : Decimal} (hdigits : units (ofNat d.digits) = d.digits * one)
    (hexponent : d.exponent.natAbs ≤ exactPower) :
    scaleByTen (ofNat d.digits) d.exponent = some (nearestDecimal d) := by
  have hpower := units_powerOfTen hexponent
  have hsmall : d.exponent.natAbs ≤ largestPower := Nat.le_trans hexponent (by decide)
  have hone := one_pos
  have hpow := pow_ten_pos d.exponent.natAbs
  rw [scaleByTen, if_pos hsmall]
  split
  · next hnonneg =>
    have habs : d.exponent.toNat = d.exponent.natAbs ∧ (-d.exponent).toNat = 0 := by omega
    rw [nearestDecimal, habs.1, habs.2, product, hdigits, hpower]
    exact congrArg some (nearestRank_congr hone (by decide) (by ring))
  · next hneg =>
    have habs : d.exponent.toNat = 0 ∧ (-d.exponent).toNat = d.exponent.natAbs := by omega
    rw [nearestDecimal, habs.1, habs.2, quotient, hdigits, hpower]
    exact congrArg some (nearestRank_congr (Nat.mul_pos hpow hone) hpow (by ring))

/-! ## Roundings put together -/

theorem roundoff_pow_pos (n : Nat) : 0 < (1 - roundoff) ^ n := by
  obtain ⟨-, hlt⟩ := roundoff_bounds
  exact pow_pos (by linarith) n

namespace Within

variable {m n : Nat} {u v w x : ℚ}

theorem mul (h : Within m u v) (h' : Within n w x) (hu : 0 ≤ u) (hv : 0 ≤ v) (hw : 0 ≤ w)
    (hx : 0 ≤ x) : Within (m + n) (u * w) (v * x) := by
  have hm := roundoff_pow_pos m
  have hn := roundoff_pow_pos n
  rw [Within, pow_add]
  constructor
  · calc v * x * ((1 - roundoff) ^ m * (1 - roundoff) ^ n)
        = v * (1 - roundoff) ^ m * (x * (1 - roundoff) ^ n) := by ring
      _ ≤ u * w := mul_le_mul h.1 h'.1 (mul_nonneg hx hn.le) hu
  · calc u * w * ((1 - roundoff) ^ m * (1 - roundoff) ^ n)
        = u * (1 - roundoff) ^ m * (w * (1 - roundoff) ^ n) := by ring
      _ ≤ v * x := mul_le_mul h.2 h'.2 (mul_nonneg hw hn.le) hv

theorem inv (h : Within n u v) (hu : 0 < u) (hv : 0 < v) : Within n u⁻¹ v⁻¹ := by
  constructor
  · rw [inv_mul_le_iff₀ hv, ← div_eq_mul_inv, le_div_iff₀ hu, mul_comm]
    exact h.2
  · rw [inv_mul_le_iff₀ hu, ← div_eq_mul_inv, le_div_iff₀ hv, mul_comm]
    exact h.1

theorem div (h : Within m u v) (h' : Within n w x) (hu : 0 ≤ u) (hv : 0 ≤ v) (hw : 0 < w)
    (hx : 0 < x) : Within (m + n) (u / w) (v / x) := by
  rw [div_eq_mul_inv, div_eq_mul_inv]
  exact h.mul (h'.inv hw hx) hu hv (inv_nonneg.2 hw.le) (inv_nonneg.2 hx.le)

theorem trans (h : Within m u v) (h' : Within n v w) : Within (m + n) u w := by
  have hm := roundoff_pow_pos m
  have hn := roundoff_pow_pos n
  rw [Within, pow_add]
  constructor
  · calc w * ((1 - roundoff) ^ m * (1 - roundoff) ^ n)
        = w * (1 - roundoff) ^ n * (1 - roundoff) ^ m := by ring
      _ ≤ v * (1 - roundoff) ^ m := mul_le_mul_of_nonneg_right h'.1 hm.le
      _ ≤ u := h.1
  · calc u * ((1 - roundoff) ^ m * (1 - roundoff) ^ n)
        = u * (1 - roundoff) ^ m * (1 - roundoff) ^ n := by ring
      _ ≤ v * (1 - roundoff) ^ n := mul_le_mul_of_nonneg_right h.2 hn.le
      _ ≤ w := h'.2

end Within

theorem within_ofNat {n : Nat} (h : 0 < n) : Within 1 (units (ofNat n)) (n * one) := by
  have hlarge : binade * 1 ≤ n * one := by
    have hle : binade ≤ one := by decide +kernel
    rw [Nat.mul_one]
    exact Nat.le_trans hle (Nat.le_mul_of_pos_left _ h)
  have hwithin := within_nearestRank (by decide) hlarge
  rw [Nat.cast_one, div_one, Nat.cast_mul] at hwithin
  exact hwithin

theorem within_powerOfTen (k : Nat) : Within 1 (units (powerOfTen k)) (10 ^ k * one) := by
  have hwithin := within_ofNat (pow_ten_pos k)
  rw [Nat.cast_pow, Nat.cast_ofNat] at hwithin
  exact hwithin

/-! ## How far roundings lead -/

/-- A magnitude after so many more is larger by as many roundings at least. -/
theorem units_mul_roundoff (rank more : Nat) :
    (units rank : ℚ) * (1 + more * roundoff) ≤ units (rank + more) := by
  have hcast : (units rank : ℚ) * (2 * binade + more) ≤ units (rank + more) * (2 * binade) := by
    exact_mod_cast units_mul_le rank more
  have hr := roundoff_mul
  have hpos := roundoff_bounds.1
  calc (units rank : ℚ) * (1 + more * roundoff)
      = units rank * (2 * binade + more) * roundoff := by rw [← hr]; ring
    _ ≤ units (rank + more) * (2 * binade) * roundoff := mul_le_mul_of_nonneg_right hcast hpos.le
    _ = units (rank + more) * (roundoff * (2 * binade)) := by ring
    _ = units (rank + more) := by rw [hr, mul_one]

/-- A few roundings do not move a number by more than as many times one of them. -/
theorem one_sub_mul_le (n : Nat) : 1 - n * roundoff ≤ (1 - roundoff) ^ n := by
  have hbernoulli := one_add_mul_le_pow (a := -roundoff) (by linarith [roundoff_bounds.2]) n
  rwa [mul_neg, ← sub_eq_add_neg, ← sub_eq_add_neg] at hbernoulli

theorem mul_roundoff_le {n : Nat} (h : n ≤ 10) : 0 ≤ 1 - n * roundoff := by
  obtain ⟨hpos, hlt⟩ := roundoff_bounds
  have hn : (n : ℚ) ≤ 10 := by exact_mod_cast h
  nlinarith

theorem roundoff_sq_le {n : Nat} (h : n ≤ 10) : (n * roundoff) ^ 2 * 4 ≤ roundoff := by
  obtain ⟨hpos, hlt⟩ := roundoff_bounds
  have hn : (n : ℚ) ≤ 10 := by exact_mod_cast h
  have hsq : (n : ℚ) ^ 2 ≤ 100 := by nlinarith [(Nat.cast_nonneg n : (0 : ℚ) ≤ n)]
  calc (n * roundoff) ^ 2 * 4 = n ^ 2 * (4 * roundoff * roundoff) := by ring
    _ ≤ 100 * (4 * roundoff * roundoff) := by gcongr
    _ = 400 * roundoff * roundoff := by ring
    _ ≤ 1 * roundoff := by gcongr; linarith
    _ = roundoff := one_mul _

/-- A number below the midpoint to the next magnitude is not led beyond as many places more. -/
theorem le_units_of_within {rank n : Nat} {q v : ℚ} (hn : n ≤ 10) (hwithin : Within n q v)
    (hv : v * 2 ≤ units rank + units (rank + 1)) : q ≤ units (rank + 1 + n) := by
  obtain ⟨hpos, hlt⟩ := roundoff_bounds
  have hfew := one_sub_mul_le n
  have hsq := roundoff_sq_le hn
  have hsmall := mul_roundoff_le hn
  have hnext := units_mul_roundoff rank 1
  have hlast := units_mul_roundoff (rank + 1) n
  rw [Nat.cast_one, one_mul] at hnext
  have hself : (0 : ℚ) ≤ units rank := Nat.cast_nonneg _
  have hend : (0 : ℚ) ≤ units (rank + 1 + n) := Nat.cast_nonneg _
  generalize (units rank : ℚ) = u at *
  generalize (units (rank + 1) : ℚ) = a at *
  generalize (units (rank + 1 + n) : ℚ) = b at *
  -- the midpoint is half a step below, which is more than the squares of the roundings come to
  have hroom : 1 ≤ (1 + roundoff) * (1 - 2 * (n * roundoff) ^ 2) := by nlinarith
  have hu : u ≤ a * (1 - 2 * (n * roundoff) ^ 2) :=
    calc u = u * 1 := (mul_one u).symm
      _ ≤ u * ((1 + roundoff) * (1 - 2 * (n * roundoff) ^ 2)) := by gcongr
      _ = u * (1 + roundoff) * (1 - 2 * (n * roundoff) ^ 2) := by ring
      _ ≤ a * (1 - 2 * (n * roundoff) ^ 2) := by
        gcongr
        linarith
  refine le_of_mul_le_mul_right ?_ (roundoff_pow_pos n)
  calc q * (1 - roundoff) ^ n ≤ v := hwithin.2
    _ ≤ a * (1 - (n * roundoff) ^ 2) := by linarith
    _ = a * (1 + n * roundoff) * (1 - n * roundoff) := by ring
    _ ≤ b * (1 - n * roundoff) := by gcongr
    _ ≤ b * (1 - roundoff) ^ n := by gcongr

/-- And a number above the midpoint to the one before is not led below as many places less. -/
theorem units_le_of_within {rank n : Nat} {q v : ℚ} (hn : n ≤ 10) (hwithin : Within n q v)
    (hv : (units (rank + n) + units (rank + n + 1) : ℚ) ≤ v * 2) : units rank ≤ q := by
  obtain ⟨hpos, hlt⟩ := roundoff_bounds
  have hfew := one_sub_mul_le n
  have hsq := roundoff_sq_le hn
  have hsmall := mul_roundoff_le hn
  have hfirst := units_mul_roundoff rank n
  have hnext := units_mul_roundoff (rank + n) 1
  rw [Nat.cast_one, one_mul] at hnext
  have hself : (0 : ℚ) ≤ units rank := Nat.cast_nonneg _
  generalize (units rank : ℚ) = c at *
  generalize (units (rank + n) : ℚ) = a at *
  generalize (units (rank + n + 1) : ℚ) = u at *
  have hroom : 1 ≤ (1 - (n * roundoff) ^ 2) * (1 + roundoff / 2) := by nlinarith
  have hv' : a * (1 + roundoff / 2) ≤ v := by linarith
  have ha : 0 ≤ a := le_trans (by positivity) hfirst
  calc c = c * 1 := (mul_one c).symm
    _ ≤ c * ((1 - (n * roundoff) ^ 2) * (1 + roundoff / 2)) := by gcongr
    _ = c * (1 + n * roundoff) * (1 + roundoff / 2) * (1 - n * roundoff) := by ring
    _ ≤ a * (1 + roundoff / 2) * (1 - n * roundoff) := by gcongr
    _ ≤ v * (1 - n * roundoff) := by gcongr
    _ ≤ v * (1 - roundoff) ^ n := mul_le_mul_of_nonneg_left hfew (le_trans (by positivity) hv')
    _ ≤ q := hwithin.1

/-- The ranks are no more than so many places apart. -/
def Near (places rank other : Nat) : Prop :=
  other ≤ rank + places ∧ rank ≤ other + places

theorem Near.refl {places rank : Nat} : Near places rank rank :=
  ⟨Nat.le_add_right .., Nat.le_add_right ..⟩

theorem Near.mono {places more rank other : Nat} (h : Near places rank other)
    (hle : places ≤ more) : Near more rank other :=
  ⟨Nat.le_trans h.1 (Nat.add_le_add_left hle _), Nat.le_trans h.2 (Nat.add_le_add_left hle _)⟩

/-- So one more rounding leads to one place more at most. -/
theorem nearestRank_drift {num den rank n : Nat} {value : ℚ} (hden : 0 < den) (hn : n ≤ 10)
    (hwithin : Within n (num / den) (value * one)) (hbetween : Between rank value) :
    Near (n + 1) rank (nearestRank num den) := by
  obtain ⟨hbelow, habove⟩ := hbetween
  rw [mul_left_comm, mul_comm 2] at hbelow habove
  have hden' : (0 : ℚ) < den := Nat.cast_pos.2 hden
  constructor
  · have hle := le_units_of_within hn hwithin habove
    rw [show rank + (n + 1) = rank + 1 + n by omega, ← nearestRank_units (rank + 1 + n)]
    refine nearestRank_mono hden Nat.one_pos ?_
    rw [Nat.mul_one]
    exact_mod_cast (div_le_iff₀ hden').1 hle
  · rcases Nat.lt_or_ge rank (n + 1) with hsmall | hlarge
    · omega
    obtain ⟨start, rfl⟩ := Nat.exists_eq_add_of_le' hlarge
    have hle := units_le_of_within hn hwithin hbelow
    suffices hstart : start ≤ nearestRank num den by omega
    rw [← nearestRank_units start]
    refine nearestRank_mono Nat.one_pos hden ?_
    rw [Nat.mul_one]
    exact_mod_cast (le_div_iff₀ hden').1 hle

/-! ## Scaling -/

theorem Within.scale {n : Nat} {u v c : ℚ} (h : Within n u v) (hc : 0 ≤ c) :
    Within n (u * c) (v * c) := by
  constructor
  · calc v * c * (1 - roundoff) ^ n = v * (1 - roundoff) ^ n * c := by ring
      _ ≤ u * c := mul_le_mul_of_nonneg_right h.1 hc
  · calc u * c * (1 - roundoff) ^ n = u * (1 - roundoff) ^ n * c := by ring
      _ ≤ v * c := mul_le_mul_of_nonneg_right h.2 hc

theorem units_powerOfTen_pos (k : Nat) : 0 < units (powerOfTen k) :=
  Nat.lt_of_lt_of_le one_pos (one_le_units_powerOfTen k)

/-- What is rounded to a product with a power of ten. -/
theorem within_product {n : Nat} (h : 0 < n) (k : Nat) :
    Within 2 ((units (ofNat n) * units (powerOfTen k) : Nat) / (one : ℚ)) (n * 10 ^ k * one) := by
  have hdigits := within_ofNat h
  have hpower := within_powerOfTen k
  have hone : (0 : ℚ) < one := Nat.cast_pos.2 one_pos
  rw [Nat.cast_mul, div_eq_mul_inv]
  generalize (one : ℚ) = unit at *
  have hmul := (hdigits.mul hpower (by positivity) (by positivity) (by positivity)
    (by positivity)).scale (inv_nonneg.2 hone.le)
  have hvalue : (n * unit * (10 ^ k * unit) : ℚ) * unit⁻¹ = n * 10 ^ k * unit := by
    field_simp
  rwa [hvalue] at hmul

/-- What is rounded to a quotient by a power of ten. -/
theorem within_quotient {rank m : Nat} {v : ℚ} (h : Within m (units rank) v) (hv : 0 ≤ v)
    (k : Nat) :
    Within (m + 1) ((units rank * one : Nat) / (units (powerOfTen k) : ℚ)) (v / 10 ^ k) := by
  have hpower := within_powerOfTen k
  have hone : (0 : ℚ) < one := Nat.cast_pos.2 one_pos
  have hpos : (0 : ℚ) < units (powerOfTen k) := Nat.cast_pos.2 (units_powerOfTen_pos k)
  rw [Nat.cast_mul, mul_div_right_comm]
  generalize (one : ℚ) = unit at *
  have hdiv := (h.div hpower (by positivity) hv hpos (by positivity)).scale hone.le
  have hvalue : v / (10 ^ k * unit) * unit = v / 10 ^ k := by
    field_simp
  rwa [hvalue] at hdiv

/-- The first of two quotients is not subnormal, unless the significand is one or two. -/
theorem within_first_quotient {n : Nat} (h : 3 ≤ n) :
    Within 3 (units (quotient (ofNat n) (powerOfTen largestPower)))
      (n * one / 10 ^ largestPower) := by
  have hsmall : binade * units (powerOfTen largestPower) ≤ units (ofNat 3) * one := by
    decide +kernel
  have hlarge : binade * units (powerOfTen largestPower) ≤ units (ofNat n) * one :=
    Nat.le_trans hsmall (Nat.mul_le_mul_right _ (units_mono (ofNat_mono h)))
  have hround := within_nearestRank (units_powerOfTen_pos largestPower) hlarge
  have hvalue : (0 : ℚ) ≤ n * one := mul_nonneg (Nat.cast_nonneg _) (Nat.cast_nonneg _)
  exact hround.trans (within_quotient (within_ofNat (by omega)) hvalue largestPower)

/-- With these two the quotients lead to the nearest magnitude all the same. -/
theorem quotients_of_small : ∀ n < 3, ∀ more < 16,
    quotient (quotient (ofNat n) (powerOfTen largestPower)) (powerOfTen (more + 1)) =
      nearestDecimal ⟨n, -((309 + more : Nat) : Int)⟩ := by
  decide +kernel

/-- A decimal number that is rounded to a magnitude is not too small for its significand. -/
theorem pow_le_of_between {rank : Nat} (hrank : 0 < rank) {d : Decimal}
    (h : Between rank d.value) {k : Nat} (hk : d.exponent = -(k : Int)) :
    10 ^ k ≤ d.digits * (2 * one) := by
  have hunits : (1 : ℚ) ≤ units rank := by exact_mod_cast units_pos hrank
  have hprev : (0 : ℚ) ≤ units (rank - 1) := Nat.cast_nonneg _
  have hvalue : (1 : ℚ) ≤ d.digits * (2 * one) / 10 ^ k := by
    calc (1 : ℚ) ≤ units (rank - 1) + units rank := by linarith
      _ ≤ d.value * (2 * one) := h.1
      _ = d.digits * (2 * one) / 10 ^ k := by rw [value_of_neg hk, div_mul_eq_mul_div]
  rw [one_le_div₀ (by positivity)] at hvalue
  exact_mod_cast hvalue

/-- The limit is given in two factors, for neither of which is so large as to be left as it is. -/
theorem lt_of_pow_le {n k l m : Nat} (h : 10 ^ k ≤ n) (hn : n < (10 ^ l) ^ m) : k < l * m := by
  rw [← Nat.pow_mul] at hn
  exact (Nat.pow_lt_pow_iff_right (by decide)).1 (Nat.lt_of_le_of_lt h hn)

/-- So the exponent is not very small if the significand fits into 64 bits. -/
theorem neg_exponent_lt_of_between {rank : Nat} (hrank : 0 < rank) {d : Decimal}
    (h : Between rank d.value) (hdigits : d.digits ≤ 2 ^ 64) : -d.exponent < 400 := by
  rcases Int.lt_or_le 0 d.exponent with hpos | hneg
  · omega
  obtain ⟨k, hk⟩ := Int.eq_ofNat_of_zero_le (Int.neg_nonneg_of_nonpos hneg)
  have hpow := pow_le_of_between hrank h (by omega : d.exponent = -(k : Int))
  have hlimit : 2 ^ 64 * (2 * one) < (10 ^ 100) ^ 4 := by decide +kernel
  have hend := lt_of_pow_le (Nat.le_trans hpow (Nat.mul_le_mul_right _ hdigits)) hlimit
  omega

theorem scaleByTen_of_nonneg {rank k : Nat} (h : k ≤ largestPower) :
    scaleByTen rank k = some (product rank (powerOfTen k)) := by
  rw [scaleByTen, Int.natAbs_natCast, if_pos h, if_pos (Int.natCast_nonneg k)]

theorem scaleByTen_of_neg {rank k : Nat} (hpos : 0 < k) (h : k ≤ largestPower) :
    scaleByTen rank (-(k : Int)) = some (quotient rank (powerOfTen k)) := by
  rw [scaleByTen, Int.natAbs_neg, Int.natAbs_natCast, if_pos h, if_neg (by omega)]

theorem scaleByTen_of_large {rank more : Nat} (hrank : rank ≠ 0) (hpos : 0 < more) :
    scaleByTen rank (-((largestPower + more : Nat) : Int)) =
      scaleByTen (quotient rank (powerOfTen largestPower)) (-(more : Int)) := by
  have hlarge : ¬(largestPower + more ≤ largestPower) := by omega
  have hnext : -((largestPower + more : Nat) : Int) + (largestPower : Nat) = -(more : Int) := by
    omega
  rw [scaleByTen, Int.natAbs_neg, Int.natAbs_natCast, if_neg hlarge, if_neg hrank,
    if_neg (by omega), hnext]

theorem ofNat_ne_zero {n : Nat} (h : 0 < n) : ofNat n ≠ 0 := by
  have hfirst : 0 < ofNat 1 := by decide +kernel
  exact Nat.ne_of_gt (Nat.lt_of_lt_of_le hfirst (ofNat_mono h))

/-- A product leads no farther than three places. -/
theorem product_drift {rank : Nat} {d : Decimal} (hrank : 0 < rank)
    (hbetween : Between rank d.value) {k : Nat} (hexponent : d.exponent = k) :
    Near 3 rank (product (ofNat d.digits) (powerOfTen k)) := by
  have hwithin := within_product (digits_pos_of_between hrank hbetween) k
  have hvalue : (d.digits * 10 ^ k * one : ℚ) = d.value * one := by
    rw [Decimal.value, hexponent, zpow_natCast]
  rw [hvalue] at hwithin
  exact nearestRank_drift one_pos (by decide) hwithin hbetween

/-- Neither does a quotient. -/
theorem quotient_drift {rank : Nat} {d : Decimal} (hrank : 0 < rank)
    (hbetween : Between rank d.value) {k : Nat} (hexponent : d.exponent = -(k : Int)) :
    Near 3 rank (quotient (ofNat d.digits) (powerOfTen k)) := by
  have hwithin := within_quotient (within_ofNat (digits_pos_of_between hrank hbetween))
    (mul_nonneg (Nat.cast_nonneg _) (Nat.cast_nonneg _)) k
  have hvalue : (d.digits * one / 10 ^ k : ℚ) = d.value * one := by
    rw [value_of_neg hexponent, div_mul_eq_mul_div]
  rw [hvalue] at hwithin
  exact nearestRank_drift (units_powerOfTen_pos k) (by decide) hwithin hbetween

/-- Two quotients, which a very negative exponent asks for, lead no farther than five. -/
theorem quotients_drift {rank : Nat} {d : Decimal} (hrank : 0 < rank)
    (hnearest : nearestDecimal d = rank) (hbetween : Between rank d.value) {more : Nat}
    (hpos : 0 < more) (hexponent : d.exponent = -((largestPower + more : Nat) : Int)) :
    Near 5 rank (quotient (quotient (ofNat d.digits) (powerOfTen largestPower))
      (powerOfTen more)) := by
  -- one or two by the largest power of ten is subnormal, and rounded by more than `Within` allows
  rcases Nat.lt_or_ge d.digits 3 with hfew | hmany
  · have hpow := pow_le_of_between hrank hbetween hexponent
    have hlimit : 2 * (2 * one) < (10 ^ 65) ^ 5 := by decide +kernel
    have hle : d.digits * (2 * one) ≤ 2 * (2 * one) :=
      Nat.mul_le_mul_right _ (Nat.le_of_lt_succ hfew)
    have hmore := lt_of_pow_le (Nat.le_trans hpow hle) hlimit
    have hlast : more < 17 := by
      rw [largestPower] at hmore
      omega
    obtain ⟨rest, rfl⟩ := Nat.exists_eq_add_of_le' hpos
    have hsame := quotients_of_small d.digits hfew rest (by omega)
    have hd : (⟨d.digits, -((309 + rest : Nat) : Int)⟩ : Decimal) = d := by
      rw [show 309 + rest = largestPower + (rest + 1) by rw [largestPower]; omega, ← hexponent]
    rw [hsame, hd, hnearest]
    exact .refl
  · have hfirst := within_first_quotient hmany
    have hnonneg : (0 : ℚ) ≤ d.digits * one / 10 ^ largestPower :=
      div_nonneg (mul_nonneg (Nat.cast_nonneg _) (Nat.cast_nonneg _)) (by positivity)
    have hwithin := within_quotient hfirst hnonneg more
    have hvalue : (d.digits * one / 10 ^ largestPower / 10 ^ more : ℚ) = d.value * one := by
      rw [value_of_neg hexponent, div_div, ← pow_add, div_mul_eq_mul_div]
    rw [hvalue] at hwithin
    exact nearestRank_drift (units_powerOfTen_pos more) (by decide) hwithin hbetween

/-- **Scaling leads no farther than five places from the nearest magnitude.** -/
theorem scaleByTen_drift {rank : Nat} (hrank : 0 < rank) {d : Decimal}
    (hnearest : nearestDecimal d = rank) (hbetween : Between rank d.value)
    (hdigits : d.digits ≤ 2 ^ 64) (hexponent : d.exponent ≤ largestPower) :
    ∃ scaled, scaleByTen (ofNat d.digits) d.exponent = some scaled ∧ Near 5 rank scaled := by
  have hpos := digits_pos_of_between hrank hbetween
  rcases Int.lt_or_le d.exponent 0 with hneg | hnonneg
  · obtain ⟨k, hk⟩ := Int.eq_ofNat_of_zero_le (Int.neg_nonneg_of_nonpos (Int.le_of_lt hneg))
    have hexponent : d.exponent = -(k : Int) := by omega
    rcases Nat.lt_or_ge largestPower k with hlarge | hsmall
    · obtain ⟨more, rfl⟩ := Nat.exists_eq_add_of_le (Nat.le_of_lt hlarge)
      have hmore : 0 < more := by omega
      have hlast : more ≤ largestPower := by
        have hlow := neg_exponent_lt_of_between hrank hbetween hdigits
        rw [largestPower] at hexponent ⊢
        omega
      rw [hexponent, scaleByTen_of_large (ofNat_ne_zero hpos) hmore, scaleByTen_of_neg hmore hlast]
      exact ⟨_, rfl, quotients_drift hrank hnearest hbetween hmore hexponent⟩
    · rw [hexponent, scaleByTen_of_neg (by omega) hsmall]
      exact ⟨_, rfl, (quotient_drift hrank hbetween hexponent).mono (by decide)⟩
  · obtain ⟨k, hk⟩ := Int.eq_ofNat_of_zero_le hnonneg
    rw [hk, scaleByTen_of_nonneg (by omega)]
    exact ⟨_, rfl, (product_drift hrank hbetween hk).mono (by decide)⟩

end Binary64
end OpcodeTable
