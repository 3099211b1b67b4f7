import Mathlib.Data.Nat.Log
import Mathlib.Tactic.Linarith
import Mathlib.Tactic.Ring
import OpcodeTable.Number.Binary64

/-!
# Rounding keeps the order

A larger fraction is never rounded to a smaller magnitude, and so the operations on magnitudes keep
the order as well.  What can come of many numbers is therefore bounded by what comes of the largest
of them, and that is computed.

## What is here

* `Binary64.units_mono`, `Binary64.halfEven_mono` and `Binary64.nearestRank_mono`.
* `Binary64.exists_scaleByTen_of_nonpos`, by which no significand is too large with a negative
  exponent.
* `Binary64.isSome_ofDecimal?`, which decimal numbers are not too large.
-/

set_option autoImplicit false

namespace OpcodeTable
namespace Binary64

theorem binade_pos : 0 < binade := by decide

/-! ## Magnitudes -/

theorem units_of_lt {rank : Nat} (h : rank < binade) : units rank = rank := by
  rw [units, significand, if_pos h, scale, Nat.div_eq_of_lt h]
  rfl

theorem units_of_le {rank : Nat} (h : binade ≤ rank) :
    units rank = (binade + rank % binade) * 2 ^ (rank / binade - 1) := by
  rw [units, significand, if_neg (Nat.not_lt.2 h), scale, Nat.shiftLeft_eq]

/-- One binade ends where the next one begins. -/
theorem binade_le {m n k l : Nat} (hm : m < binade) (hkl : k < l) :
    (binade + m) * 2 ^ k ≤ (binade + n) * 2 ^ l :=
  calc (binade + m) * 2 ^ k ≤ (2 * binade) * 2 ^ k := Nat.mul_le_mul_right _ (by omega)
    _ = binade * 2 ^ (k + 1) := by ring
    _ ≤ (binade + n) * 2 ^ l :=
        Nat.mul_le_mul (Nat.le_add_right ..) (Nat.pow_le_pow_right (by decide) hkl)

/-- A larger rank is a larger magnitude. -/
theorem units_mono {a b : Nat} (h : a ≤ b) : units a ≤ units b := by
  rcases Nat.lt_or_ge b binade with hb | hb
  · rwa [units_of_lt hb, units_of_lt (Nat.lt_of_le_of_lt h hb)]
  rcases Nat.lt_or_ge a binade with ha | ha
  · rw [units_of_lt ha, units_of_le hb]
    calc a ≤ binade + b % binade := by omega
      _ ≤ _ := Nat.le_mul_of_pos_right _ Nat.one_le_two_pow
  rw [units_of_le ha, units_of_le hb]
  have hfirst : 1 ≤ a / binade := (Nat.one_le_div_iff binade_pos).2 ha
  rcases Nat.lt_or_ge (a / binade) (b / binade) with hlt | hge
  · exact binade_le (Nat.mod_lt a binade_pos) (by omega)
  · have heq : a / binade = b / binade := Nat.le_antisymm (Nat.div_le_div_right h) hge
    have hmod : a % binade ≤ b % binade := by
      have ha := Nat.div_add_mod a binade
      have hb := Nat.div_add_mod b binade
      rw [heq] at ha
      omega
    rw [heq]
    exact Nat.mul_le_mul_right _ (Nat.add_le_add_left hmod _)

/-! ## Rounding -/

theorem div_le_div_of_mul_le {num den num' den' : Nat} (hden : 0 < den) (hden' : 0 < den')
    (h : num * den' ≤ num' * den) : num / den ≤ num' / den' := by
  refine (Nat.le_div_iff_mul_le hden').2 (Nat.le_of_mul_le_mul_right ?_ hden)
  calc num / den * den' * den = num / den * den * den' := Nat.mul_right_comm ..
    _ ≤ num * den' := Nat.mul_le_mul_right _ (Nat.div_mul_le_self ..)
    _ ≤ num' * den := h

theorem halfEven_eq (num den : Nat) : halfEven num den =
    if den < 2 * (num % den) ∨ 2 * (num % den) = den ∧ num / den % 2 = 1 then num / den + 1
    else num / den :=
  rfl

theorem div_le_halfEven (num den : Nat) : num / den ≤ halfEven num den := by
  rw [halfEven_eq]
  split
  · exact Nat.le_succ _
  · exact Nat.le_refl _

theorem halfEven_le (num den : Nat) : halfEven num den ≤ num / den + 1 := by
  rw [halfEven_eq]
  split
  · exact Nat.le_refl _
  · exact Nat.le_succ _

/-- A larger fraction has no smaller whole number nearest to it. -/
theorem halfEven_mono {num den num' den' : Nat} (hden : 0 < den) (hden' : 0 < den')
    (h : num * den' ≤ num' * den) : halfEven num den ≤ halfEven num' den' := by
  rcases Nat.lt_or_ge (num / den) (num' / den') with hlt | hge
  · calc halfEven num den ≤ num / den + 1 := halfEven_le ..
      _ ≤ num' / den' := hlt
      _ ≤ halfEven num' den' := div_le_halfEven ..
  have hfloor : num / den = num' / den' :=
    Nat.le_antisymm (div_le_div_of_mul_le hden hden' h) hge
  -- the whole parts are the same, so the order is that of what is left of them
  have hrest : num % den * den' ≤ num' % den' * den := by
    have hnum := Nat.div_add_mod num den
    have hnum' := Nat.div_add_mod num' den'
    rw [hfloor] at hnum
    have hsum : (den * (num' / den') + num % den) * den' ≤
        (den' * (num' / den') + num' % den') * den := by
      rwa [hnum, hnum']
    linarith
  rw [halfEven_eq, halfEven_eq, hfloor]
  split
  · next hup =>
    refine Nat.le_of_eq (if_pos ?_).symm
    rcases hup with hmore | ⟨htie, hodd⟩
    · left
      nlinarith
    · rcases Nat.lt_or_ge den' (2 * (num' % den')) with hmore | hno
      · exact .inl hmore
      · refine .inr ⟨Nat.le_antisymm hno ?_, hodd⟩
        nlinarith
  · split
    · exact Nat.le_succ _
    · exact Nat.le_refl _

/-- The nearest magnitude in one binade has its rank at the place that the binade begins at. -/
theorem nearestRank_eq (num den : Nat) : nearestRank num den =
    ((num / den).log2 - 52) * binade + halfEven num (den <<< ((num / den).log2 - 52)) :=
  rfl

/-- What is left of a number without all but the first 53 binary digits. -/
theorem shifted_lt (n : Nat) : n / 2 ^ (n.log2 - 52) < 2 * binade := by
  have hlt : n < 2 ^ (n.log2 + 1) := Nat.lt_log2_self
  refine (Nat.div_lt_iff_lt_mul (Nat.two_pow_pos _)).2 (Nat.lt_of_lt_of_le hlt ?_)
  have hbinade : 2 * binade = 2 ^ 53 := by decide
  rw [hbinade, ← Nat.pow_add]
  exact Nat.pow_le_pow_right (by decide) (by omega)

theorem le_shifted {n : Nat} (h : 52 < n.log2) : binade ≤ n / 2 ^ (n.log2 - 52) := by
  have hne : n ≠ 0 := by
    rintro rfl
    simp at h
  refine (Nat.le_div_iff_mul_le (Nat.two_pow_pos _)).2 ?_
  have hbinade : binade = 2 ^ 52 := by decide
  rw [hbinade, ← Nat.pow_add, show 52 + (n.log2 - 52) = n.log2 by omega]
  exact Nat.log2_self_le hne

theorem nearestRank_le (num den : Nat) :
    nearestRank num den ≤ ((num / den).log2 - 52) * binade + 2 * binade := by
  rw [nearestRank_eq]
  refine Nat.add_le_add_left (Nat.le_trans (halfEven_le ..) ?_) _
  rw [Nat.shiftLeft_eq, ← Nat.div_div_eq_div_mul]
  exact shifted_lt _

theorem le_nearestRank {num den : Nat} (h : 52 < (num / den).log2) :
    ((num / den).log2 - 52) * binade + binade ≤ nearestRank num den := by
  rw [nearestRank_eq]
  refine Nat.add_le_add_left (Nat.le_trans ?_ (div_le_halfEven ..)) _
  rw [Nat.shiftLeft_eq, ← Nat.div_div_eq_div_mul]
  exact le_shifted h

/-- **A larger fraction is not rounded to a smaller magnitude.** -/
theorem nearestRank_mono {num den num' den' : Nat} (hden : 0 < den) (hden' : 0 < den')
    (h : num * den' ≤ num' * den) : nearestRank num den ≤ nearestRank num' den' := by
  have hlog : (num / den).log2 ≤ (num' / den').log2 := by
    have hfloor := div_le_div_of_mul_le hden hden' h
    rw [Nat.log2_eq_log_two, Nat.log2_eq_log_two]
    exact Nat.log_mono_right hfloor
  rcases Nat.lt_or_ge ((num / den).log2 - 52) ((num' / den').log2 - 52) with hlt | hge
  · have hle := nearestRank_le num den
    have hge : _ ≤ nearestRank num' den' := le_nearestRank (by omega)
    have hblocks := Nat.mul_le_mul_right binade (Nat.succ_le_of_lt hlt)
    rw [Nat.succ_mul] at hblocks
    omega
  · have hsame : (num / den).log2 - 52 = (num' / den').log2 - 52 := by omega
    rw [nearestRank_eq, nearestRank_eq, hsame]
    refine Nat.add_le_add_left (halfEven_mono ?_ ?_ ?_) _
    · rw [Nat.shiftLeft_eq]
      exact Nat.mul_pos hden (Nat.two_pow_pos _)
    · rw [Nat.shiftLeft_eq]
      exact Nat.mul_pos hden' (Nat.two_pow_pos _)
    · rw [Nat.shiftLeft_eq, Nat.shiftLeft_eq, ← Nat.mul_assoc, ← Nat.mul_assoc]
      exact Nat.mul_le_mul_right _ h

/-! ## Operations -/

theorem one_pos : 0 < one := by decide +kernel

theorem ofNat_mono {m n : Nat} (h : m ≤ n) : ofNat m ≤ ofNat n :=
  nearestRank_mono (by decide) (by decide) (Nat.mul_le_mul_right _ (Nat.mul_le_mul_right _ h))

theorem product_mono {a b c d : Nat} (hab : a ≤ b) (hcd : c ≤ d) : product a c ≤ product b d :=
  nearestRank_mono one_pos one_pos
    (Nat.mul_le_mul_right _ (Nat.mul_le_mul (units_mono hab) (units_mono hcd)))

theorem powerOfTen_mono {k l : Nat} (h : k ≤ l) : powerOfTen k ≤ powerOfTen l :=
  ofNat_mono (Nat.pow_le_pow_right (by decide) h)

/-- A power of ten is at least one. -/
theorem one_le_units_powerOfTen (k : Nat) : one ≤ units (powerOfTen k) := by
  have hone : units (ofNat 1) = one := by decide +kernel
  rw [← hone]
  exact units_mono (ofNat_mono (Nat.one_le_pow _ _ (by decide)))

/-! ## Scaling -/

/-- Division by a power of ten does not lead beyond the largest significand. -/
theorem quotient_le {rank : Nat} (h : rank ≤ ofNat (2 ^ 64)) (k : Nat) :
    quotient rank (powerOfTen k) ≤ ofNat (2 ^ 64) := by
  have hpower := one_le_units_powerOfTen k
  have hround : nearestRank (units (ofNat (2 ^ 64)) * one) one = ofNat (2 ^ 64) := by
    decide +kernel
  rw [quotient, ← hround]
  refine nearestRank_mono (Nat.lt_of_lt_of_le one_pos hpower) one_pos ?_
  exact Nat.mul_le_mul (Nat.mul_le_mul_right _ (units_mono h)) hpower

/-- With a negative exponent there is always an answer. -/
theorem exists_scaleByTen_of_neg {rank : Nat} {exponent : Int} (hrank : rank ≤ ofNat (2 ^ 64))
    (hexponent : exponent ≤ 0) :
    ∃ scaled, scaleByTen rank exponent = some scaled ∧ scaled ≤ ofNat (2 ^ 64) := by
  have hproduct : product (ofNat (2 ^ 64)) (powerOfTen 0) ≤ ofNat (2 ^ 64) := by
    decide +kernel
  fun_induction scaleByTen rank exponent with
  | case1 rank exponent hsmall hnonneg =>
    have hzero : exponent = 0 := by omega
    subst hzero
    exact ⟨_, rfl, Nat.le_trans (product_mono hrank (Nat.le_refl _)) hproduct⟩
  | case2 rank exponent hsmall hneg => exact ⟨_, rfl, quotient_le hrank _⟩
  | case3 exponent hlarge => exact ⟨_, rfl, Nat.zero_le _⟩
  | case4 rank exponent hlarge hrank hpos => omega
  | case5 rank exponent hlarge hrank hneg ih =>
    refine ih (quotient_le hrank _) ?_
    simp only [largestPower] at *
    omega

/-- Twice the midpoint between the two largest magnitudes. -/
def largestMidpoint : Nat :=
  units (infiniteRank - 2) + units (infiniteRank - 1)

theorem largestMidpoint_lt {k : Nat} (h : 309 ≤ k) : largestMidpoint < 2 * one * 10 ^ k := by
  have hfirst : largestMidpoint < 2 * one * (10 ^ 103) ^ 3 := by decide +kernel
  have hpow : ∀ m n, m * n ≤ k → (10 ^ m) ^ n ≤ 10 ^ k := fun m n hmn => by
    rw [← Nat.pow_mul]
    exact Nat.pow_le_pow_right (by decide) hmn
  exact Nat.lt_of_lt_of_le hfirst (Nat.mul_le_mul_left _ (hpow 103 3 h))

/-- The largest significand of 64 bits that does not lead beyond this midpoint with an exponent. -/
def decimalLimit (exponent : Nat) : Nat :=
  min (2 ^ 64) (largestMidpoint / (2 * one * 10 ^ exponent))

/-- Not even these are rounded to something that is too large.  Up to the exponent 288 the limit
is that of 64 bits, and the largest exponent stands for all of these. -/
theorem product_decimalLimit {k : Nat} (h : k < 309) :
    product (ofNat (decimalLimit k)) (powerOfTen k) < infiniteRank := by
  rcases Nat.lt_or_ge k 288 with hsmall | hlarge
  · have hle : product (ofNat (decimalLimit k)) (powerOfTen k) ≤
        product (ofNat (2 ^ 64)) (powerOfTen 288) :=
      product_mono (ofNat_mono (Nat.min_le_left ..)) (powerOfTen_mono (Nat.le_of_lt hsmall))
    exact Nat.lt_of_le_of_lt hle (by decide +kernel)
  · have hcases : ∀ more < 21,
        product (ofNat (decimalLimit (288 + more))) (powerOfTen (288 + more)) < infiniteRank := by
      decide +kernel
    obtain ⟨more, rfl⟩ := Nat.exists_eq_add_of_le hlarge
    exact hcases more (by omega)

/-- **A decimal number is not too large if its significand fits into 64 bits and it does not lie
beyond the midpoint between the two largest magnitudes.**  Beyond that midpoint the three roundings
may come out too large, although the number itself is closer to a finite magnitude. -/
theorem isSome_ofDecimal? {negative : Bool} {significand : Nat} {exponent : Int}
    (hsignificand : significand ≤ 2 ^ 64)
    (h : ∀ k : Nat, exponent = k → significand * (2 * one * 10 ^ k) ≤ largestMidpoint) :
    (ofDecimal? negative significand exponent).isSome = true := by
  have hrank : ofNat significand ≤ ofNat (2 ^ 64) := ofNat_mono hsignificand
  suffices hscaled : ∃ scaled, scaleByTen (ofNat significand) exponent = some scaled ∧
      scaled < infiniteRank by
    obtain ⟨scaled, hscale, hfinite⟩ := hscaled
    rw [ofDecimal?, hscale, Option.bind_some, ofRank?, dif_pos hfinite]
    rfl
  rcases Int.lt_or_le exponent 0 with hneg | hnonneg
  · obtain ⟨scaled, hscale, hle⟩ := exists_scaleByTen_of_neg hrank (Int.le_of_lt hneg)
    have hfinite : ofNat (2 ^ 64) < infiniteRank := by decide +kernel
    exact ⟨scaled, hscale, Nat.lt_of_le_of_lt hle hfinite⟩
  obtain ⟨k, rfl⟩ := Int.eq_ofNat_of_zero_le hnonneg
  have hlimit := h k rfl
  rw [scaleByTen]
  by_cases hk : k < 309
  · have hle : significand ≤ decimalLimit k := by
      refine Nat.le_min.2 ⟨hsignificand, (Nat.le_div_iff_mul_le ?_).2 hlimit⟩
      exact Nat.mul_pos (Nat.mul_pos (by decide) one_pos) (Nat.pow_pos (by decide))
    have hsmall : (k : Int).natAbs ≤ largestPower := by
      rw [Int.natAbs_natCast, largestPower]
      omega
    rw [if_pos hsmall, if_pos hnonneg, Int.natAbs_natCast]
    refine ⟨_, rfl, Nat.lt_of_le_of_lt ?_ (product_decimalLimit hk)⟩
    exact product_mono (ofNat_mono hle) (Nat.le_refl _)
  · -- only zero has so large an exponent
    have hpower := largestMidpoint_lt (Nat.le_of_not_lt hk)
    have hzero : significand = 0 := by
      by_contra hne
      have hpos := Nat.le_mul_of_pos_left (2 * one * 10 ^ k) (Nat.pos_of_ne_zero hne)
      omega
    have hlarge : ¬(k : Int).natAbs ≤ largestPower := by
      rw [Int.natAbs_natCast, largestPower]
      omega
    have hrank : ofNat 0 = 0 := by decide +kernel
    rw [hzero, if_neg hlarge, if_pos hrank]
    exact ⟨0, rfl, by decide⟩

end Binary64
end OpcodeTable
