import Mathlib.Tactic.FieldSimp
import OpcodeTable.Proofs.Number.Nearest

/-!
# Seventeen digits are always enough

A decimal grid that is finer than the distance between the two neighbours of a magnitude has a point
that is rounded to the magnitude, and the grid of the seventeenth digit is that fine.  So the search
for the shortest decimal always ends on a grid.

## What is here

* `Binary64.leadingExponent_bounds`, what the exponent of the leading digit says of a magnitude.
* `Binary64.exists_onGrid?_of_fine`, by which something is found on a grid that is fine enough, and
  `Binary64.exists_onGrid?_seventeenth`, by which the grid of the seventeenth digit is.
* `Binary64.shortest_spec`, by which the shortest decimal has at most seventeen digits and is
  rounded to its magnitude.
-/

set_option autoImplicit false

namespace OpcodeTable
namespace Binary64

/-! ## The leading digit -/

/-- The number of digits is one more than the exponent of the leading digit. -/
theorem digitCount_spec {n : Nat} (h : 0 < n) :
    ∃ leading, digitCount n = leading + 1 ∧ 10 ^ leading ≤ n ∧ n < 10 ^ (leading + 1) := by
  fun_induction digitCount n with
  | case1 => cases h
  | case2 n hn ih =>
    rcases Nat.eq_zero_or_pos (n / 10) with hzero | hpos
    · refine ⟨0, ?_, h, by omega⟩
      rw [hzero, digitCount, if_pos rfl]
    · obtain ⟨leading, hcount, hlow, hhigh⟩ := ih hpos
      refine ⟨leading + 1, by rw [hcount], ?_, ?_⟩
      · rw [Nat.pow_succ]
        omega
      · rw [Nat.pow_succ]
        omega

/-- A magnitude lies between two powers of ten, which the leading digit tells. -/
theorem leadingExponent_bounds {rank : Nat} (h : 0 < rank) :
    (10 : ℚ) ^ leadingExponent rank * one ≤ units rank ∧
      (units rank : ℚ) < 10 ^ (leadingExponent rank + 1) * one := by
  have hunits := units_pos h
  rw [leadingExponent]
  split
  · next hge =>
    obtain ⟨leading, hcount, hlow, hhigh⟩ := digitCount_spec (Nat.div_pos hge one_pos)
    have hexponent : ((leading + 1 : Nat) : Int) - 1 = leading := by omega
    rw [hcount, hexponent, ← Nat.cast_succ, zpow_natCast, zpow_natCast]
    constructor
    · exact_mod_cast (Nat.le_div_iff_mul_le one_pos).1 hlow
    · exact_mod_cast (Nat.div_lt_iff_lt_mul one_pos).1 hhigh
  · next hlt =>
    have hle : units rank ≤ one - 1 := by omega
    obtain ⟨leading, hcount, hlow, hhigh⟩ := digitCount_spec (Nat.div_pos hle hunits)
    have hexponent : -((leading + 1 : Nat) : Int) + 1 = -(leading : Int) := by omega
    rw [hcount, hexponent, zpow_neg, zpow_neg, zpow_natCast, zpow_natCast]
    have hone := one_pos
    constructor
    · refine (inv_mul_le_iff₀ (by positivity)).2 ?_
      have hlast := (Nat.div_lt_iff_lt_mul hunits).1 hhigh
      have hcast : one ≤ 10 ^ (leading + 1) * units rank := by omega
      exact_mod_cast hcast
    · refine (lt_inv_mul_iff₀ (by positivity)).2 ?_
      have hfirst := (Nat.le_div_iff_mul_le hunits).1 hlow
      have hcast : 10 ^ leading * units rank < one := by omega
      exact_mod_cast hcast

/-! ## Fine grids -/

theorem roundsTo_of_between {rank num den : Nat}
    (hbelow : (units (rank - 1) + units rank) * den < num)
    (habove : num < (units rank + units (rank + 1)) * den) : roundsTo rank num den = true := by
  rw [roundsTo]
  split
  · exact decide_eq_true ⟨Nat.le_of_lt hbelow, Nat.le_of_lt habove⟩
  · exact decide_eq_true ⟨hbelow, habove⟩

/-- On a grid that is finer than the distance between the two neighbours of a magnitude, one of the
two points beside it is rounded to it. -/
theorem gridPoint_of_fine {rank : Nat} {exponent : Int}
    (h : units (rank - 1) * 10 ^ (-exponent).toNat + 2 * one * 10 ^ exponent.toNat <
      units (rank + 1) * 10 ^ (-exponent).toNat) :
    gridPoint rank exponent (gridFloor rank exponent) = true ∨
      gridPoint rank exponent (gridFloor rank exponent + 1) = true := by
  have hstep : 0 < 2 * one * 10 ^ exponent.toNat :=
    Nat.mul_pos (Nat.mul_pos (by decide) one_pos) (Nat.pow_pos (by decide))
  have hsplit := Nat.div_add_mod' (2 * units rank * 10 ^ (-exponent).toNat)
    (2 * one * 10 ^ exponent.toNat)
  have hmod := Nat.mod_lt (2 * units rank * 10 ^ (-exponent).toNat) hstep
  have hprev : units (rank - 1) * 10 ^ (-exponent).toNat ≤ units rank * 10 ^ (-exponent).toNat :=
    Nat.mul_le_mul_right _ (units_mono (Nat.sub_le ..))
  have hnext :
      units rank * 10 ^ (-exponent).toNat < units (rank + 1) * 10 ^ (-exponent).toNat := by
    rw [units_succ]
    exact Nat.mul_lt_mul_of_pos_right (Nat.lt_add_of_pos_right (Nat.two_pow_pos _))
      (Nat.pow_pos (by decide))
  rw [← gridFloor, Nat.mul_assoc 2 (units rank)] at hsplit
  rw [Nat.mul_assoc 2 (units rank)] at hmod
  unfold gridPoint
  generalize 2 * one * 10 ^ exponent.toNat = step at *
  generalize 10 ^ (-exponent).toNat = den at *
  have hlast := Nat.add_one_mul (gridFloor rank exponent) step
  have hmiddle := Nat.add_mul (units (rank - 1)) (units rank) den
  have hmiddle' := Nat.add_mul (units rank) (units (rank + 1)) den
  rcases Nat.lt_or_ge ((units (rank - 1) + units rank) * den) (gridFloor rank exponent * step)
    with hlower | hupper
  · exact .inl (roundsTo_of_between hlower (by omega))
  · exact .inr (roundsTo_of_between (by omega) (by omega))

/-- So something is found on it. -/
theorem exists_onGrid?_of_fine {rank : Nat} {exponent : Int}
    (h : units (rank - 1) * 10 ^ (-exponent).toNat + 2 * one * 10 ^ exponent.toNat <
      units (rank + 1) * 10 ^ (-exponent).toNat) : ∃ d, onGrid? rank exponent = some d := by
  have hpoint := gridPoint_of_fine h
  rw [onGrid?_eq]
  split
  · exact ⟨_, rfl⟩
  · exact ⟨_, rfl⟩
  · exact ⟨_, rfl⟩
  · next hlower hupper =>
    rw [hlower, hupper] at hpoint
    simp at hpoint

/-- A magnitude is at most `2 ^ 52` times the distance between its neighbours. -/
theorem units_le_gaps {rank : Nat} (h : 0 < rank) :
    units rank ≤ binade * (2 ^ scale (rank - 1) + 2 ^ scale rank) := by
  rw [units_eq]
  rcases scale_pred h with ⟨hsame, -⟩ | ⟨hscale, hfirst⟩
  · rw [← hsame, ← Nat.two_mul, ← Nat.mul_assoc, Nat.mul_comm binade]
    exact Nat.mul_le_mul_right _ (Nat.le_of_lt (significand_lt rank))
  · rw [hfirst]
    exact Nat.mul_le_mul_left _ (Nat.le_add_left ..)

/-- How many steps of a grid a magnitude is, if the grid is that of its leading digit or a finer
one. -/
theorem grid_bounds {rank : Nat} (h : 0 < rank) (more : Nat) :
    2 * one * 10 ^ (leadingExponent rank - more).toNat * 10 ^ more ≤
        2 * units rank * 10 ^ (-(leadingExponent rank - more)).toNat ∧
      2 * units rank * 10 ^ (-(leadingExponent rank - more)).toNat <
        2 * one * 10 ^ (leadingExponent rank - more).toNat * 10 ^ (more + 1) := by
  obtain ⟨hlow, hhigh⟩ := leadingExponent_bounds h
  generalize leadingExponent rank = leading at hlow hhigh ⊢
  have hpow : (0 : ℚ) < 10 ^ (-(leading - more)).toNat := by positivity
  have hstep : (2 * one * 10 ^ (leading - more).toNat : ℚ) * 10 ^ more =
      2 * (10 ^ leading * one) * 10 ^ (-(leading - more)).toNat := by
    have hsplit : (10 : ℚ) ^ (leading - more) * 10 ^ more = 10 ^ leading := by
      rw [← zpow_natCast, ← zpow_add₀ (by norm_num), sub_add_cancel]
    rw [← zpow_mul_pow, ← hsplit]
    ring
  have hnext : (10 : ℚ) ^ (leading + 1) = 10 ^ leading * 10 := zpow_add_one₀ (by norm_num) _
  rw [hnext] at hhigh
  constructor
  · have hcast : (2 * one * 10 ^ (leading - more).toNat : ℚ) * 10 ^ more ≤
        2 * units rank * 10 ^ (-(leading - more)).toNat := by
      rw [hstep]
      gcongr
    exact_mod_cast hcast
  · have hcast : (2 * units rank * 10 ^ (-(leading - more)).toNat : ℚ) <
        2 * one * 10 ^ (leading - more).toNat * 10 ^ (more + 1) := by
      calc (2 * units rank * 10 ^ (-(leading - more)).toNat : ℚ)
          < 2 * (10 ^ leading * 10 * one) * 10 ^ (-(leading - more)).toNat := by gcongr
        _ = 2 * (10 ^ leading * one) * 10 ^ (-(leading - more)).toNat * 10 := by ring
        _ = _ := by rw [← hstep, pow_succ]; ring
    exact_mod_cast hcast

/-- The grid of the seventeenth digit is fine enough. -/
theorem exists_onGrid?_seventeenth {rank : Nat} (h : 0 < rank) :
    ∃ d, onGrid? rank (leadingExponent rank - (16 : Nat)) = some d := by
  apply exists_onGrid?_of_fine
  obtain ⟨hfine, -⟩ := grid_bounds h 16
  have hpow : 0 < 10 ^ (-(leadingExponent rank - (16 : Nat))).toNat := Nat.pow_pos (by decide)
  generalize 10 ^ (-(leadingExponent rank - (16 : Nat))).toNat = den at *
  have hpred := units_succ (rank - 1)
  rw [Nat.sub_add_cancel h] at hpred
  have hgaps : 2 * units rank * den ≤
      2 * binade * ((2 ^ scale (rank - 1) + 2 ^ scale rank) * den) := by
    rw [Nat.mul_assoc 2 binade, ← Nat.mul_assoc binade, Nat.mul_assoc 2]
    exact Nat.mul_le_mul_left _ (Nat.mul_le_mul_right _ (units_le_gaps h))
  have hpos : 0 < (2 ^ scale (rank - 1) + 2 ^ scale rank) * den :=
    Nat.mul_pos (Nat.add_pos_left (Nat.two_pow_pos _) _) hpow
  -- sixteen more digits make the steps finer than the distance between the neighbours
  have hdigits : 2 * binade * ((2 ^ scale (rank - 1) + 2 ^ scale rank) * den) <
      10 ^ 16 * ((2 ^ scale (rank - 1) + 2 ^ scale rank) * den) :=
    Nat.mul_lt_mul_of_pos_right (by decide) hpos
  rw [units_succ, hpred, Nat.add_assoc, Nat.add_mul]
  omega

/-- A grid of the first seventeen digits has no point beyond. -/
theorem gridFloor_lt {rank : Nat} (h : 0 < rank) {more : Nat} (hmore : more < 17) :
    gridFloor rank (leadingExponent rank - more) < 10 ^ 17 := by
  have hstep : 0 < 2 * one * 10 ^ (leadingExponent rank - more).toNat :=
    Nat.mul_pos (Nat.mul_pos (by decide) one_pos) (Nat.pow_pos (by decide))
  obtain ⟨-, hhigh⟩ := grid_bounds h more
  have hpow : 10 ^ (more + 1) ≤ 10 ^ 17 := Nat.pow_le_pow_right (by decide) hmore
  rw [gridFloor, Nat.div_lt_iff_lt_mul hstep]
  refine Nat.lt_of_lt_of_le hhigh ?_
  rw [Nat.mul_comm]
  exact Nat.mul_le_mul_right _ hpow

/-- **Seventeen digits are always enough.**  The shortest decimal of a magnitude is found on a grid,
so it has no more digits, and it is rounded to the magnitude. -/
theorem shortest_spec {rank : Nat} (h : 0 < rank) :
    (shortest rank).digits ≤ 10 ^ 17 ∧
      gridPoint rank (shortest rank).exponent (shortest rank).digits = true := by
  rw [shortest]
  cases hfound : (List.range 17).findSome? fun more : Nat =>
      onGrid? rank (leadingExponent rank - more) with
  | none =>
    obtain ⟨d, hd⟩ := exists_onGrid?_seventeenth h
    rw [List.findSome?_eq_none_iff] at hfound
    exact absurd hd (by rw [hfound 16 (by decide)]; simp)
  | some d =>
    obtain ⟨more, hmore, hgrid⟩ := List.exists_of_findSome?_eq_some hfound
    obtain ⟨-, hdigits, hpoint⟩ := gridPoint_of_onGrid? hgrid
    have hlt := gridFloor_lt h (List.mem_range.1 hmore)
    exact ⟨Nat.le_trans hdigits hlt, hpoint⟩

/-- It is next to the magnitude. -/
theorem nextTo_shortest {rank : Nat} (h : 0 < rank) : NextTo rank (shortest rank) :=
  nextTo_of_gridPoint h (shortest_spec h).2

end Binary64
end OpcodeTable
