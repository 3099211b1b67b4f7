import OpcodeTable.Proofs.Number.Shortest

/-!
# What is rounded to a magnitude

The magnitudes of one block of ranks are whole multiples of a power of two.  A fraction in the range
of the block is rounded to the nearest of these multiples, so how far it is moved is known, and also
which fractions are moved to a given magnitude: those between the midpoints to its neighbours.

## What is here

* `Binary64.units_block`, the magnitudes of a block, and `Binary64.units_add`, how far they are
  apart.
* `Binary64.InBlock`, the fractions in the range of a block, and `Binary64.nearestRank_of_inBlock`.
* `Binary64.nearestRank_of_roundsTo`, by which the test of the shortest decimals is right.
* `Binary64.units_nearestRank_of_lt`, which numbers are not moved at all, and
  `Binary64.within_nearestRank`, how far the others are moved.
-/

set_option autoImplicit false

namespace OpcodeTable
namespace Binary64

/-! ## Magnitudes of a block -/

theorem rank_eq (rank : Nat) : rank = scale rank * binade + significand rank := by
  rw [scale, significand]
  have hsplit := Nat.div_add_mod' rank binade
  split
  · next h =>
    rw [Nat.div_eq_of_lt h, Nat.zero_sub, Nat.zero_mul, Nat.zero_add]
  · next h =>
    have hpos : 1 ≤ rank / binade := (Nat.one_le_div_iff binade_pos).2 (Nat.not_lt.1 h)
    have hblock := Nat.sub_mul (rank / binade) 1 binade
    have hle := Nat.mul_le_mul_right binade hpos
    omega

theorem significand_lt (rank : Nat) : significand rank < 2 * binade := by
  have hmod := Nat.mod_lt rank binade_pos
  rw [significand]
  split <;> omega

theorem scale_eq_zero_or (rank : Nat) : scale rank = 0 ∨ binade ≤ significand rank := by
  rw [scale, significand]
  split
  · next h => exact .inl (by rw [Nat.div_eq_of_lt h])
  · exact .inr (Nat.le_add_right ..)

theorem units_eq (rank : Nat) : units rank = significand rank * 2 ^ scale rank :=
  Nat.shiftLeft_eq ..

/-- The magnitudes of a block, the first one of the next block included. -/
theorem units_block {block m : Nat} (hm : m ≤ 2 * binade) (h : block = 0 ∨ binade ≤ m) :
    units (block * binade + m) = m * 2 ^ block := by
  rcases Nat.lt_or_ge m binade with hlt | hge
  · have hzero : block = 0 := h.resolve_right (Nat.not_le.2 hlt)
    rw [hzero, Nat.zero_mul, Nat.zero_add, units_of_lt hlt, Nat.pow_zero, Nat.mul_one]
  · have hrank : block * binade + m = (m - binade) + binade * (block + 1) := by
      rw [Nat.mul_succ, Nat.mul_comm]
      omega
    have hle : binade ≤ block * binade + m := Nat.le_trans hge (Nat.le_add_left ..)
    rw [units_of_le hle, hrank, Nat.add_mul_mod_self_left, Nat.add_mul_div_left _ _ binade_pos]
    rcases Nat.lt_or_ge m (2 * binade) with hsmall | hlarge
    · have hin : m - binade < binade := by omega
      rw [Nat.mod_eq_of_lt hin, Nat.div_eq_of_lt hin, Nat.add_sub_cancel' hge, Nat.zero_add,
        Nat.add_sub_cancel]
    · have hlast : m - binade = binade := by omega
      rw [hlast, Nat.mod_self, Nat.div_self binade_pos, show m = 2 * binade by omega,
        Nat.add_zero, show 1 + (block + 1) - 1 = block + 1 by omega, Nat.pow_succ]
      ring

theorem scale_block {block m : Nat} (hm : m < 2 * binade) (h : block = 0 ∨ binade ≤ m) :
    scale (block * binade + m) = block := by
  rw [scale, Nat.add_comm, Nat.add_mul_div_right _ _ binade_pos]
  rcases Nat.lt_or_ge m binade with hlt | hge
  · rw [Nat.div_eq_of_lt hlt, h.resolve_right (Nat.not_le.2 hlt)]
  · rw [Nat.div_eq_of_lt_le (by omega) (by omega : m < (1 + 1) * binade), Nat.add_sub_cancel_left]

/-- A magnitude is in the block of the one before it, or the first one of the next block. -/
theorem scale_pred {rank : Nat} (h : 0 < rank) :
    scale rank = scale (rank - 1) ∧ (scale rank = 0 ∨ binade < significand rank) ∨
      scale rank = scale (rank - 1) + 1 ∧ significand rank = binade := by
  have hrank := rank_eq rank
  have hlt := significand_lt rank
  have hpos := binade_pos
  by_cases hinner : scale rank = 0 ∨ binade < significand rank
  · left
    have hprev : rank - 1 = scale rank * binade + (significand rank - 1) := by
      rcases hinner with hzero | hinner
      · rw [hzero, Nat.zero_mul] at hrank ⊢
        omega
      · omega
    have hscale : scale (scale rank * binade + (significand rank - 1)) = scale rank :=
      scale_block (by omega) (hinner.imp_right (by omega))
    rw [hprev]
    exact ⟨hscale.symm, hinner⟩
  · right
    obtain ⟨hblock, hfirst⟩ := not_or.1 hinner
    obtain ⟨block, hscale⟩ := Nat.exists_eq_succ_of_ne_zero hblock
    have hsignificand : significand rank = binade :=
      Nat.le_antisymm (Nat.not_lt.1 hfirst) ((scale_eq_zero_or rank).resolve_left hblock)
    have hprev : rank - 1 = block * binade + (2 * binade - 1) := by
      rw [hscale, Nat.succ_mul] at hrank
      omega
    rw [hprev, scale_block (by omega) (.inr (by omega)), hscale]
    exact ⟨rfl, hsignificand⟩

theorem units_succ (rank : Nat) : units (rank + 1) = units rank + 2 ^ scale rank := by
  have hnext : rank + 1 = scale rank * binade + (significand rank + 1) := by
    have := rank_eq rank
    omega
  have hlt := significand_lt rank
  rw [hnext, units_block (by omega) ((scale_eq_zero_or rank).imp_right (by omega)), units_eq rank,
    Nat.succ_mul]

theorem scale_mono {a b : Nat} (h : a ≤ b) : scale a ≤ scale b :=
  Nat.sub_le_sub_right (Nat.div_le_div_right h) 1

/-- From a magnitude on the magnitudes are no closer together. -/
theorem units_add (rank more : Nat) :
    units rank + more * 2 ^ scale rank ≤ units (rank + more) := by
  induction more with
  | zero => rw [Nat.zero_mul, Nat.add_zero, Nat.add_zero]
  | succ more ih =>
    have hgap : 2 ^ scale rank ≤ 2 ^ scale (rank + more) :=
      Nat.pow_le_pow_right (by decide) (scale_mono (Nat.le_add_right ..))
    rw [← Nat.add_assoc, units_succ, Nat.succ_mul]
    omega

/-- So a step is at least the `2 ^ 53`-th part of where it starts. -/
theorem units_mul_le (rank more : Nat) :
    units rank * (2 * binade + more) ≤ units (rank + more) * (2 * binade) := by
  have hsize : units rank ≤ 2 * binade * 2 ^ scale rank := by
    rw [units_eq]
    exact Nat.mul_le_mul_right _ (Nat.le_of_lt (significand_lt rank))
  calc units rank * (2 * binade + more) = units rank * (2 * binade) + units rank * more := by ring
    _ ≤ units rank * (2 * binade) + 2 * binade * 2 ^ scale rank * more :=
        Nat.add_le_add_left (Nat.mul_le_mul_right _ hsize) _
    _ = (units rank + more * 2 ^ scale rank) * (2 * binade) := by ring
    _ ≤ units (rank + more) * (2 * binade) := Nat.mul_le_mul_right _ (units_add rank more)

/-! ## Fractions of a block -/

/-- The fraction is rounded to a multiple of `2 ^ block`. -/
structure InBlock (num den block : Nat) : Prop where
  below : num < 2 * binade * (den * 2 ^ block)
  above : block = 0 ∨ binade * (den * 2 ^ block) ≤ num

theorem binade_eq : binade = 2 ^ 52 := by decide

theorem exists_inBlock (num : Nat) {den : Nat} (hden : 0 < den) :
    ∃ block, InBlock num den block := by
  refine ⟨(num / den).log2 - 52, ?_, ?_⟩
  · have hlt := shifted_lt (num / den)
    rw [Nat.div_div_eq_div_mul] at hlt
    exact (Nat.div_lt_iff_lt_mul (Nat.mul_pos hden (Nat.two_pow_pos _))).1 hlt
  · rcases Nat.lt_or_ge 52 (num / den).log2 with hlarge | hsmall
    · have hle := le_shifted hlarge
      rw [Nat.div_div_eq_div_mul] at hle
      exact .inr ((Nat.le_div_iff_mul_le (Nat.mul_pos hden (Nat.two_pow_pos _))).1 hle)
    · exact .inl (Nat.sub_eq_zero_of_le hsmall)

theorem log2_of_inBlock {num den block : Nat} (hden : 0 < den) (h : InBlock num den block) :
    (num / den).log2 - 52 = block := by
  have hbelow : num / den < 2 ^ (52 + block + 1) := by
    refine (Nat.div_lt_iff_lt_mul hden).2 (Nat.lt_of_lt_of_eq h.below ?_)
    rw [binade_eq]
    ring
  rcases h.above with rfl | habove
  · have hlt : (num / den).log2 < 53 := by
      rcases Nat.eq_zero_or_pos (num / den) with hzero | hpos
      · rw [hzero]
        decide
      · exact (Nat.log2_lt (Nat.ne_of_gt hpos)).2 hbelow
    omega
  · have hle : 2 ^ (52 + block) ≤ num / den := by
      refine (Nat.le_div_iff_mul_le hden).2 (Nat.le_trans (Nat.le_of_eq ?_) habove)
      rw [binade_eq]
      ring
    have hne : num / den ≠ 0 := Nat.ne_of_gt (Nat.lt_of_lt_of_le (Nat.two_pow_pos _) hle)
    rw [(Nat.log2_eq_iff hne).2 ⟨hle, hbelow⟩, Nat.add_sub_cancel_left]

theorem nearestRank_of_inBlock {num den block : Nat} (hden : 0 < den) (h : InBlock num den block) :
    nearestRank num den = block * binade + halfEven num (den * 2 ^ block) := by
  rw [nearestRank_eq, log2_of_inBlock hden h, Nat.shiftLeft_eq]

/-- It is the nearest of these multiples. -/
theorem units_nearestRank {num den block : Nat} (hden : 0 < den) (h : InBlock num den block) :
    units (nearestRank num den) = halfEven num (den * 2 ^ block) * 2 ^ block := by
  have hpos : 0 < den * 2 ^ block := Nat.mul_pos hden (Nat.two_pow_pos _)
  rw [nearestRank_of_inBlock hden h]
  refine units_block ?_ (h.above.imp_right fun habove => ?_)
  · exact Nat.le_trans (halfEven_le ..) ((Nat.div_lt_iff_lt_mul hpos).2 h.below)
  · exact Nat.le_trans ((Nat.le_div_iff_mul_le hpos).2 habove) (div_le_halfEven ..)

/-! ## The nearest whole number -/

/-- The nearest whole number is at most a half away. -/
theorem halfEven_near (num : Nat) {den : Nat} (hden : 0 < den) :
    2 * (halfEven num den * den) ≤ 2 * num + den ∧
      2 * num ≤ 2 * (halfEven num den * den) + den := by
  have hsplit := Nat.div_add_mod' num den
  have hmod := Nat.mod_lt num hden
  have hnext := Nat.add_one_mul (num / den) den
  rw [halfEven_eq]
  split <;> omega

/-- A whole number that is less than a half away is the nearest one, and an even one also if it is
just a half away. -/
theorem halfEven_of_near {num den n : Nat} (hden : 0 < den)
    (hbelow : 2 * (n * den) ≤ 2 * num + den) (habove : 2 * num ≤ 2 * (n * den) + den)
    (hodd : n % 2 = 1 → 2 * (n * den) < 2 * num + den ∧ 2 * num < 2 * (n * den) + den) :
    halfEven num den = n := by
  have hsplit := Nat.div_add_mod' num den
  rcases Nat.lt_or_ge num (n * den) with hlt | hge
  · obtain ⟨m, rfl⟩ : ∃ m, n = m + 1 := Nat.exists_eq_succ_of_ne_zero (by rintro rfl; omega)
    have hnext := Nat.add_one_mul m den
    have hfloor : num / den = m := Nat.div_eq_of_lt_le (by omega) (by omega)
    rw [halfEven_eq, hfloor]
    rw [hfloor] at hsplit
    rw [if_pos (by omega)]
  · have hnext := Nat.add_one_mul n den
    have hfloor : num / den = n := Nat.div_eq_of_lt_le (by omega) (by omega)
    rw [halfEven_eq, hfloor]
    rw [hfloor] at hsplit
    rw [if_neg (by omega)]

theorem halfEven_mul (n : Nat) {den : Nat} (hden : 0 < den) : halfEven (n * den) den = n :=
  halfEven_of_near hden (by omega) (by omega) fun _ => by omega

/-! ## Which magnitude is nearest -/

theorem roundsTo_bounds_of_odd {rank num den : Nat} (hodd : rank % 2 = 1)
    (h : roundsTo rank num den = true) :
    (units (rank - 1) + units rank) * den < num ∧ num < (units rank + units (rank + 1)) * den := by
  unfold roundsTo at h
  rw [if_neg (by omega)] at h
  exact of_decide_eq_true h

/-- The parity of a rank is that of its significand. -/
theorem significand_mod_two (rank : Nat) : significand rank % 2 = rank % 2 := by
  have heven : binade = 2 * (binade / 2) := by decide
  have hrank : rank = 2 * (scale rank * (binade / 2)) + significand rank := by
    rw [Nat.mul_left_comm, ← heven]
    exact rank_eq rank
  omega

/-- A multiple in the range of a block that is less than half a step away is the nearest one, and an
even one also if it is just half a step away. -/
theorem nearestRank_of_near {block m num den half : Nat} (hden : 0 < den)
    (hstep : den * 2 ^ block = 2 * half) (hend : num < 4 * (binade * half))
    (hstart : block = 0 ∨ 2 * (binade * half) ≤ num)
    (hbelow : 2 * (m * half) ≤ num + half) (habove : num ≤ 2 * (m * half) + half)
    (hodd : m % 2 = 1 → 2 * (m * half) < num + half ∧ num < 2 * (m * half) + half) :
    nearestRank num den = block * binade + m := by
  have hbinade := Nat.mul_left_comm binade 2 half
  have hm := Nat.mul_left_comm m 2 half
  have hblock : InBlock num den block := by
    refine ⟨?_, hstart.imp_right fun hstart => ?_⟩
    · rw [hstep, Nat.mul_assoc]
      omega
    · rw [hstep]
      omega
  have hhalf : 0 < 2 * half := hstep ▸ Nat.mul_pos hden (Nat.two_pow_pos _)
  have hnear : halfEven num (2 * half) = m := by
    refine halfEven_of_near hhalf (by omega) (by omega) fun hm => ?_
    have := hodd hm
    omega
  rw [nearestRank_of_inBlock hden hblock, hstep, hnear]

/-- Inside a block the midpoints are half a step away. -/
theorem nearestRank_of_inner {block m num den : Nat} (hden : 0 < den) (hm : m < 2 * binade)
    (hinner : block = 0 ∨ binade < m)
    (hbelow : 2 * (m * (den * 2 ^ block)) ≤ num + den * 2 ^ block)
    (habove : num ≤ 2 * (m * (den * 2 ^ block)) + den * 2 ^ block)
    (hodd : m % 2 = 1 → 2 * (m * (den * 2 ^ block)) < num + den * 2 ^ block ∧
      num < 2 * (m * (den * 2 ^ block)) + den * 2 ^ block) :
    nearestRank num (2 * den) = block * binade + m := by
  have hstep : 0 < den * 2 ^ block := Nat.mul_pos hden (Nat.two_pow_pos _)
  have hend := Nat.mul_le_mul_right (den * 2 ^ block) (Nat.succ_le_of_lt hm)
  rw [Nat.succ_mul, Nat.mul_assoc] at hend
  refine nearestRank_of_near (Nat.mul_pos (by decide) hden) (Nat.mul_assoc ..) (by omega) ?_
    hbelow habove hodd
  refine hinner.imp_right fun hinner => ?_
  have hstart := Nat.mul_le_mul_right (den * 2 ^ block) (Nat.succ_le_of_lt hinner)
  rw [Nat.succ_mul] at hstart
  omega

/-- Below the first magnitude of a block the midpoint is half a step of the block before away. -/
theorem nearestRank_of_first {block num den : Nat} (hden : 0 < den)
    (hbelow : 4 * (binade * (den * 2 ^ block)) ≤ num + den * 2 ^ block)
    (habove : num ≤ 4 * (binade * (den * 2 ^ block)) + 2 * (den * 2 ^ block)) :
    nearestRank num (2 * den) = (block + 1) * binade + binade := by
  have hden' : 0 < 2 * den := Nat.mul_pos (by decide) hden
  have hstep : 0 < den * 2 ^ block := Nat.mul_pos hden (Nat.two_pow_pos _)
  have hfirst := Nat.mul_le_mul_right (den * 2 ^ block) (by decide : 2 ≤ binade)
  have heven : binade % 2 = 0 := by decide
  have htwice := Nat.mul_assoc 2 binade (den * 2 ^ block)
  rcases Nat.lt_or_ge num (4 * (binade * (den * 2 ^ block))) with hlow | hhigh
  · have hlast : nearestRank num (2 * den) = block * binade + 2 * binade :=
      nearestRank_of_near hden' (Nat.mul_assoc ..) hlow (.inr (by omega)) (by omega) (by omega)
        (fun hm => by omega)
    rw [hlast, Nat.add_one_mul block]
    omega
  · have hwide : den * 2 ^ (block + 1) = 2 * (den * 2 ^ block) := by
      rw [Nat.pow_succ]
      ring
    have hfull : binade * (den * 2 ^ (block + 1)) = 2 * (binade * (den * 2 ^ block)) := by
      rw [hwide, Nat.mul_left_comm]
    exact nearestRank_of_near hden' (Nat.mul_assoc ..) (by omega) (.inr (by omega)) (by omega)
      (by omega) (fun hm => by omega)

/-- **A fraction between the midpoints to its neighbours is rounded to a magnitude.** -/
theorem nearestRank_of_roundsTo {rank num den : Nat} (hrank : 0 < rank) (hden : 0 < den)
    (h : roundsTo rank num den = true) : nearestRank num (2 * den) = rank := by
  have hbounds := roundsTo_bounds h
  have hodd : significand rank % 2 = 1 → _ := fun hodd =>
    roundsTo_bounds_of_odd ((significand_mod_two rank).symm.trans hodd) h
  have hpred := units_succ (rank - 1)
  rw [Nat.sub_add_cancel hrank] at hpred
  have hself : units rank * den = significand rank * (den * 2 ^ scale rank) := by
    rw [units_eq]
    ring
  have hnext : units (rank + 1) * den = units rank * den + den * 2 ^ scale rank := by
    rw [units_succ]
    ring
  have hprev : units rank * den = units (rank - 1) * den + den * 2 ^ scale (rank - 1) := by
    rw [hpred]
    ring
  simp only [Nat.add_mul] at hbounds hodd
  rcases scale_pred hrank with ⟨hsame, hinner⟩ | ⟨hscale, hfirst⟩
  · rw [← hsame] at hprev
    refine (nearestRank_of_inner hden (significand_lt rank) hinner (by omega) (by omega)
      fun hm => ?_).trans (rank_eq rank).symm
    have := hodd hm
    omega
  · have heq := rank_eq rank
    have hwide : den * 2 ^ (scale (rank - 1) + 1) = 2 * (den * 2 ^ scale (rank - 1)) := by
      rw [Nat.pow_succ]
      ring
    rw [hscale, hfirst] at heq
    rw [hscale, hfirst, hwide, Nat.mul_left_comm] at hself
    rw [hscale, hwide] at hnext
    exact (nearestRank_of_first hden (by omega) (by omega)).trans heq.symm

/-! ## Numbers that are not moved -/

theorem nearestRank_congr {num den num' den' : Nat} (hden : 0 < den) (hden' : 0 < den')
    (h : num * den' = num' * den) : nearestRank num den = nearestRank num' den' :=
  Nat.le_antisymm (nearestRank_mono hden hden' (Nat.le_of_eq h))
    (nearestRank_mono hden' hden (Nat.le_of_eq h.symm))

/-- A magnitude is its own nearest one. -/
theorem nearestRank_units (rank : Nat) : nearestRank (units rank) 1 = rank := by
  have hblock : InBlock (units rank) 1 (scale rank) := by
    rw [units_eq]
    constructor
    · rw [Nat.one_mul]
      exact Nat.mul_lt_mul_of_pos_right (significand_lt rank) (Nat.two_pow_pos _)
    · rw [Nat.one_mul]
      exact (scale_eq_zero_or rank).imp_right (Nat.mul_le_mul_right _)
  rw [nearestRank_of_inBlock (by decide) hblock, Nat.one_mul, units_eq,
    halfEven_mul _ (Nat.two_pow_pos _), ← rank_eq]

/-- A number of at most 53 binary digits, with zeros behind them, is a magnitude. -/
theorem units_nearestRank_of_lt {m shift : Nat} (h : m < 2 * binade) :
    units (nearestRank (m * 2 ^ shift) 1) = m * 2 ^ shift := by
  obtain ⟨block, hblock⟩ := exists_inBlock (m * 2 ^ shift) Nat.one_pos
  have hle : block ≤ shift := by
    rcases hblock.above with rfl | habove
    · exact Nat.zero_le _
    · rw [Nat.one_mul] at habove
      by_contra hlt
      have hpow : 2 ^ (shift + 1) ≤ 2 ^ block := Nat.pow_le_pow_right (by decide) (by omega)
      have hfirst := Nat.mul_le_mul_left binade hpow
      have hlast := Nat.mul_lt_mul_of_pos_right h (Nat.two_pow_pos shift)
      rw [Nat.pow_succ, Nat.mul_comm (2 ^ shift), ← Nat.mul_assoc, Nat.mul_comm binade] at hfirst
      omega
  have hsplit : m * 2 ^ shift = m * 2 ^ (shift - block) * 2 ^ block := by
    rw [Nat.mul_assoc, ← Nat.pow_add, Nat.sub_add_cancel hle]
  rw [units_nearestRank Nat.one_pos hblock, Nat.one_mul, hsplit,
    halfEven_mul _ (Nat.two_pow_pos _)]

/-! ## How far a number is moved -/

/-- The largest part of a number by which rounding moves it. -/
def roundoff : ℚ :=
  1 / (2 * binade : Nat)

/-- The numbers differ by no more than so many roundings. -/
def Within (roundings : Nat) (u v : ℚ) : Prop :=
  v * (1 - roundoff) ^ roundings ≤ u ∧ u * (1 - roundoff) ^ roundings ≤ v

theorem roundoff_mul : roundoff * (2 * binade) = 1 := by
  rw [roundoff, Nat.cast_mul, Nat.cast_ofNat, one_div_mul_cancel]
  exact_mod_cast Nat.ne_of_gt (Nat.mul_pos (by decide) binade_pos)

theorem roundoff_bounds : 0 < roundoff ∧ roundoff < 1 / 1024 := by
  rw [roundoff, binade_eq]
  norm_num

/-- A number that is not subnormal is moved by one rounding. -/
theorem within_nearestRank {num den : Nat} (hden : 0 < den) (h : binade * den ≤ num) :
    Within 1 (units (nearestRank num den)) (num / den) := by
  obtain ⟨block, hblock⟩ := exists_inBlock num hden
  have hstep : binade * (den * 2 ^ block) ≤ num := by
    rcases hblock.above with rfl | habove
    · rwa [Nat.pow_zero, Nat.mul_one]
    · exact habove
  obtain ⟨habove, hbelow⟩ := halfEven_near num (Nat.mul_pos hden (Nat.two_pow_pos block))
  have hunits : halfEven num (den * 2 ^ block) * (den * 2 ^ block) =
      units (nearestRank num den) * den := by
    rw [units_nearestRank hden hblock]
    ring
  rw [hunits] at habove hbelow
  generalize units (nearestRank num den) = u at habove hbelow ⊢
  generalize den * 2 ^ block = step at habove hbelow hstep
  have hden' : (0 : ℚ) < den := Nat.cast_pos.2 hden
  have hr := roundoff_mul
  obtain ⟨hpos, hlt⟩ := roundoff_bounds
  have hpart : (step : ℚ) ≤ 2 * roundoff * num := by
    have hcast : (binade : ℚ) * step ≤ num := by exact_mod_cast hstep
    calc (step : ℚ) = step * (roundoff * (2 * binade)) := by rw [hr, mul_one]
      _ = 2 * roundoff * (binade * step) := by ring
      _ ≤ 2 * roundoff * num := mul_le_mul_of_nonneg_left hcast (by positivity)
  have habove' : (u : ℚ) * den ≤ num * (1 + roundoff) := by
    have hcast : 2 * ((u : ℚ) * den) ≤ 2 * num + step := by exact_mod_cast habove
    linarith
  have hbelow' : (num : ℚ) * (1 - roundoff) ≤ u * den := by
    have hcast : 2 * (num : ℚ) ≤ 2 * (u * den) + step := by exact_mod_cast hbelow
    linarith
  rw [Within, pow_one]
  constructor
  · rw [div_mul_eq_mul_div]
    exact (div_le_iff₀ hden').2 hbelow'
  · refine (le_div_iff₀ hden').2 ?_
    calc (u : ℚ) * (1 - roundoff) * den = u * den * (1 - roundoff) := by ring
      _ ≤ num * (1 + roundoff) * (1 - roundoff) :=
          mul_le_mul_of_nonneg_right habove' (by linarith)
      _ = num - num * roundoff ^ 2 := by ring
      _ ≤ num := sub_le_self _ (by positivity)

end Binary64
end OpcodeTable
