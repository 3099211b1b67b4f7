import OpcodeTable.Proofs.Json.PrintedFloat

/-!
# Integers as they are written

A numeral without a point and an exponent denotes an integer, however many digits it has.  The
reader counts its digits up to a limit of 64 bits and then looks at the sign, so what it makes of
the numeral is said here: the integer itself if that fits, and a floating-point number or nothing
otherwise.  The digits can be had back from the integer, since there is no zero in front of them.

## What is here

* `Numeral.IsWhole`, `Numeral.denoted`, `Numeral.literal` and `Numeral.Fits`.
* `Numeral.number?_eq_integer_iff`, by which a numeral stands for an integer if it denotes it and
  fits, and `Numeral.number?_of_not_fits`.
* `toDigits_of_wholeText`, by induction on the digits, and `Numeral.eq_of_denoted_eq`, by which the
  numeral is given by the integer.
-/

set_option autoImplicit false

namespace OpcodeTable
namespace Json

/-! ## Digits of a number -/

theorem digitChar_of_isDigit {c : Char} (h : c.isDigit = true) :
    Nat.digitChar (c.toNat - '0'.toNat) = c ∧ c.toNat - '0'.toNat < 10 := by
  have hrange : 48 ≤ c.toNat ∧ c.toNat ≤ 57 := by
    simpa [Char.isDigit, UInt32.le_iff_toNat_le] using h
  have hdigit : ∀ n < 10, Nat.digitChar n = Char.ofNat (48 + n) := by decide
  have hlt : c.toNat - '0'.toNat < 10 := by
    change c.toNat - 48 < 10
    omega
  refine ⟨?_, hlt⟩
  rw [hdigit _ hlt]
  change Char.ofNat (48 + (c.toNat - 48)) = c
  rw [Nat.add_sub_cancel' hrange.1, Char.ofNat_toNat]

/-- Digits behind a positive number go on with its digits. -/
theorem toDigits_append_digits {n : Nat} (hn : 0 < n) {digits : List Char}
    (h : ∀ c ∈ digits, c.isDigit = true) :
    Nat.toDigits 10 n ++ digits = Nat.toDigits 10 (Nat.ofDigitChars 10 digits n) := by
  induction digits generalizing n with
  | nil => rw [List.append_nil, Nat.ofDigitChars_nil]
  | cons c rest ih =>
    obtain ⟨hc, hrest⟩ := List.forall_mem_cons.1 h
    obtain ⟨hchar, hlt⟩ := digitChar_of_isDigit hc
    have hlonger := Nat.toDigits_append_toDigits (by decide : 1 < 10) hn hlt
    rw [Nat.toDigits_of_lt_base hlt, hchar] at hlonger
    rw [Nat.ofDigitChars_cons, ← ih (by omega) hrest, ← hlonger, List.append_assoc]
    rfl

/-- The digits of a numeral are those of the number that they make. -/
theorem toDigits_of_wholeText {whole : List Char} (h : WholeText whole) :
    Nat.toDigits 10 (Nat.ofDigitChars 10 whole 0) = whole := by
  cases h with
  | zero => rfl
  | @digits c rest hc hzero hrest =>
    obtain ⟨hchar, hlt⟩ := digitChar_of_isDigit hc
    have hpos : 0 < c.toNat - '0'.toNat := by
      rw [Nat.pos_iff_ne_zero]
      intro hnone
      rw [hnone] at hchar
      exact hzero hchar.symm
    rw [Nat.ofDigitChars_cons, Nat.mul_zero, Nat.zero_add, ← toDigits_append_digits hpos hrest,
      Nat.toDigits_of_lt_base hlt, hchar]
    rfl

theorem NumeralText.wholeText {text : List Char} {n : Numeral} (h : NumeralText text n) :
    WholeText n.whole := by
  rcases h with ⟨⟨hwhole, -, -⟩⟩ | ⟨⟨hwhole, -, -⟩⟩
  · exact hwhole
  · exact hwhole

namespace Numeral

/-- There is no point and no exponent. -/
def IsWhole (n : Numeral) : Prop :=
  n.fraction = [] ∧ n.exponent = none

/-- The number that the digits before the point make. -/
def size (n : Numeral) : Nat :=
  Nat.ofDigitChars 10 n.whole 0

/-- The integer that the digits before the point denote with the sign. -/
def denoted (n : Numeral) : Int :=
  if n.negative then -(n.size : Int) else n.size

/-- The sign and the digits before the point. -/
def literal (n : Numeral) : List Char :=
  if n.negative then '-' :: n.whole else n.whole

/-- The denoted integer has 64 bits, the sign included if there is one, and is no minus zero. -/
def Fits (n : Numeral) : Prop :=
  -2 ^ 63 ≤ n.denoted ∧ n.denoted ≤ 2 ^ 64 - 1 ∧ n.literal ≠ ['-', '0']

instance (n : Numeral) : Decidable n.Fits :=
  inferInstanceAs (Decidable (_ ∧ _ ∧ _))

/-- Without a point and an exponent nothing but the literal is written. -/
theorem eq_literal {text : List Char} {n : Numeral} (h : NumeralText text n)
    (hwhole : n.IsWhole) : text = n.literal := by
  obtain ⟨hfraction, hexponent⟩ := hwhole
  have hunsigned : ∀ {negative : Bool} {text : List Char}, UnsignedText negative text n →
      text = n.whole ∧ n.negative = negative := by
    rintro negative text ⟨-, hfractionText, hexponentText⟩
    cases hfractionText with
    | digits h => exact absurd hfraction h.1
    | absent =>
      cases hexponentText with
      | digits => cases hexponent
      | absent => exact ⟨List.append_nil _, rfl⟩
  cases h with
  | plus h =>
    obtain ⟨rfl, hsign⟩ := hunsigned h
    simp [literal, hsign]
  | minus h =>
    obtain ⟨rfl, hsign⟩ := hunsigned h
    simp [literal, hsign]

/-- Minus zero is the only literal of a negative zero. -/
theorem literal_eq_minus_zero_iff {n : Numeral} (h : WholeText n.whole) :
    n.literal = ['-', '0'] ↔ n.negative = true ∧ n.size = 0 := by
  have hwhole : n.whole = ['0'] ↔ n.size = 0 := by
    constructor
    · intro hzero
      rw [size, hzero]
      rfl
    · intro hzero
      rw [← toDigits_of_wholeText h, ← size, hzero]
      rfl
  have hminus : n.whole ≠ ['-', '0'] := by
    intro heq
    rw [heq] at h
    cases h with
    | digits hc => exact absurd hc (by decide)
  cases hnegative : n.negative <;> simp [literal, hnegative, hwhole, hminus]

theorem absorb_snd_eq_nil_iff {limit : Nat} {digits : List Char} :
    (absorb limit 0 digits).2 = [] ↔ Nat.ofDigitChars 10 digits 0 ≤ limit := by
  constructor
  · intro h
    have hsize : absorb limit 0 digits = ((absorb limit 0 digits).1, []) := by rw [← h]
    rw [← absorb_fst_of_snd_nil hsize]
    exact fst_absorb_le (Nat.zero_le _) digits
  · intro h
    rw [absorb_eq_of_le h]

/-- The integer of a numeral, without counting digits. -/
theorem integer?_of_isWhole {n : Numeral} (h : n.IsWhole) :
    n.integer? =
      if maxSignificand < n.size then none
      else if n.negative = false then some (n.size : Int)
      else if n.size ≠ 0 ∧ n.size ≤ maxNegated then some (-(n.size : Int)) else none := by
  rw [integer?, if_pos (show n.fraction = [] ∧ n.exponent = none from h)]
  by_cases hlarge : maxSignificand < n.size
  · rw [if_pos hlarge]
    have hleft : (absorb maxSignificand 0 n.whole).2 ≠ [] :=
      mt absorb_snd_eq_nil_iff.1 (Nat.not_le.2 hlarge)
    split
    · next hnil =>
      rw [hnil] at hleft
      exact absurd rfl hleft
    · rfl
  · rw [if_neg hlarge, absorb_eq_of_le (Nat.le_of_not_lt hlarge)]
    cases n.negative with
    | false => simp [size]
    | true => exact if_congr (by simp) rfl (if_congr Iff.rfl rfl rfl)

/-- A numeral stands for an integer if it denotes it and fits. -/
theorem integer?_eq_some_iff {n : Numeral} (h : WholeText n.whole) {z : Int} :
    n.integer? = some z ↔ n.IsWhole ∧ n.Fits ∧ n.denoted = z := by
  by_cases hwhole : n.IsWhole
  · have hzero := literal_eq_minus_zero_iff h
    have hsignificand : maxSignificand = 2 ^ 64 - 1 := rfl
    have hnegated : maxNegated = 2 ^ 63 := rfl
    rw [integer?_of_isWhole hwhole]
    simp only [Fits, ne_eq, hzero, hwhole, true_and, denoted, hsignificand, hnegated]
    cases n.negative with
    | false =>
      simp only [if_true, Bool.false_eq_true, if_false, false_and, not_false_iff, and_true]
      split
      · simp
        omega
      · simp
        omega
    | true =>
      simp
      omega
  · have hparts : ¬(n.fraction = [] ∧ n.exponent = none) := hwhole
    have hnone : n.integer? = none := by
      rw [integer?, if_neg hparts]
    simp [hnone, hwhole]

/-- As a number, too. -/
theorem number?_eq_integer_iff {n : Numeral} (h : WholeText n.whole) {z : Int} :
    n.number? = some (.integer z) ↔ n.IsWhole ∧ n.Fits ∧ n.denoted = z := by
  rw [← integer?_eq_some_iff h, number?]
  cases n.integer? with
  | some found => simp
  | none => simp

theorem negative_of_ofDecimal? {negative : Bool} {significand : Nat} {exponent : Int} {x : Binary64}
    (h : Binary64.ofDecimal? negative significand exponent = some x) : x.negative = negative := by
  obtain ⟨rank, -, hrank⟩ := Option.bind_eq_some_iff.1 h
  rw [Binary64.ofRank?] at hrank
  split at hrank
  · cases hrank
    rfl
  · cases hrank

/-- A floating-point number has the sign of its numeral. -/
theorem negative_of_float? {n : Numeral} {x : Binary64} (h : n.float? = some x) :
    x.negative = n.negative := by
  rw [float?] at h
  split at h
  · exact negative_of_ofDecimal? h
  · split at h
    · exact negative_of_ofDecimal? h
    · split at h
      · cases h
      · cases h
        rfl

/-- A numeral that denotes an integer and does not fit becomes a floating-point number of the same
sign, if it becomes anything. -/
theorem exists_float_of_not_fits {n : Numeral} (h : WholeText n.whole) (hfits : ¬n.Fits)
    {number : Number} (hnumber : n.number? = some number) :
    ∃ x : Binary64, number = .float x ∧ x.negative = n.negative := by
  cases number with
  | integer z => exact absurd ((number?_eq_integer_iff h).1 hnumber).2.1 hfits
  | float x =>
    refine ⟨x, rfl, ?_⟩
    rw [number?] at hnumber
    split at hnumber
    · cases hnumber
    · obtain ⟨y, hy, heq⟩ := Option.map_eq_some_iff.1 hnumber
      cases heq
      exact negative_of_float? hy

/-- A numeral that fits is given by the integer. -/
theorem eq_of_denoted_eq {m n : Numeral} (hm : WholeText m.whole) (hn : WholeText n.whole)
    (hmWhole : m.IsWhole) (hnWhole : n.IsWhole) (hmFits : m.Fits) (hnFits : n.Fits)
    (h : m.denoted = n.denoted) : m = n := by
  have hmZero := mt (literal_eq_minus_zero_iff hm).2 hmFits.2.2
  have hnZero := mt (literal_eq_minus_zero_iff hn).2 hnFits.2.2
  have hsame : m.negative = n.negative ∧ m.size = n.size := by
    unfold denoted at h
    cases hmSign : m.negative <;> cases hnSign : n.negative <;>
      simp only [hmSign, hnSign] at h hmZero hnZero <;> simp at h hmZero hnZero ⊢ <;> omega
  have hwhole : m.whole = n.whole := by
    rw [← toDigits_of_wholeText hm, ← toDigits_of_wholeText hn, ← size, ← size, hsame.2]
  obtain ⟨mFraction, mExponent⟩ := hmWhole
  obtain ⟨nFraction, nExponent⟩ := hnWhole
  cases m
  cases n
  simp_all

end Numeral
end Json
end OpcodeTable
