import Mathlib.Data.List.DropRight
import OpcodeTable.Proofs.Json.Printed
import OpcodeTable.Proofs.Number.SeventeenDigits

/-!
# Printed floating-point numbers are numerals

The text of a floating-point number stands for the shortest decimal that is rounded to it.  The
reader may well come to another number there, but it comes to a number: it takes no more of the
digits than it needs, so what it scales is not larger than that decimal, and the decimal lies
between two magnitudes that are not too large.  Only the largest magnitude has none above it, and
its text is tried.

## What is here

* `Numeral.value`, what a numeral stands for, and `Numeral.isSome_float?`, when the reader gives it
  a value.
* `value_eq_significantDigits`, a decimal number by its significant digits.
* `unsignedText_fraction`, `unsignedText_pointed` and `unsignedText_withExponent`, the forms of its
  text, and `unsignedText_decimal`, by which the text stands for it.
* `exists_reread?_of_pos`, what the reader makes of the text of a number.
-/

set_option autoImplicit false

namespace OpcodeTable
namespace Json

/-! ## What a numeral stands for -/

namespace Numeral

/-- The exponent that is written. -/
def shift (numeral : Numeral) : Int :=
  match numeral.exponent with
  | none => 0
  | some exponent =>
    if exponent.negative then -(Nat.ofDigitChars 10 exponent.digits 0 : Int)
    else Nat.ofDigitChars 10 exponent.digits 0

/-- What a numeral stands for, but for its sign. -/
def value (numeral : Numeral) : ℚ :=
  Nat.ofDigitChars 10 (numeral.whole ++ numeral.fraction) 0 *
    10 ^ (numeral.shift - numeral.fraction.length)

/-- The digits that are left continue the number that was absorbed. -/
theorem ofDigitChars_absorb (limit n : Nat) (digits : List Char) :
    Nat.ofDigitChars 10 (absorb limit n digits).2 (absorb limit n digits).1 =
      Nat.ofDigitChars 10 digits n := by
  induction digits generalizing n with
  | nil => rfl
  | cons c rest ih =>
    rw [absorb]
    split
    · rw [ih, Nat.ofDigitChars_cons, digitValue]
    · rfl

theorem absorb_mul_le (limit n : Nat) (digits : List Char) :
    (absorb limit n digits).1 * 10 ^ (absorb limit n digits).2.length ≤
      Nat.ofDigitChars 10 digits n := by
  rw [← ofDigitChars_absorb limit n digits, Nat.ofDigitChars_eq_ofDigitChars_zero, Nat.mul_comm]
  exact Nat.le_add_right ..

/-- Digits are counted in full if none of them is left. -/
theorem absorb_fst_of_snd_nil {limit size : Nat} {digits : List Char}
    (h : absorb limit 0 digits = (size, [])) : size = Nat.ofDigitChars 10 digits 0 := by
  have hall := ofDigitChars_absorb limit 0 digits
  rw [h] at hall
  exact hall

theorem digits_decimal_le (numeral : Numeral) : numeral.decimal.digits ≤ maxSignificand :=
  fst_absorb_le (fst_absorb_le (Nat.zero_le _) _) _

/-- What is scaled is no larger than what the numeral stands for. -/
theorem decimal_value_le {numeral : Numeral}
    (hwhole : Nat.ofDigitChars 10 numeral.whole 0 ≤ maxSignificand) :
    (numeral.decimal.digits : ℚ) * 10 ^ (numeral.decimal.exponent + numeral.shift) ≤
      numeral.value := by
  have habsorb := absorb_mul_le maxSignificand (Nat.ofDigitChars 10 numeral.whole 0)
    numeral.fraction
  rw [← Nat.ofDigitChars_append] at habsorb
  simp only [value, decimal, absorb_eq_of_le hwhole]
  generalize absorb maxSignificand (Nat.ofDigitChars 10 numeral.whole 0) numeral.fraction =
    absorbed at habsorb ⊢
  obtain ⟨digits, left⟩ := absorbed
  have hcast : (digits : ℚ) * 10 ^ left.length ≤
      Nat.ofDigitChars 10 (numeral.whole ++ numeral.fraction) 0 := by
    exact_mod_cast habsorb
  have hexponent : ((([] : List Char).length : Int) + left.length - numeral.fraction.length) +
      numeral.shift = left.length + (numeral.shift - numeral.fraction.length) := by
    rw [List.length_nil]
    omega
  rw [hexponent, zpow_add₀ (by norm_num), zpow_natCast, ← mul_assoc]
  exact mul_le_mul_of_nonneg_right hcast (zpow_nonneg (by norm_num) _)

/-- Scaling does not lead to something that is too large if what the numeral stands for does not lie
beyond the midpoint between the two largest magnitudes. -/
theorem isSome_ofDecimal? {numeral : Numeral}
    (hwhole : Nat.ofDigitChars 10 numeral.whole 0 ≤ maxSignificand)
    (hvalue : numeral.value * (2 * Binary64.one) ≤ Binary64.largestMidpoint) :
    (Binary64.ofDecimal? numeral.negative numeral.decimal.digits
      (numeral.decimal.exponent + numeral.shift)).isSome = true := by
  have hlimit : maxSignificand ≤ 2 ^ 64 := by decide
  refine Binary64.isSome_ofDecimal? (Nat.le_trans (digits_decimal_le numeral) hlimit) ?_
  intro k hk
  have hle := decimal_value_le hwhole
  rw [hk, zpow_natCast] at hle
  have hone : (0 : ℚ) ≤ 2 * Binary64.one := mul_nonneg (by norm_num) (Nat.cast_nonneg _)
  have hcast : (numeral.decimal.digits : ℚ) * (2 * Binary64.one * 10 ^ k) ≤
      Binary64.largestMidpoint :=
    calc (numeral.decimal.digits : ℚ) * (2 * Binary64.one * 10 ^ k)
        = numeral.decimal.digits * 10 ^ k * (2 * Binary64.one) := by ring
      _ ≤ numeral.value * (2 * Binary64.one) := mul_le_mul_of_nonneg_right hle hone
      _ ≤ _ := hvalue
  exact_mod_cast hcast

/-- So the numeral has a value, whatever its digits are.  An exponent that is not told apart from an
unbounded one makes a zero. -/
theorem isSome_float? {numeral : Numeral}
    (hwhole : Nat.ofDigitChars 10 numeral.whole 0 ≤ maxSignificand)
    (hshift : numeral.shift ≤ maxExponent)
    (hvalue : numeral.value * (2 * Binary64.one) ≤ Binary64.largestMidpoint) :
    numeral.float?.isSome = true := by
  have hdecimal := isSome_ofDecimal? hwhole hvalue
  rw [float?]
  rw [shift] at hdecimal hshift
  cases hexponent : numeral.exponent with
  | none =>
    rw [hexponent] at hdecimal
    simpa using hdecimal
  | some exponent =>
    obtain ⟨negative, digits⟩ := exponent
    simp only [hexponent] at hdecimal hshift ⊢
    split
    · next size hsize =>
      rw [absorb_fst_of_snd_nil hsize]
      exact hdecimal
    · next size c rest hsize =>
      cases negative with
      | true => simp
      | false =>
        have hle : Nat.ofDigitChars 10 digits 0 ≤ maxExponent := by simpa using hshift
        rw [absorb_eq_of_le hle] at hsize
        cases hsize

/-- A numeral with a point or an exponent stands for its floating-point number. -/
theorem number?_of_marked {numeral : Numeral}
    (h : numeral.fraction ≠ [] ∨ numeral.exponent ≠ none) :
    numeral.number? = numeral.float?.map .float := by
  have hparts : ¬(numeral.fraction = [] ∧ numeral.exponent = none) := by
    rintro ⟨hfraction, hexponent⟩
    exact h.elim (fun hne => hne hfraction) fun hne => hne hexponent
  rw [number?, integer?, if_neg hparts]

end Numeral

/-! ## Significant digits -/

/-- Digits of which the first is no zero. -/
def LeadingDigits (digits : List Char) : Prop :=
  ∃ c rest, digits = c :: rest ∧ c ≠ '0' ∧ ∀ d ∈ digits, d.isDigit = true

theorem pow_le_ofDigitChars {digits : List Char} (h : LeadingDigits digits) :
    10 ^ (digits.length - 1) ≤ Nat.ofDigitChars 10 digits 0 := by
  obtain ⟨c, rest, rfl, hc, hdigits⟩ := h
  have hpos : 1 ≤ 10 * 0 + (c.toNat - '0'.toNat) := by
    have hle := (Char.isDigit_iff_toNat.1 (hdigits c (List.mem_cons_self ..))).1
    have hne := mt Char.toNat_inj.1 hc
    omega
  rw [Nat.ofDigitChars_cons, Nat.ofDigitChars_eq_ofDigitChars_zero, List.length_cons]
  calc 10 ^ (rest.length + 1 - 1) = 10 ^ rest.length * 1 := by simp
    _ ≤ 10 ^ rest.length * (10 * 0 + (c.toNat - '0'.toNat)) := Nat.mul_le_mul_left _ hpos
    _ ≤ _ := Nat.le_add_right ..

theorem ofDigitChars_lt {digits : List Char} (h : ∀ c ∈ digits, c.isDigit = true) :
    Nat.ofDigitChars 10 digits 0 < 10 ^ digits.length := by
  induction digits using List.reverseRecOn with
  | nil => decide
  | append_singleton before c ih =>
    obtain ⟨hbefore, hc⟩ := List.forall_mem_append.1 h
    have hdigit := (Char.isDigit_iff_toNat.1 (hc c (List.mem_singleton.2 rfl))).2
    have hnine : '9'.toNat - '0'.toNat = 9 := rfl
    have hlt := ih hbefore
    rw [Nat.ofDigitChars_append, Nat.ofDigitChars_cons, Nat.ofDigitChars_nil, List.length_append,
      List.length_singleton, Nat.pow_succ]
    omega

theorem significantDigits_eq (d : Decimal) :
    d.significantDigits = (Nat.toDigits 10 d.digits).rdropWhile (· = '0') := by
  rw [Decimal.significantDigits, Nat.toList_repr]
  rfl

/-- The digits of a number are its significant digits and zeros. -/
theorem exists_toDigits_eq (d : Decimal) : ∃ zeros,
    Nat.toDigits 10 d.digits = d.significantDigits ++ List.replicate zeros '0' := by
  rw [significantDigits_eq]
  generalize Nat.toDigits 10 d.digits = digits
  have hzeros : digits.rtakeWhile (· = '0') = List.replicate _ '0' :=
    List.eq_replicate_of_mem fun c hc => by simpa using List.mem_rtakeWhile_imp hc
  exact ⟨_, hzeros ▸ List.rdropWhile_append_rtakeWhile.symm⟩

theorem leadingDigits_significantDigits {d : Decimal} (h : 0 < d.digits) :
    LeadingDigits d.significantDigits := by
  obtain ⟨c, rest, hdigits, hc⟩ := exists_toDigits_eq_cons h
  obtain ⟨zeros, hsplit⟩ := exists_toDigits_eq d
  have hall : ∀ x ∈ d.significantDigits, x.isDigit = true := fun x hx =>
    (digitsText_toDigits d.digits).2 x (hsplit ▸ List.mem_append_left _ hx)
  rw [hdigits] at hsplit
  cases hsig : d.significantDigits with
  | nil =>
    -- then all digits would be zeros, and the first of them is none
    have hmem : c ∈ List.replicate zeros '0' := by
      rw [hsig, List.nil_append] at hsplit
      exact hsplit ▸ List.mem_cons_self ..
    exact absurd (List.eq_of_mem_replicate hmem) hc
  | cons first more =>
    rw [hsig, List.cons_append] at hsplit
    obtain ⟨rfl, -⟩ := List.cons.inj hsplit
    exact ⟨c, more, rfl, hc, hsig ▸ hall⟩

/-- A decimal number by its significant digits and the exponent of the first of them. -/
theorem value_eq_significantDigits (d : Decimal) :
    d.value = Nat.ofDigitChars 10 d.significantDigits 0 *
      10 ^ (d.leadingExponent + 1 - d.significantDigits.length) := by
  obtain ⟨zeros, hsplit⟩ := exists_toDigits_eq d
  have hdigits : d.digits = 10 ^ zeros * Nat.ofDigitChars 10 d.significantDigits 0 := by
    rw [← Nat.ofDigitChars_replicate_zero, ← Nat.ofDigitChars_append, ← hsplit,
      Nat.ofDigitChars_ten_toDigits]
  have hlength : d.leadingExponent + 1 - d.significantDigits.length = zeros + d.exponent := by
    rw [Decimal.leadingExponent, ← String.length_toList, Nat.toList_repr, hsplit,
      List.length_append, List.length_replicate]
    omega
  rw [Decimal.value, hdigits, hlength, zpow_add₀ (by norm_num), zpow_natCast, Nat.cast_mul,
    Nat.cast_pow, Nat.cast_ofNat]
  ring

/-! ## The two forms -/

theorem LeadingDigits.wholeText {digits : List Char} (h : LeadingDigits digits) :
    WholeText digits := by
  obtain ⟨c, rest, rfl, hc, hdigits⟩ := h
  exact .digits (hdigits c (List.mem_cons_self ..)) hc fun d hd =>
    hdigits d (List.mem_cons_of_mem _ hd)

theorem LeadingDigits.isDigit {digits : List Char} (h : LeadingDigits digits) :
    ∀ d ∈ digits, d.isDigit = true := by
  obtain ⟨c, rest, rfl, -, hdigits⟩ := h
  exact hdigits

theorem LeadingDigits.append {digits more : List Char} (h : LeadingDigits digits)
    (hmore : ∀ d ∈ more, d.isDigit = true) : LeadingDigits (digits ++ more) := by
  obtain ⟨c, rest, rfl, hc, hdigits⟩ := h
  exact ⟨c, rest ++ more, rfl, hc, List.forall_mem_append.2 ⟨hdigits, hmore⟩⟩

theorem LeadingDigits.take {digits : List Char} (h : LeadingDigits digits) (n : Nat) :
    LeadingDigits (digits.take (n + 1)) := by
  obtain ⟨c, rest, rfl, hc, hdigits⟩ := h
  exact ⟨c, rest.take n, rfl, hc, fun d hd => hdigits d (List.mem_of_mem_take hd)⟩

theorem isDigit_of_mem_replicate {n : Nat} : ∀ c ∈ List.replicate n '0', c.isDigit = true := by
  intro c hc
  rw [List.eq_of_mem_replicate hc]
  rfl

/-- Up to nineteen digits are a significand. -/
theorem ofDigitChars_le_maxSignificand {digits : List Char}
    (h : ∀ c ∈ digits, c.isDigit = true) (hlength : digits.length ≤ 19) :
    Nat.ofDigitChars 10 digits 0 ≤ Numeral.maxSignificand := by
  have hlimit : 10 ^ 19 ≤ Numeral.maxSignificand := by decide
  have hpow : 10 ^ digits.length ≤ 10 ^ 19 := Nat.pow_le_pow_right (by decide) hlength
  have hlt := ofDigitChars_lt h
  omega

/-- A numeral that stands for digits of which the first has the exponent `leading`, and does not
look like an integer.  Zeros are written behind the digits only up to the point, and one after. -/
structure StandsFor (numeral : Numeral) (digits : List Char) (leading : Int) : Prop where
  whole : Nat.ofDigitChars 10 numeral.whole 0 ≤ Numeral.maxSignificand
  shift : numeral.shift = 0 ∨ numeral.shift = leading
  marked : numeral.fraction ≠ [] ∨ numeral.exponent ≠ none
  counted : ∃ zeros : Nat, (zeros = 0 ∨ digits.length + zeros = leading + 2 ∧ leading ≤ 15) ∧
    Nat.ofDigitChars 10 (numeral.whole ++ numeral.fraction) 0 =
      10 ^ zeros * Nat.ofDigitChars 10 digits 0 ∧
    zeros + (numeral.shift - numeral.fraction.length) = leading + 1 - digits.length

/-- Zeros that are written behind the digits are made up for by the exponent. -/
theorem StandsFor.value {numeral : Numeral} {digits : List Char} {leading : Int}
    (h : StandsFor numeral digits leading) :
    numeral.value = Nat.ofDigitChars 10 digits 0 * 10 ^ (leading + 1 - digits.length) := by
  obtain ⟨zeros, -, hdigits, hexponent⟩ := h.counted
  rw [Numeral.value, hdigits, ← hexponent, zpow_add₀ (by norm_num), zpow_natCast, Nat.cast_mul,
    Nat.cast_pow, Nat.cast_ofNat]
  ring

/-- Digits behind the point only. -/
theorem unsignedText_fraction (negative : Bool) {digits : List Char} (h : LeadingDigits digits)
    {leading : Int} (hleading : leading < 0) :
    ∃ numeral, UnsignedText negative (Decimal.positional digits leading).toList numeral ∧
      StandsFor numeral digits leading := by
  obtain ⟨c, rest, rfl, -, hdigits⟩ := h
  have hfraction : DigitsText (List.replicate (-leading - 1).toNat '0' ++ c :: rest) :=
    ⟨by simp, List.forall_mem_append.2 ⟨isDigit_of_mem_replicate, hdigits⟩⟩
  refine ⟨⟨negative, ['0'], List.replicate (-leading - 1).toNat '0' ++ c :: rest, none⟩, ?_,
    ofDigitChars_le_maxSignificand (by simp) (by simp), .inl rfl, .inl hfraction.1,
    0, .inl rfl, ?_, ?_⟩
  · have htext : UnsignedText negative _ _ := .parts .zero (.digits hfraction) .absent
    rw [Decimal.positional, if_pos hleading, String.toList_append, String.toList_ofList]
    simpa using htext
  · rw [← List.append_assoc, Nat.ofDigitChars_append, ← List.replicate_one, ← List.replicate_add,
      Nat.ofDigitChars_replicate_zero, Nat.mul_zero, Nat.pow_zero, Nat.one_mul]
  · simp only [Numeral.shift, List.length_append, List.length_replicate]
    omega

/-- Digits on either side of the point. -/
theorem unsignedText_pointed (negative : Bool) {digits : List Char} (h : LeadingDigits digits)
    {leading : Int} (hnonneg : 0 ≤ leading) (hleading : leading ≤ 15) :
    ∃ numeral, UnsignedText negative (Decimal.positional digits leading).toList numeral ∧
      StandsFor numeral digits leading := by
  rw [Decimal.positional, if_neg (Int.not_lt.2 hnonneg)]
  dsimp only
  by_cases hshort : digits.length ≤ leading.toNat + 1
  · -- zeros up to the point, and one behind it
    generalize hcount : leading.toNat + 1 - digits.length = count
    have hpadded := h.append (isDigit_of_mem_replicate (n := count))
    have hlength : (digits ++ List.replicate count '0').length = leading.toNat + 1 := by
      rw [List.length_append, List.length_replicate]
      omega
    rw [List.take_of_length_le (Nat.le_of_eq hlength), if_pos (Nat.le_of_eq hlength)]
    refine ⟨⟨negative, digits ++ List.replicate count '0', ['0'], none⟩, ?_,
      ofDigitChars_le_maxSignificand hpadded.isDigit (by rw [hlength]; omega), .inl rfl,
      .inl (List.cons_ne_nil _ _), count + 1, .inr ⟨by omega, hleading⟩, ?_, ?_⟩
    · have htext : UnsignedText negative _ _ := .parts hpadded.wholeText
        (.digits (⟨by simp, by simp⟩ : DigitsText ['0'])) .absent
      simpa using htext
    · rw [List.append_assoc, ← List.replicate_succ', Nat.ofDigitChars_append,
        Nat.ofDigitChars_replicate_zero]
    · simp only [Numeral.shift, List.length_singleton]
      omega
  · -- digits are left behind the point
    have hcount : leading.toNat + 1 - digits.length = 0 := by omega
    have hlong : ¬digits.length ≤ leading.toNat + 1 := hshort
    rw [hcount, List.replicate_zero, List.append_nil, if_neg hlong]
    have hwhole := h.take leading.toNat
    have hfraction : DigitsText (digits.drop (leading.toNat + 1)) :=
      ⟨by simpa using hlong, fun c hc => h.isDigit c (List.mem_of_mem_drop hc)⟩
    refine ⟨⟨negative, digits.take (leading.toNat + 1), digits.drop (leading.toNat + 1), none⟩, ?_,
      ofDigitChars_le_maxSignificand hwhole.isDigit ?_, .inl rfl, .inl hfraction.1,
      0, .inl rfl, ?_, ?_⟩
    · have htext : UnsignedText negative _ _ := .parts hwhole.wholeText (.digits hfraction) .absent
      simpa using htext
    · rw [List.length_take]
      omega
    · rw [List.take_append_drop, Nat.pow_zero, Nat.one_mul]
    · simp only [Numeral.shift, List.length_drop]
      omega

/-- The exponent of a numeral is written with its sign. -/
theorem exponentText_natAbs (leading : Int) :
    ExponentText ('e' :: ((if leading < 0 then "-" else "+").toList ++
      Nat.toDigits 10 leading.natAbs)) (some ⟨leading < 0, Nat.toDigits 10 leading.natAbs⟩) := by
  refine .digits (.inl rfl) ?_ (digitsText_toDigits _)
  by_cases hneg : leading < 0
  · rw [if_pos hneg, decide_eq_true hneg]
    exact .minus
  · rw [if_neg hneg, decide_eq_false hneg]
    exact .plus

/-- Digits with an exponent. -/
theorem unsignedText_withExponent (negative : Bool) {digits : List Char} (h : LeadingDigits digits)
    (leading : Int) :
    ∃ numeral, UnsignedText negative (Decimal.withExponent digits leading).toList numeral ∧
      StandsFor numeral digits leading := by
  have hwhole := h.take 0
  have hfraction : FractionText (if digits.length ≤ 1 then [] else '.' :: digits.drop 1)
      (digits.drop 1) := by
    split
    · next hshort =>
      rw [List.drop_eq_nil_of_le hshort]
      exact .absent
    · next hlong =>
      exact .digits ⟨by simpa only [ne_eq, List.drop_eq_nil_iff] using hlong,
        fun c hc => h.isDigit c (List.mem_of_mem_drop hc)⟩
  have hshift : (if decide (leading < 0) = true then
      -(Nat.ofDigitChars 10 (Nat.toDigits 10 leading.natAbs) 0 : Int)
      else Nat.ofDigitChars 10 (Nat.toDigits 10 leading.natAbs) 0) = leading := by
    simp only [Nat.ofDigitChars_ten_toDigits, decide_eq_true_eq]
    split <;> omega
  refine ⟨⟨negative, digits.take 1, digits.drop 1,
    some ⟨leading < 0, Nat.toDigits 10 leading.natAbs⟩⟩, ?_,
    ofDigitChars_le_maxSignificand hwhole.isDigit ?_, .inr hshift, .inr (Option.some_ne_none _),
    0, .inl rfl, ?_, ?_⟩
  · have htext : UnsignedText negative _ _ :=
      .parts hwhole.wholeText hfraction (exponentText_natAbs leading)
    simpa [Decimal.withExponent, Nat.toString_eq_repr, Nat.toList_repr] using htext
  · rw [List.length_take]
    omega
  · rw [List.take_append_drop, Nat.pow_zero, Nat.one_mul]
  · obtain ⟨c, rest, rfl, -⟩ := h
    simp only [Numeral.shift, hshift, List.length_drop, List.length_cons]
    omega

/-! ## Reading a number again -/

/-- The text of a decimal number stands for it. -/
theorem unsignedText_decimal (negative : Bool) {d : Decimal} (h : 0 < d.digits) :
    ∃ numeral, UnsignedText negative (d.text numberLayout).toList numeral ∧
      StandsFor numeral d.significantDigits d.leadingExponent := by
  have hdigits := leadingDigits_significantDigits h
  rw [Decimal.text]
  split
  · next hlayout =>
    rcases Int.lt_or_le d.leadingExponent 0 with hneg | hnonneg
    · exact unsignedText_fraction negative hdigits hneg
    · exact unsignedText_pointed negative hdigits hnonneg hlayout.2
  · exact unsignedText_withExponent negative hdigits d.leadingExponent

/-- The leading digit alone is not more than the decimal number. -/
theorem pow_leadingExponent_le {d : Decimal} (h : 0 < d.digits) :
    (10 : ℚ) ^ d.leadingExponent ≤ d.value := by
  have hdigits := leadingDigits_significantDigits h
  have hlength : 1 ≤ d.significantDigits.length := by
    obtain ⟨c, rest, heq, -⟩ := hdigits
    simp [heq]
  have hcast : (10 : ℚ) ^ (d.significantDigits.length - 1) ≤
      Nat.ofDigitChars 10 d.significantDigits 0 := by
    exact_mod_cast pow_le_ofDigitChars hdigits
  have hsum : ((d.significantDigits.length - 1 : Nat) : Int) +
      (d.leadingExponent + 1 - d.significantDigits.length) = d.leadingExponent := by omega
  calc (10 : ℚ) ^ d.leadingExponent
      = 10 ^ (d.significantDigits.length - 1) *
          10 ^ (d.leadingExponent + 1 - d.significantDigits.length) := by
        rw [← zpow_natCast, ← zpow_add₀ (by norm_num), hsum]
    _ ≤ Nat.ofDigitChars 10 d.significantDigits 0 *
          10 ^ (d.leadingExponent + 1 - d.significantDigits.length) :=
        mul_le_mul_of_nonneg_right hcast (zpow_nonneg (by norm_num) _)
    _ = d.value := (value_eq_significantDigits d).symm

open Binary64 in
/-- A decimal number that does not lie beyond the midpoint between the two largest magnitudes has no
exponent that the reader would not tell apart from others. -/
theorem leadingExponent_le {d : Decimal} (h : 0 < d.digits)
    (hvalue : d.value * (2 * one) ≤ largestMidpoint) : d.leadingExponent ≤ Numeral.maxExponent := by
  have hpow := pow_leadingExponent_le h
  by_contra hlarge
  obtain ⟨k, hk⟩ := Int.eq_ofNat_of_zero_le (a := d.leadingExponent) (by omega)
  have hlimit : 309 ≤ k := by
    have hmax : 309 ≤ Numeral.maxExponent := by decide
    omega
  have hlt : (largestMidpoint : ℚ) < 2 * one * 10 ^ k := by
    exact_mod_cast largestMidpoint_lt hlimit
  have hone : (0 : ℚ) ≤ 2 * one := mul_nonneg (by norm_num) (Nat.cast_nonneg _)
  rw [hk, zpow_natCast] at hpow
  have hle := mul_le_mul_of_nonneg_right hpow hone
  linarith

open Binary64 in
/-- Below the largest magnitude the text has a value. -/
theorem exists_float_of_nextTo (negative : Bool) {rank : Nat}
    (hrank : rank < infiniteRank - 1) {d : Decimal} (hd : NextTo rank d) :
    ∃ numeral y, UnsignedText negative (d.text numberLayout).toList numeral ∧
      StandsFor numeral d.significantDigits d.leadingExponent ∧
      numeral.shift ≤ Numeral.maxExponent ∧ numeral.float? = some y := by
  obtain ⟨hpos, hnext⟩ := hd
  have hvalue : d.value * (2 * one) ≤ largestMidpoint := by
    refine le_trans hnext ?_
    have hbelow : units rank ≤ units (infiniteRank - 2) := units_mono (by omega)
    have habove : units (rank + 1) ≤ units (infiniteRank - 1) := units_mono (by omega)
    rw [largestMidpoint]
    exact_mod_cast Nat.add_le_add hbelow habove
  obtain ⟨numeral, htext, hstands⟩ := unsignedText_decimal negative hpos
  have hsame : numeral.value = d.value := by
    rw [hstands.value, value_eq_significantDigits]
  have hshift : numeral.shift ≤ Numeral.maxExponent := by
    have hle := leadingExponent_le hpos hvalue
    rcases hstands.shift with h | h <;> omega
  have hfloat := Numeral.isSome_float? hstands.whole hshift (hsame ▸ hvalue)
  obtain ⟨y, hy⟩ := Option.isSome_iff_exists.1 hfloat
  exact ⟨numeral, y, htext, hstands, hshift, hy⟩

/-- A text of the grammar is what the reader takes for a number. -/
theorem reread?_of_scalarText {x : Binary64} {number : Number}
    (h : ScalarText (Number.text (.float x)).toList (.number number)) :
    reread? x = some number := by
  have hdocument := DocumentText.document blankText_nil (h.valueText maxDepth) blankText_nil
  rw [List.nil_append, List.append_nil] at hdocument
  rw [reread?, readValue_eq_ok_iff.2 hdocument]

theorem UnsignedText.negative_eq {negative : Bool} {text : List Char} {numeral : Numeral}
    (h : UnsignedText negative text numeral) : numeral.negative = negative := by
  cases h
  rfl

/-- What the reader makes of the text of a number, except for zero and the largest magnitude. -/
theorem exists_reread?_of_pos {x : Binary64} (hpos : 0 < x.rank)
    (hrank : x.rank < Binary64.infiniteRank - 1) :
    ∃ numeral y, StandsFor numeral (Binary64.shortest x.rank).significantDigits
        (Binary64.shortest x.rank).leadingExponent ∧
      numeral.shift ≤ Numeral.maxExponent ∧ numeral.negative = x.negative ∧
      numeral.float? = some y ∧ reread? x = some (.float y) := by
  obtain ⟨numeral, y, htext, hstands, hshift, hy⟩ :=
    exists_float_of_nextTo x.negative hrank (Binary64.nextTo_shortest hpos)
  have hnumeral : NumeralText (Number.text (.float x)).toList numeral := by
    rw [Number.text, Binary64.text, if_neg (Nat.ne_of_gt hpos), String.toList_append]
    cases hnegative : x.negative with
    | false =>
      rw [hnegative] at htext
      exact .plus htext
    | true =>
      rw [hnegative] at htext
      simpa using NumeralText.minus htext
  have hnumber : numeral.number? = some (.float y) := by
    rw [Numeral.number?_of_marked hstands.marked, hy]
    rfl
  exact ⟨numeral, y, hstands, hshift, htext.negative_eq, hy,
    reread?_of_scalarText (.number hnumeral hnumber)⟩

/-- Zero and the largest magnitude are read back. -/
theorem reread?_zero : ∀ negative, reread? (Binary64.zero negative) =
    some (.float (Binary64.zero negative)) := by
  decide +kernel

theorem reread?_largest : ∀ negative, reread? ⟨negative, Binary64.infiniteRank - 1, by decide⟩ =
    some (.float ⟨negative, Binary64.infiniteRank - 1, by decide⟩) := by
  decide +kernel

end Json
end OpcodeTable
