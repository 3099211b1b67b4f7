import OpcodeTable.Json.Printer
import OpcodeTable.Proofs.Json.Grammar

/-!
# Strings and numbers as they are printed

The text that a string or an integer is printed as is a text of the grammar, and it stands for the
string or the integer.  The text of a floating-point number is a numeral too, but it may stand for
a neighbour of that number; all that is proved of it here is which characters it is made of.

## What is here

* `writtenChar`, what a character of a string is written as, and `stringText_text`.
* `InRange`, the integers that a numeral can stand for, and `scalarText_integer`.
* `isNumberChar`, which the characters of every printed number satisfy.
-/

set_option autoImplicit false

namespace OpcodeTable
namespace Json

/-! ## Strings -/

/-- What a character of a string is written as. -/
def writtenChar (c : Char) : List Char :=
  match escape? c with
  | some escaped => escaped.toList
  | none => [c]

theorem toList_join_runFragments (run : List Char) :
    (String.join (runFragments run)).toList = run.reverse := by
  rw [runFragments]
  split
  · next hnil => rw [hnil]; rfl
  · simp

theorem toList_join_stringBody (run chars : List Char) :
    (String.join (stringBody run chars)).toList = run.reverse ++ chars.flatMap writtenChar := by
  induction chars generalizing run with
  | nil => rw [stringBody, toList_join_runFragments, List.flatMap_nil, List.append_nil]
  | cons c rest ih =>
    cases hescape : escape? c with
    | some escaped =>
      simp only [stringBody, List.flatMap_cons, writtenChar, hescape]
      rw [String.join_append, String.join_cons, String.toList_append, String.toList_append,
        toList_join_runFragments, ih, List.reverse_nil, List.nil_append]
    | none =>
      simp only [stringBody, List.flatMap_cons, writtenChar, hescape]
      rw [ih, List.reverse_cons, List.append_assoc]

/-- A string stands between quotes. -/
theorem Value.toList_text_string (s : String) :
    (Value.text (.string s)).toList = '"' :: (s.toList.flatMap writtenChar ++ ['"']) := by
  rw [Value.text, Value.fragments, stringFragments, String.join_append, String.join_cons,
    String.toList_append, String.toList_append, toList_join_stringBody]
  rfl

/-- The four digits of an escaped control character. -/
theorem fourDigits?_control : ∀ n < 0x20,
    Parser.fourDigits? ('0' :: '0' ::
      if n < 0x10 then '0' :: Nat.toDigits 16 n else Nat.toDigits 16 n) = some (n, []) := by
  decide

theorem charText_control {c : Char} (h : c.toNat < 0x20) :
    CharText ('\\' :: 'u' :: '0' :: '0' ::
      if c.toNat < 0x10 then '0' :: Nat.toDigits 16 c.toNat else Nat.toDigits 16 c.toNat) c := by
  have hlow : Parser.isLowSurrogate c.toNat = false := by
    simp only [Parser.isLowSurrogate, Bool.and_eq_false_iff, decide_eq_false_iff_not]
    omega
  have hhigh : Parser.isHighSurrogate c.toNat = false := by
    simp only [Parser.isHighSurrogate, Bool.and_eq_false_iff, decide_eq_false_iff_not]
    omega
  have hunit := CharText.unit (fourDigits?_control c.toNat h) hlow hhigh
  rwa [Char.ofNat_toNat] at hunit

theorem charText_writtenChar (c : Char) : CharText (writtenChar c) c := by
  rw [writtenChar, escape?]
  by_cases hquote : c = '"'
  · subst hquote; exact .short rfl
  by_cases hslash : c = '\\'
  · subst hslash; exact .short rfl
  by_cases hbackspace : c = '\x08'
  · subst hbackspace; exact .short rfl
  by_cases htab : c = '\t'
  · subst htab; exact .short rfl
  by_cases hnewline : c = '\n'
  · subst hnewline; exact .short rfl
  by_cases hfeed : c = '\x0c'
  · subst hfeed; exact .short rfl
  by_cases hreturn : c = '\r'
  · subst hreturn; exact .short rfl
  rw [if_neg hquote, if_neg hslash, if_neg hbackspace, if_neg htab, if_neg hnewline, if_neg hfeed,
    if_neg hreturn]
  by_cases hsmall : c.toNat < 0x10
  · have h := charText_control (c := c) (by omega)
    rw [if_pos hsmall] at h ⊢
    simpa using h
  by_cases hcontrol : c.toNat < 0x20
  · have h := charText_control hcontrol
    rw [if_neg hsmall] at h ⊢
    rw [if_pos hcontrol]
    simpa using h
  rw [if_neg hsmall, if_neg hcontrol]
  exact .plain hquote hslash (Nat.le_of_not_lt hcontrol)

theorem charsText_flatMap (chars : List Char) : CharsText (chars.flatMap writtenChar) chars := by
  induction chars with
  | nil => exact .nil
  | cons c rest ih => exact .cons (charText_writtenChar c) ih

/-- The text of a string stands for the string. -/
theorem stringText_text (s : String) : StringText (Value.text (.string s)).toList s := by
  have h := StringText.quoted (charsText_flatMap s.toList)
  rwa [String.ofList_toList, ← Value.toList_text_string] at h

/-! ## Integers -/

/-- An integer that a numeral can stand for. -/
def InRange (n : Int) : Prop :=
  -(Numeral.maxNegated : Int) ≤ n ∧ n ≤ Numeral.maxSignificand

theorem le_ofDigitChars (digits : List Char) (n : Nat) : n ≤ Nat.ofDigitChars 10 digits n := by
  rw [Nat.ofDigitChars_eq_ofDigitChars_zero]
  calc n = 1 * n := (Nat.one_mul n).symm
    _ ≤ 10 ^ digits.length * n := Nat.mul_le_mul_right n (Nat.pow_pos (by decide))
    _ ≤ _ := Nat.le_add_right ..

/-- Digits are all absorbed if the number that they make does not exceed the limit. -/
theorem absorb_eq_of_le {limit : Nat} {digits : List Char} {n : Nat}
    (h : Nat.ofDigitChars 10 digits n ≤ limit) :
    Numeral.absorb limit n digits = (Nat.ofDigitChars 10 digits n, []) := by
  induction digits generalizing n with
  | nil => simp [Numeral.absorb]
  | cons c rest ih =>
    rw [Nat.ofDigitChars_cons] at h ⊢
    have hfirst : 10 * n + Numeral.digitValue c ≤ limit := Nat.le_trans (le_ofDigitChars rest _) h
    rw [Numeral.absorb, if_pos hfirst]
    exact ih h

theorem fst_absorb_le {limit n : Nat} (h : n ≤ limit) (digits : List Char) :
    (Numeral.absorb limit n digits).1 ≤ limit := by
  induction digits generalizing n with
  | nil => exact h
  | cons c rest ih =>
    rw [Numeral.absorb]
    split
    · next hfirst => exact ih hfirst
    · exact h

/-- A numeral that stands for an integer stands for one of the range. -/
theorem inRange_of_number? {numeral : Numeral} {n : Int}
    (h : numeral.number? = some (.integer n)) : InRange n := by
  have hinteger : numeral.integer? = some n := by
    rw [Numeral.number?] at h
    split at h
    · next found hfound =>
      rw [hfound]
      cases h
      rfl
    · obtain ⟨x, -, hx⟩ := Option.map_eq_some_iff.1 h
      cases hx
  rw [Numeral.integer?] at hinteger
  split at hinteger
  · split at hinteger
    · next size hsize =>
      have hle := fst_absorb_le (Nat.zero_le Numeral.maxSignificand) numeral.whole
      rw [hsize] at hle
      split at hinteger
      · cases hinteger
        exact ⟨by omega, Int.ofNat_le.2 hle⟩
      · split at hinteger
        · next hnegated =>
          cases hinteger
          exact ⟨by omega, by omega⟩
        · cases hinteger
    · cases hinteger
  · cases hinteger

theorem digitsText_toDigits (n : Nat) : DigitsText (Nat.toDigits 10 n) :=
  ⟨Nat.toDigits_ne_nil, fun _ hc => Nat.isDigit_of_mem_toDigits (by decide) (by decide) hc⟩

/-- The first digit of a positive number is no zero. -/
theorem exists_toDigits_eq_cons {n : Nat} (h : 0 < n) :
    ∃ c rest, Nat.toDigits 10 n = c :: rest ∧ c ≠ '0' := by
  induction n using Nat.strongRecOn with
  | _ n ih =>
    rw [Nat.toDigits_eq_if (by decide)]
    split
    · next hlt =>
      refine ⟨_, _, rfl, ?_⟩
      have hne : ∀ m < 10, 0 < m → Nat.digitChar m ≠ '0' := by decide
      exact hne n hlt h
    · obtain ⟨c, rest, hdigits, hc⟩ := ih (n / 10) (by omega) (by omega)
      exact ⟨c, rest ++ [Nat.digitChar (n % 10)], by rw [hdigits]; rfl, hc⟩

theorem wholeText_toDigits (n : Nat) : WholeText (Nat.toDigits 10 n) := by
  have hdigits := digitsText_toDigits n
  rcases Nat.eq_zero_or_pos n with rfl | hpos
  · exact .zero
  · obtain ⟨c, rest, heq, hc⟩ := exists_toDigits_eq_cons hpos
    rw [heq] at hdigits ⊢
    exact .digits (hdigits.2 c (List.mem_cons_self ..)) hc fun d hd =>
      hdigits.2 d (List.mem_cons_of_mem _ hd)

/-- The numeral of a natural number. -/
theorem unsignedText_toDigits (negative : Bool) (n : Nat) :
    UnsignedText negative (Nat.toDigits 10 n) ⟨negative, Nat.toDigits 10 n, [], none⟩ := by
  have h : UnsignedText negative _ _ := .parts (wholeText_toDigits n) .absent .absent
  rwa [List.append_nil, List.append_nil] at h

theorem absorb_toDigits {limit n : Nat} (h : n ≤ limit) :
    Numeral.absorb limit 0 (Nat.toDigits 10 n) = (n, []) := by
  have hvalue : Nat.ofDigitChars 10 (Nat.toDigits 10 n) 0 = n := Nat.ofDigitChars_ten_toDigits
  rw [absorb_eq_of_le (hvalue.symm ▸ h), hvalue]

theorem number?_toDigits {n : Nat} (h : n ≤ Numeral.maxSignificand) :
    Numeral.number? ⟨false, Nat.toDigits 10 n, [], none⟩ = some (.integer n) := by
  have habsorb := absorb_toDigits h
  simp [Numeral.number?, Numeral.integer?, habsorb]

theorem number?_neg_toDigits {n : Nat} (hpos : 0 < n) (h : n ≤ Numeral.maxNegated) :
    Numeral.number? ⟨true, Nat.toDigits 10 n, [], none⟩ = some (.integer (-n)) := by
  have hle : n ≤ Numeral.maxSignificand := Nat.le_trans h (by decide)
  have habsorb := absorb_toDigits hle
  simp [Numeral.number?, Numeral.integer?, habsorb, h, Nat.ne_of_gt hpos]

/-- The text of an integer, as far as numerals go, stands for the integer. -/
theorem scalarText_integer {n : Int} (h : InRange n) :
    ScalarText (Number.text (.integer n)).toList (.number (.integer n)) := by
  rw [Number.text, Int.toString_eq_repr, Int.repr_eq_if]
  split
  · next hnonneg =>
    obtain ⟨size, rfl⟩ := Int.eq_ofNat_of_zero_le hnonneg
    rw [Int.toNat_natCast, Nat.toList_repr]
    exact .number (.plus (unsignedText_toDigits false size))
      (number?_toDigits (Int.ofNat_le.1 h.2))
  · next hneg =>
    obtain ⟨size, hsize⟩ : ∃ size : Nat, n = -(size : Int) := ⟨(-n).toNat, by omega⟩
    subst hsize
    rw [Int.neg_neg, Int.toNat_natCast, String.toList_append, Nat.toList_repr]
    exact .number (.minus (unsignedText_toDigits true size))
      (number?_neg_toDigits (by omega) (by unfold InRange at h; omega))

/-! ## The characters of numbers -/

/-- A character that numbers are printed with. -/
def isNumberChar (c : Char) : Bool :=
  c.isDigit || c = '-' || c = '+' || c = '.' || c = 'e'

theorem isNumberChar_of_isDigit {c : Char} (h : c.isDigit = true) : isNumberChar c = true := by
  simp [isNumberChar, h]

theorem isNumberChar_repr (n : Nat) : ∀ c ∈ n.repr.toList, isNumberChar c = true := by
  intro c hc
  rw [Nat.toList_repr] at hc
  exact isNumberChar_of_isDigit ((digitsText_toDigits n).2 c hc)

theorem isNumberChar_int (n : Int) : ∀ c ∈ (toString n).toList, isNumberChar c = true := by
  rw [Int.toString_eq_repr, Int.repr_eq_if]
  split
  · exact isNumberChar_repr _
  · intro c hc
    rw [String.toList_append, List.mem_append] at hc
    rcases hc with hc | hc
    · rw [List.mem_singleton.1 hc]
      rfl
    · exact isNumberChar_repr _ c hc

theorem isNumberChar_significantDigits (d : Decimal) :
    ∀ c ∈ d.significantDigits, isNumberChar c = true := by
  intro c hc
  rw [Decimal.significantDigits, List.mem_reverse] at hc
  exact isNumberChar_repr d.digits c
    (List.mem_reverse.1 ((List.dropWhile_sublist _).subset hc))

theorem isNumberChar_positional {digits : List Char} (h : ∀ c ∈ digits, isNumberChar c = true)
    (leading : Int) : ∀ c ∈ (Decimal.positional digits leading).toList, isNumberChar c = true := by
  have hzeros : ∀ (count : Nat), ∀ c ∈ List.replicate count '0', isNumberChar c = true := by
    intro count c hc
    rw [List.eq_of_mem_replicate hc]
    rfl
  intro c hc
  rw [Decimal.positional] at hc
  split at hc
  · simp only [String.toList_append, String.toList_ofList, List.mem_append] at hc
    rcases hc with hc | hc | hc
    · exact List.all_eq_true.1 (rfl : "0.".toList.all isNumberChar = true) c hc
    · exact hzeros _ c hc
    · exact h c hc
  · have hpadded : ∀ d ∈ digits ++ List.replicate (leading.toNat + 1 - digits.length) '0',
        isNumberChar d = true := fun d hd =>
      (List.mem_append.1 hd).elim (h d) (hzeros _ d)
    simp only [String.toList_append, String.toList_ofList, List.mem_append, or_assoc] at hc
    rcases hc with hc | hc | hc
    · exact hpadded c (List.mem_of_mem_take hc)
    · exact List.all_eq_true.1 (rfl : ".".toList.all isNumberChar = true) c hc
    · split at hc
      · rw [List.mem_singleton.1 hc]
        rfl
      · exact hpadded c (List.mem_of_mem_drop hc)

theorem isNumberChar_withExponent {digits : List Char} (h : ∀ c ∈ digits, isNumberChar c = true)
    (leading : Int) : ∀ c ∈ (Decimal.withExponent digits leading).toList, isNumberChar c = true := by
  intro c hc
  rw [Decimal.withExponent] at hc
  simp only [String.toList_append, String.toList_ofList, List.mem_append, or_assoc] at hc
  rcases hc with hc | hc | hc | hc | hc
  · exact h c (List.mem_of_mem_take hc)
  · split at hc
    · cases hc
    · rcases List.mem_cons.1 hc with rfl | hc
      · rfl
      · exact h c (List.mem_of_mem_drop hc)
  · exact List.all_eq_true.1 (rfl : "e".toList.all isNumberChar = true) c hc
  · split at hc <;> rw [List.mem_singleton.1 hc] <;> rfl
  · exact isNumberChar_repr _ c hc

theorem isNumberChar_float (x : Binary64) (layout : DecimalLayout) :
    ∀ c ∈ (x.text layout).toList, isNumberChar c = true := by
  intro c hc
  rw [Binary64.text, String.toList_append, List.mem_append] at hc
  rcases hc with hc | hc
  · split at hc
    · rw [List.mem_singleton.1 hc]
      rfl
    · cases hc
  · split at hc
    · exact List.all_eq_true.1 (rfl : "0.0".toList.all isNumberChar = true) c hc
    · rw [Decimal.text] at hc
      split at hc
      · exact isNumberChar_positional (isNumberChar_significantDigits _) _ c hc
      · exact isNumberChar_withExponent (isNumberChar_significantDigits _) _ c hc

/-- The characters of a number, whether it is read back or not. -/
theorem isNumberChar_text (n : Number) : ∀ c ∈ n.text.toList, isNumberChar c = true := by
  cases n with
  | integer n => exact isNumberChar_int n
  | float x => exact isNumberChar_float x numberLayout

end Json
end OpcodeTable
