import OpcodeTable.Proofs.Json.Grammar

/-!
# Numerals are read as the grammar has them

The reader of numerals takes as much of a text as can belong to a number.  What it takes is a
numeral of the grammar, and a numeral of the grammar is taken as a whole if what follows does not
go on with it.
-/

set_option autoImplicit false

namespace OpcodeTable
namespace Json
namespace Parser

/-! ## Runs of digits -/

theorem digits_append_eq (text : List Char) : (digits text).1 ++ (digits text).2 = text :=
  List.takeWhile_append_dropWhile

theorem isDigit_of_mem_digits {text : List Char} {c : Char} (h : c ∈ (digits text).1) :
    c.isDigit = true :=
  List.all_eq_true.1 (List.all_takeWhile (l := text)) c h

/-- A run of digits is read as a whole if no digit follows it. -/
theorem digits_append {front rest : List Char} (hfront : ∀ c ∈ front, c.isDigit = true)
    (hrest : ∀ c more, rest = c :: more → c.isDigit = false) :
    digits (front ++ rest) = (front, rest) := by
  have htake : rest.takeWhile Char.isDigit = [] ∧ rest.dropWhile Char.isDigit = rest := by
    cases rest with
    | nil => exact ⟨rfl, rfl⟩
    | cons c more => simp [hrest c more rfl]
  rw [digits, List.takeWhile_append_of_pos hfront, List.dropWhile_append_of_pos hfront, htake.1,
    htake.2, List.append_nil]

/-! ## What is read is a numeral -/

theorem wholePart_sound {text whole rest : List Char} (h : wholePart text = .ok (whole, rest)) :
    text = whole ++ rest ∧ WholeText whole := by
  rw [wholePart.eq_def] at h
  split at h
  · cases h
  · next c more =>
    split at h
    · next hzero =>
      subst hzero
      split at h
      · cases h
        exact ⟨rfl, .zero⟩
      · cases h
    · next hzero =>
      split at h
      · next hc =>
        cases h
        refine ⟨?_, .digits hc hzero fun d hd => isDigit_of_mem_digits hd⟩
        rw [List.cons_append, digits_append_eq]
      · cases h

theorem fractionPart_sound {text fraction rest : List Char}
    (h : fractionPart text = .ok (fraction, rest)) :
    ∃ front, text = front ++ rest ∧ FractionText front fraction := by
  rw [fractionPart.eq_def] at h
  split at h
  · cases h
    exact ⟨[], rfl, .absent⟩
  · next c more =>
    split at h
    · cases h
      exact ⟨[], rfl, .absent⟩
    · next hpoint =>
      rw [Decidable.not_not.1 hpoint]
      split at h
      · cases h
      · split at h
        · cases h
        · next hsome =>
          have hsplit := digits_append_eq more
          simp only [Except.ok.injEq] at h
          rw [h] at hsplit hsome
          refine ⟨'.' :: fraction, by rw [List.cons_append, hsplit], .digits ⟨hsome, ?_⟩⟩
          intro c hc
          have hmem : c ∈ (digits more).1 := by rw [h]; exact hc
          exact isDigit_of_mem_digits hmem

theorem sign_sound (text : List Char) :
    ∃ front, text = front ++ (sign text).2 ∧ SignText front (sign text).1 := by
  rw [sign.eq_def]
  split
  · exact ⟨[], rfl, .absent⟩
  · next c more =>
    split
    · next hminus => exact ⟨['-'], by rw [hminus]; rfl, .minus⟩
    · split
      · next hplus => exact ⟨['+'], by rw [hplus]; rfl, .plus⟩
      · exact ⟨[], rfl, .absent⟩

theorem exponentPart_sound {text rest : List Char} {exponent : Option Exponent}
    (h : exponentPart text = .ok (exponent, rest)) :
    ∃ front, text = front ++ rest ∧ ExponentText front exponent := by
  rw [exponentPart.eq_def] at h
  split at h
  · cases h
    exact ⟨[], rfl, .absent⟩
  · next c more =>
    split at h
    · cases h
      exact ⟨[], rfl, .absent⟩
    · next hmark =>
      obtain ⟨signText, hsplit, hsign⟩ := sign_sound more
      have hdigits := digits_append_eq (sign more).2
      dsimp only at h
      split at h
      · cases h
      · split at h
        · cases h
        · next hsome =>
          cases h
          refine ⟨c :: (signText ++ (digits (sign more).2).1), ?_, .digits ?_ hsign ⟨hsome, ?_⟩⟩
          · rw [List.cons_append, List.append_assoc, hdigits, ← hsplit]
          · by_cases he : c = 'e'
            · exact .inl he
            · exact .inr (Decidable.not_not.1 fun hE => hmark ⟨he, hE⟩)
          · exact fun d hd => isDigit_of_mem_digits hd

/-- **What is read as a numeral is one of the grammar.** -/
theorem numeral_sound {negative : Bool} {text rest : List Char} {n : Numeral}
    (h : Parser.numeral negative text = .ok (n, rest)) :
    ∃ front, text = front ++ rest ∧ UnsignedText negative front n := by
  rw [Parser.numeral] at h
  split at h
  · cases h
  · next whole afterWhole hwhole =>
    split at h
    · cases h
    · next fraction afterFraction hfraction =>
      split at h
      · cases h
      · next exponent after hexponent =>
        obtain ⟨rfl, hwholeText⟩ := wholePart_sound hwhole
        obtain ⟨fractionText, rfl, hfractionText⟩ := fractionPart_sound hfraction
        obtain ⟨exponentText, rfl, hexponentText⟩ := exponentPart_sound hexponent
        cases h
        exact ⟨_, by simp only [List.append_assoc], .parts hwholeText hfractionText hexponentText⟩

/-! ## A numeral is read as a whole -/

theorem wholePart_complete {whole : List Char} (h : WholeText whole) {rest : List Char}
    (hrest : ∀ c more, rest = c :: more → c.isDigit = false) :
    wholePart (whole ++ rest) = .ok (whole, rest) := by
  cases h with
  | zero =>
    have hnone : digits ([] ++ rest) = ([], rest) := digits_append (by simp) hrest
    rw [List.nil_append] at hnone
    simp [wholePart, hnone]
  | digits hc hzero hdigits => simp [wholePart, hc, hzero, digits_append hdigits hrest]

theorem fractionPart_complete {front fraction : List Char} (h : FractionText front fraction)
    {rest : List Char} (hrest : ∀ c more, rest = c :: more → c.isDigit = false ∧ c ≠ '.') :
    fractionPart (front ++ rest) = .ok (fraction, rest) := by
  cases h with
  | absent =>
    cases rest with
    | nil => rfl
    | cons c more => simp [fractionPart, (hrest c more rfl).2]
  | digits h =>
    have hread := digits_append h.2 fun c more hc => (hrest c more hc).1
    simp [fractionPart, hread, h.1]

/-- The sign of an exponent is told from the digits behind it. -/
theorem sign_complete {signText : List Char} {negative : Bool} (h : SignText signText negative)
    {text : List Char} (htext : DigitsText text) (rest : List Char) :
    sign (signText ++ (text ++ rest)) = (negative, text ++ rest) := by
  cases h with
  | plus => rfl
  | minus => rfl
  | absent =>
    obtain ⟨c, more, rfl⟩ := List.exists_cons_of_ne_nil htext.1
    have hc : c.isDigit = true := htext.2 c (List.mem_cons_self ..)
    have hminus : c ≠ '-' := by rintro rfl; exact absurd hc (by decide)
    have hplus : c ≠ '+' := by rintro rfl; exact absurd hc (by decide)
    simp [sign, hminus, hplus]

theorem exponentPart_complete {front : List Char} {exponent : Option Exponent}
    (h : ExponentText front exponent) {rest : List Char}
    (hrest : ∀ c more, rest = c :: more → c.isDigit = false ∧ c ≠ 'e' ∧ c ≠ 'E') :
    exponentPart (front ++ rest) = .ok (exponent, rest) := by
  cases h with
  | absent =>
    cases rest with
    | nil => rfl
    | cons c more => simp [exponentPart, (hrest c more rfl).2]
  | @digits mark signText text negative hmark hsign h =>
    have hread := digits_append h.2 fun c more hc => (hrest c more hc).1
    have hno : ¬(mark ≠ 'e' ∧ mark ≠ 'E') := by
      rcases hmark with rfl | rfl <;> decide
    rw [List.cons_append, List.append_assoc, exponentPart, if_neg hno, sign_complete hsign h]
    simp [hread, h.1]

/-- **A numeral of the grammar is read as it stands**, if what follows cannot belong to it. -/
theorem numeral_complete {negative : Bool} {front : List Char} {n : Numeral}
    (h : UnsignedText negative front n) {rest : List Char} (hrest : Ends rest) :
    Parser.numeral negative (front ++ rest) = .ok (n, rest) := by
  cases h with
  | @parts whole fractionText fraction exponentText exponent hwhole hfraction hexponent =>
    -- no part takes anything from the parts behind it
    have hafterFraction : ∀ c more, exponentText ++ rest = c :: more →
        c.isDigit = false ∧ c ≠ '.' := by
      cases hexponent with
      | absent => exact fun c more hc => ⟨(hrest c more hc).1, (hrest c more hc).2.1⟩
      | digits hmark =>
        rintro _ _ ⟨⟩
        rcases hmark with rfl | rfl <;> decide
    have hafterWhole : ∀ c more, fractionText ++ (exponentText ++ rest) = c :: more →
        c.isDigit = false := by
      cases hfraction with
      | absent => exact fun c more hc => (hafterFraction c more hc).1
      | digits =>
        rintro _ _ ⟨⟩
        decide
    rw [Parser.numeral, List.append_assoc, List.append_assoc, wholePart_complete hwhole hafterWhole]
    dsimp only
    rw [fractionPart_complete hfraction hafterFraction]
    dsimp only
    rw [exponentPart_complete hexponent fun c more hc => ⟨(hrest c more hc).1, (hrest c more hc).2.2⟩]

end Parser
end Json
end OpcodeTable
