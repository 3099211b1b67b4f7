import OpcodeTable.Proofs.Json.Grammar

/-!
# Strings are read as the grammar has them

The reader of strings accepts what `CharsText` describes up to a closing quote, and nothing else.
-/

set_option autoImplicit false

namespace OpcodeTable
namespace Json
namespace Parser

/-! ## Escapes -/

/-- Four digits are hexadecimal, and are read in the same way whatever follows them. -/
theorem exists_of_fourDigits? {text rest : List Char} {unit : Nat}
    (h : fourDigits? text = some (unit, rest)) :
    ∃ digits, text = digits ++ rest ∧ (∀ c ∈ digits, ∃ v, hexValue? c = some v) ∧
      ∀ more, fourDigits? (digits ++ more) = some (unit, more) := by
  rw [fourDigits?.eq_def] at h
  split at h
  · next a b c d tail =>
    simp only [Option.bind_eq_bind, Option.bind_eq_some_iff, Option.pure_def,
      Option.some.injEq, Prod.mk.injEq] at h
    obtain ⟨va, ha, vb, hb, vc, hc, vd, hd, hunit, rfl⟩ := h
    refine ⟨[a, b, c, d], rfl, ?_, fun more => ?_⟩
    · simp [ha, hb, hc, hd]
    · simp [fourDigits?, ha, hb, hc, hd, hunit]
  · cases h

theorem fourDigits?_eq_some_iff {text rest : List Char} {unit : Nat} :
    fourDigits? text = some (unit, rest) ↔
      ∃ digits, text = digits ++ rest ∧ fourDigits? digits = some (unit, []) := by
  constructor
  · intro h
    obtain ⟨digits, hsplit, -, hread⟩ := exists_of_fourDigits? h
    have hnothing := hread []
    rw [List.append_nil] at hnothing
    exact ⟨digits, hsplit, hnothing⟩
  · rintro ⟨digits, rfl, h⟩
    obtain ⟨same, heq, -, hread⟩ := exists_of_fourDigits? h
    rw [List.append_nil] at heq
    rw [heq]
    exact hread rest

theorem codeUnit_eq_ok_iff {text rest : List Char} {unit : Nat} :
    codeUnit text = .ok (unit, rest) ↔
      ∃ digits, text = digits ++ rest ∧ fourDigits? digits = some (unit, []) := by
  rw [← fourDigits?_eq_some_iff, codeUnit]
  split
  · next found hfound => rw [hfound]; simp
  · next hnone =>
    rw [hnone]
    split <;> simp

/-- The second of a surrogate pair is read from an escape of its own. -/
theorem lowSurrogate_eq_ok_iff {high : Nat} {text rest : List Char} {c : Char} :
    lowSurrogate high text = .ok (c, rest) ↔
      ∃ digits low, text = '\\' :: 'u' :: (digits ++ rest) ∧
        fourDigits? digits = some (low, []) ∧ isLowSurrogate low = true ∧
        c = ofSurrogates high low := by
  constructor
  · intro h
    rw [lowSurrogate.eq_def] at h
    split at h
    · cases h
    · next slash more =>
      split at h
      · cases h
      · next hslash =>
        rw [Decidable.not_not.1 hslash]
        split at h
        · cases h
        · next mark others =>
          split at h
          · cases h
          · next hmark =>
            rw [Decidable.not_not.1 hmark]
            split at h
            · cases h
            · next low after hunit =>
              split at h
              · next hlow =>
                obtain ⟨digits, rfl, hdigits⟩ := codeUnit_eq_ok_iff.1 hunit
                simp only [Except.ok.injEq, Prod.mk.injEq] at h
                obtain ⟨hc, rfl⟩ := h
                exact ⟨digits, low, rfl, hdigits, hlow, hc.symm⟩
              · cases h
  · rintro ⟨digits, low, rfl, hdigits, hlow, hc⟩
    simp [lowSurrogate, codeUnit_eq_ok_iff.2 ⟨digits, rfl, hdigits⟩, hlow, hc]

/-- An escape is read as the character it stands for, and nothing else is read as an escape. -/
theorem escaped_eq_ok_iff {text rest : List Char} {c : Char} :
    escaped text = .ok (c, rest) ↔
      ∃ front, text = front ++ rest ∧ CharText ('\\' :: front) c := by
  constructor
  · intro h
    rw [escaped.eq_def] at h
    split at h
    · cases h
    · next mark more =>
      split at h
      · next plain hplain =>
        cases h
        exact ⟨[mark], rfl, .short hplain⟩
      · split at h
        · next hmark =>
          subst hmark
          rw [unicodeEscape] at h
          split at h
          · cases h
          · next unit after hunit =>
            obtain ⟨digits, rfl, hdigits⟩ := codeUnit_eq_ok_iff.1 hunit
            split at h
            · cases h
            · next hlow =>
              split at h
              · next hhigh =>
                obtain ⟨second, low, rfl, hsecond, hsecondLow, hc⟩ :=
                  lowSurrogate_eq_ok_iff.1 h
                exact ⟨'u' :: (digits ++ '\\' :: 'u' :: second), by simp,
                  hc ▸ .pair hdigits hhigh hsecond hsecondLow⟩
              · next hhigh =>
                simp only [Except.ok.injEq, Prod.mk.injEq] at h
                obtain ⟨hc, rfl⟩ := h
                rw [Bool.not_eq_true] at hlow hhigh
                exact ⟨'u' :: digits, rfl, hc ▸ .unit hdigits hlow hhigh⟩
        · cases h
  · rintro ⟨front, rfl, h⟩
    have hmark : shortEscape? 'u' = none := by decide
    cases h with
    | plain hquote hslash => exact absurd rfl hslash
    | short h => simp [escaped, h]
    | @unit digits unit h hlow hhigh =>
      have hunit : codeUnit (digits ++ rest) = .ok (unit, rest) :=
        codeUnit_eq_ok_iff.2 ⟨digits, rfl, h⟩
      simp [escaped, hmark, unicodeEscape, hunit, hlow, hhigh]
    | @pair first second high low hfirst hhigh hsecond hlow =>
      have hunit : codeUnit (first ++ '\\' :: 'u' :: (second ++ rest)) =
          .ok (high, '\\' :: 'u' :: (second ++ rest)) :=
        codeUnit_eq_ok_iff.2 ⟨first, rfl, hfirst⟩
      have hrest : lowSurrogate high ('\\' :: 'u' :: (second ++ rest)) =
          .ok (ofSurrogates high low, rest) :=
        lowSurrogate_eq_ok_iff.2 ⟨second, low, rfl, hsecond, hlow, rfl⟩
      -- the reader asks for a low surrogate first
      have hnotLow : isLowSurrogate high = false := by
        simp only [isHighSurrogate, isLowSurrogate, Bool.and_eq_true, decide_eq_true_eq] at hhigh ⊢
        simp only [Bool.and_eq_false_iff, decide_eq_false_iff_not]
        omega
      simp [escaped, hmark, unicodeEscape, hunit, hrest, hnotLow, hhigh]

/-! ## Whole strings -/

/-- What is read up to the closing quote stands for the characters of the string. -/
theorem characters_sound {before text rest : List Char} {s : String}
    (h : characters before text = .ok (s, rest)) :
    ∃ front chars, text = front ++ '"' :: rest ∧ CharsText front chars ∧
      s = String.ofList (before.reverse ++ chars) := by
  fun_induction characters before text with
  | case1 | case3 | case5 => cases h
  | case2 before tail =>
    cases h
    exact ⟨[], [], rfl, .nil, by rw [List.append_nil]⟩
  | case4 before tail plain more hescaped hquote ih =>
    obtain ⟨rear, chars, rfl, hrear, rfl⟩ := ih h
    obtain ⟨front, rfl, hfront⟩ := escaped_eq_ok_iff.1 hescaped
    exact ⟨'\\' :: (front ++ rear), plain :: chars, by simp, .cons hfront hrear, by simp⟩
  | case6 before c tail hquote hslash hcontrol ih =>
    obtain ⟨rear, chars, rfl, hrear, rfl⟩ := ih h
    exact ⟨c :: rear, c :: chars, rfl,
      .cons (.plain hquote hslash (Nat.not_lt.1 hcontrol)) hrear, by simp⟩

/-- A character of a string is read, and the others behind it. -/
theorem characters_append {text : List Char} {c : Char} (h : CharText text c)
    (before rest : List Char) : characters before (text ++ rest) = characters (c :: before) rest := by
  have hescape : ∀ front, text = '\\' :: front →
      characters before (text ++ rest) = characters (c :: before) rest := by
    rintro front rfl
    have hread : escaped (front ++ rest) = .ok (c, rest) := escaped_eq_ok_iff.2 ⟨front, rfl, h⟩
    rw [List.cons_append, characters, if_neg (by decide), if_pos rfl]
    split
    · next fault hfault =>
      rw [hread] at hfault
      cases hfault
    · next plain more hplain =>
      rw [hread, Except.ok.injEq, Prod.mk.injEq] at hplain
      rw [hplain.1, hplain.2]
  cases h with
  | plain hquote hslash hcontrol =>
    rw [List.singleton_append, characters, if_neg hquote, if_neg hslash,
      if_neg (Nat.not_lt.2 hcontrol)]
  | short | unit | pair => exact hescape _ rfl

/-- Whatever stands for the characters of a string is read up to the closing quote. -/
theorem characters_complete {front chars : List Char} (h : CharsText front chars)
    (before rest : List Char) :
    characters before (front ++ '"' :: rest) =
      .ok (String.ofList (before.reverse ++ chars), rest) := by
  induction h generalizing before with
  | nil => rw [List.nil_append, characters, if_pos rfl, List.append_nil]
  | cons hfirst _ ih =>
    rw [List.append_assoc, characters_append hfirst, ih, List.reverse_cons, List.append_assoc,
      List.singleton_append]

/-- The reader of strings reads what stands between quotes. -/
theorem quoted_run_eq_ok_iff {text rest : List Char} {s : String} :
    quoted.run text = .ok (s, rest) ↔
      ∃ front, text = front ++ rest ∧ StringText ('"' :: front) s := by
  constructor
  · intro h
    obtain ⟨front, chars, rfl, hfront, rfl⟩ := characters_sound h
    exact ⟨front ++ ['"'], by simp, .quoted hfront⟩
  · rintro ⟨front, rfl, h⟩
    obtain ⟨body, chars, hfront, hbody, rfl⟩ : ∃ body chars, front = body ++ ['"'] ∧
        CharsText body chars ∧ s = String.ofList chars := by
      cases h with
      | quoted h => exact ⟨_, _, rfl, h, rfl⟩
    rw [hfront, List.append_assoc]
    exact characters_complete hbody [] rest

end Parser
end Json
end OpcodeTable
