import OpcodeTable.Json.Numeral
import OpcodeTable.Json.Parser.Basic

/-!
# Reading numerals

The grammar of numbers: digits without a leading zero, then a point with at least one digit behind
it, then an exponent mark with an optional sign and at least one digit.  The minus sign is read by
the caller.  A numeral ends where no further character can belong to it.
-/

set_option autoImplicit false

namespace OpcodeTable
namespace Json
namespace Parser

/-- The digits at the front of a text, and the rest. -/
def digits (text : List Char) : List Char × List Char :=
  (text.takeWhile Char.isDigit, text.dropWhile Char.isDigit)

/-- Reads the digits before the point.  A zero stands there by itself. -/
def wholePart (text : List Char) : Reading (List Char) :=
  match text with
  | [] => .error (.before .endOfValue [])
  | c :: rest =>
    if c = '0' then
      if (digits rest).1 = [] then .ok (['0'], rest) else .error (.at .invalidNumber rest)
    else if c.isDigit then .ok (c :: (digits rest).1, (digits rest).2)
    else .error (.at .invalidNumber (c :: rest))

/-- Reads the point and the digits behind it, if there is a point. -/
def fractionPart (text : List Char) : Reading (List Char) :=
  match text with
  | [] => .ok ([], [])
  | c :: rest =>
    if c ≠ '.' then .ok ([], c :: rest)
    else if rest = [] then .error (.before .endOfValue [])
    else if (digits rest).1 = [] then .error (.at .invalidNumber rest)
    else .ok (digits rest)

/-- The sign at the front of a text, a plus sign if there is none, and the rest. -/
def sign (text : List Char) : Bool × List Char :=
  match text with
  | [] => (false, [])
  | c :: rest => if c = '-' then (true, rest) else if c = '+' then (false, rest) else (false, text)

/-- Reads the exponent mark and the exponent, if there is a mark. -/
def exponentPart (text : List Char) : Reading (Option Exponent) :=
  match text with
  | [] => .ok (none, [])
  | c :: rest =>
    if c ≠ 'e' ∧ c ≠ 'E' then .ok (none, c :: rest)
    else
      let (negative, power) := sign rest
      if power = [] then .error (.before .endOfValue [])
      else if (digits power).1 = [] then .error (.at .invalidNumber power)
      else .ok (some ⟨negative, (digits power).1⟩, (digits power).2)

/-- Reads a numeral, its sign excepted. -/
def numeral (negative : Bool) (text : List Char) : Reading Numeral :=
  match wholePart text with
  | .error fault => .error fault
  | .ok (whole, afterWhole) =>
    match fractionPart afterWhole with
    | .error fault => .error fault
    | .ok (fraction, afterFraction) =>
      match exponentPart afterFraction with
      | .error fault => .error fault
      | .ok (exponent, rest) => .ok (⟨negative, whole, fraction, exponent⟩, rest)

/-- Reads a numeral and gives it its value. -/
def number (negative : Bool) (text : List Char) : Reading Number :=
  match numeral negative text with
  | .error fault => .error fault
  | .ok (numeral, rest) =>
    match numeral.number? with
    | some number => .ok (number, rest)
    | none => .error ⟨.numberOutOfRange, byteCount rest + numeral.excess⟩

theorem length_digits_le (text : List Char) : (digits text).2.length ≤ text.length :=
  (List.dropWhile_sublist _).length_le

theorem length_wholePart_lt {text whole rest : List Char}
    (h : wholePart text = .ok (whole, rest)) : rest.length < text.length := by
  rw [wholePart.eq_def] at h
  split at h
  · cases h
  · next c more =>
    have hdigits := length_digits_le more
    rw [List.length_cons]
    split at h
    · split at h
      · cases h
        omega
      · cases h
    · split at h
      · cases h
        omega
      · cases h

theorem length_fractionPart_le {text fraction rest : List Char}
    (h : fractionPart text = .ok (fraction, rest)) : rest.length ≤ text.length := by
  rw [fractionPart.eq_def] at h
  split at h
  · cases h
    exact Nat.le_refl _
  · next c more =>
    have hdigits := length_digits_le more
    rw [List.length_cons]
    split at h
    · cases h
      simp
    · split at h
      · cases h
      · split at h
        · cases h
        · simp only [Except.ok.injEq] at h
          rw [h] at hdigits
          exact Nat.le_succ_of_le hdigits

theorem length_sign_le (text : List Char) : (sign text).2.length ≤ text.length := by
  rw [sign.eq_def]
  split
  · exact Nat.le_refl _
  · split
    · simp
    · split <;> simp

theorem length_exponentPart_le {text rest : List Char} {exponent : Option Exponent}
    (h : exponentPart text = .ok (exponent, rest)) : rest.length ≤ text.length := by
  rw [exponentPart.eq_def] at h
  split at h
  · cases h
    exact Nat.le_refl _
  · next c more =>
    have hsign := length_sign_le more
    have hdigits := length_digits_le (sign more).2
    rw [List.length_cons]
    split at h
    · cases h
      simp
    · dsimp only at h
      split at h
      · cases h
      · split at h
        · cases h
        · cases h
          omega

theorem length_numeral_lt {negative : Bool} {text rest : List Char} {numeral : Numeral}
    (h : Parser.numeral negative text = .ok (numeral, rest)) : rest.length < text.length := by
  rw [Parser.numeral] at h
  split at h
  · cases h
  · next whole afterWhole hwhole =>
    split at h
    · cases h
    · next fraction afterFraction hfraction =>
      split at h
      · cases h
      · next exponent after hexponent =>
        have := length_wholePart_lt hwhole
        have := length_fractionPart_le hfraction
        have := length_exponentPart_le hexponent
        cases h
        omega

theorem length_number_lt {negative : Bool} {text rest : List Char} {value : Number}
    (h : number negative text = .ok (value, rest)) : rest.length < text.length := by
  rw [number] at h
  split at h
  · cases h
  · next numeral after hnumeral =>
    have := length_numeral_lt hnumeral
    split at h
    · cases h
      omega
    · cases h

end Parser
end Json
end OpcodeTable
