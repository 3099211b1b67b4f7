import OpcodeTable.Json.Parser.Basic

/-!
# Reading strings

The characters of a JSON string up to the closing quote.  A character below `0x20` must be escaped,
an escape is one of the eight short ones or `\u` with four hexadecimal digits, and a character
outside the first plane is written as two such escapes, a high surrogate and then a low one.
-/

set_option autoImplicit false

namespace OpcodeTable
namespace Json
namespace Parser

/-- The value of a hexadecimal digit. -/
def hexValue? (c : Char) : Option Nat :=
  if '0' ≤ c ∧ c ≤ '9' then some (c.toNat - '0'.toNat)
  else if 'a' ≤ c ∧ c ≤ 'f' then some (c.toNat - 'a'.toNat + 10)
  else if 'A' ≤ c ∧ c ≤ 'F' then some (c.toNat - 'A'.toNat + 10)
  else none

/-- The number that four hexadecimal digits at the front of a text make. -/
def fourDigits? : List Char → Option (Nat × List Char)
  | a :: b :: c :: d :: rest => do
    let high := 16 * (← hexValue? a) + (← hexValue? b)
    let low := 16 * (← hexValue? c) + (← hexValue? d)
    return (256 * high + low, rest)
  | _ => none

/-- Reads four hexadecimal digits.  Any four bytes are taken for them, so a text that is shorter
has ended and one that is not is at fault behind the fourth byte. -/
def codeUnit (text : List Char) : Reading Nat :=
  match fourDigits? text with
  | some (unit, rest) => .ok (unit, rest)
  | none =>
    if byteCount text < 4 then .error (.before .endOfString [])
    else .error ⟨.invalidEscape, byteCount text - 4⟩

/-- Whether a code unit is the first of a surrogate pair. -/
def isHighSurrogate (unit : Nat) : Bool :=
  0xd800 ≤ unit && unit < 0xdc00

/-- Whether a code unit is the second of a surrogate pair. -/
def isLowSurrogate (unit : Nat) : Bool :=
  0xdc00 ≤ unit && unit < 0xe000

/-- The character that a surrogate pair stands for. -/
def ofSurrogates (high low : Nat) : Char :=
  Char.ofNat (0x10000 + (high - 0xd800) * 0x400 + (low - 0xdc00))

/-- Reads the second half of a surrogate pair, which must be escaped too. -/
def lowSurrogate (high : Nat) (text : List Char) : Reading Char :=
  match text with
  | [] => .error (.before .endOfString [])
  | slash :: rest =>
    if slash ≠ '\\' then .error (.at .brokenSurrogatePair (slash :: rest))
    else
      match rest with
      | [] => .error (.before .endOfString [])
      | mark :: digits =>
        if mark ≠ 'u' then .error (.at .brokenSurrogatePair (mark :: digits))
        else
          match codeUnit digits with
          | .error fault => .error fault
          | .ok (low, more) =>
            if isLowSurrogate low then .ok (ofSurrogates high low, more)
            else .error (.before .loneSurrogate more)

/-- Reads the character that the digits of a `\u` escape stand for. -/
def unicodeEscape (text : List Char) : Reading Char :=
  match codeUnit text with
  | .error fault => .error fault
  | .ok (unit, rest) =>
    if isLowSurrogate unit then .error (.before .loneSurrogate rest)
    else if isHighSurrogate unit then lowSurrogate unit rest
    else .ok (Char.ofNat unit, rest)

/-- The character that a short escape stands for. -/
def shortEscape? (c : Char) : Option Char :=
  if c = '"' then some '"'
  else if c = '\\' then some '\\'
  else if c = '/' then some '/'
  else if c = 'b' then some '\x08'
  else if c = 'f' then some '\x0c'
  else if c = 'n' then some '\n'
  else if c = 'r' then some '\r'
  else if c = 't' then some '\t'
  else none

/-- Reads what follows the backslash of an escape. -/
def escaped (text : List Char) : Reading Char :=
  match text with
  | [] => .error (.before .endOfString [])
  | c :: rest =>
    match shortEscape? c with
    | some plain => .ok (plain, rest)
    | none =>
      if c = 'u' then unicodeEscape rest else .error (.at .invalidEscape (c :: rest))

theorem length_codeUnit_lt {text rest : List Char} {unit : Nat}
    (h : codeUnit text = .ok (unit, rest)) : rest.length < text.length := by
  rw [codeUnit] at h
  split at h
  · next found hfound =>
    cases h
    rw [fourDigits?.eq_def] at hfound
    split at hfound
    · next a b c d tail =>
      simp only [Option.bind_eq_bind, Option.bind_eq_some_iff, Option.pure_def] at hfound
      obtain ⟨_, _, _, _, _, _, _, _, hpair⟩ := hfound
      cases hpair
      simp only [List.length_cons]
      omega
    · cases hfound
  · split at h <;> cases h

theorem length_lowSurrogate_lt {high : Nat} {text rest : List Char} {c : Char}
    (h : lowSurrogate high text = .ok (c, rest)) : rest.length < text.length := by
  rw [lowSurrogate.eq_def] at h
  split at h
  · cases h
  · split at h
    · cases h
    · split at h
      · cases h
      · split at h
        · cases h
        · split at h
          · cases h
          · next low more hlow =>
            have hshort := length_codeUnit_lt hlow
            split at h
            · simp only [Except.ok.injEq, Prod.mk.injEq] at h
              obtain ⟨_, rfl⟩ := h
              simp only [List.length_cons]
              omega
            · cases h

theorem length_escaped_lt {text rest : List Char} {c : Char}
    (h : escaped text = .ok (c, rest)) : rest.length < text.length := by
  rw [escaped.eq_def] at h
  split at h
  · cases h
  · next d tail =>
    rw [List.length_cons]
    split at h
    · cases h
      omega
    · split at h
      · unfold unicodeEscape at h
        split at h
        · cases h
        · next unit after hunit =>
          have hshort := length_codeUnit_lt hunit
          split at h
          · cases h
          · split at h
            · have hlow := length_lowSurrogate_lt h
              omega
            · cases h
              omega
      · cases h

/-- Reads the characters of a string up to its closing quote, behind those read before, which are
kept in reverse. -/
def characters (before : List Char) (text : List Char) : Reading String :=
  match text with
  | [] => .error (.before .endOfString [])
  | c :: rest =>
    if c = '"' then .ok (String.ofList before.reverse, rest)
    else if c = '\\' then
      match _hescaped : escaped rest with
      | .error fault => .error fault
      | .ok (plain, more) => characters (plain :: before) more
    else if c.toNat < 0x20 then .error (.before .controlCharacter rest)
    else characters (c :: before) rest
termination_by text.length
decreasing_by
  · have hshort := length_escaped_lt _hescaped
    rw [List.length_cons]
    omega
  · rw [List.length_cons]
    omega

theorem length_characters_lt {before text rest : List Char} {s : String}
    (h : characters before text = .ok (s, rest)) : rest.length < text.length := by
  fun_induction characters before text with
  | case1 | case3 | case5 => cases h
  | case2 before tail =>
    cases h
    simp
  | case4 before tail plain more hescaped hquote ih =>
    have hshort := length_escaped_lt hescaped
    have hrest := ih h
    rw [List.length_cons]
    omega
  | case6 before c tail hquote hslash hcontrol ih =>
    have hrest := ih h
    rw [List.length_cons]
    omega

/-- The parser of a string whose opening quote has been read. -/
def quoted : Parser String where
  run := characters []
  consumes := length_characters_lt

end Parser
end Json
end OpcodeTable
