import OpcodeTable.Proofs.Json.Members
import OpcodeTable.Table

/-!
# The keys of codes

A code is looked up under two keys, which are its hexadecimal numeral with letters in lower case and
in upper case.  What these keys are is said here without writing the numeral: read as a number its
digits make the code, there are at least two of them, and no zero stands in front of two others.
There is just one such numeral in each case, and whatever is read as a number is read as one only.

## What is here

* `hexNumber?`, the number that hexadecimal digits make.
* `Denotes`, the keys that denote a code, and `Denotes.unique`.
* `Spells`, the numeral of a code with given digits, and `spells_lower_iff` and `spells_upper_iff`,
  by which there is one for each case.
* `Table.atCode?_eq`, what is looked up by a code, and `Table.keyAt?`, the key that it is found
  under, which is a numeral of the code by `Table.spells_of_keyAt?`.
-/

set_option autoImplicit false

namespace OpcodeTable

open Json
open Json.Parser (hexValue?)

/-- The number that hexadecimal digits make behind a number. -/
def hexNumberFrom? (number : Nat) : List Char → Option Nat
  | [] => some number
  | c :: rest => (hexValue? c).bind fun value => hexNumberFrom? (16 * number + value) rest

/-- The number that hexadecimal digits make. -/
def hexNumber? (digits : List Char) : Option Nat :=
  hexNumberFrom? 0 digits

/-- The hexadecimal digits with letters in lower case. -/
def lowerDigits : List Char := "0123456789abcdef".toList

/-- The hexadecimal digits with letters in upper case. -/
def upperDigits : List Char := "0123456789ABCDEF".toList

/-- The key is a marker and hexadecimal digits that make the code. -/
def Denotes (key : String) (code : Nat) : Prop :=
  ∃ digits, key = "0x" ++ String.ofList digits ∧ hexNumber? digits = some code

/-- The digits, all from the alphabet, make the code, with no more zeros in front than it takes to
have two of them. -/
structure Spells (alphabet digits : List Char) (code : Nat) : Prop where
  number : hexNumber? digits = some code
  mem_alphabet : ∀ c ∈ digits, c ∈ alphabet
  padded : 2 ≤ digits.length
  short : ∀ rest, digits = '0' :: rest → digits.length = 2

theorem Denotes.unique {key : String} {code other : Nat} (h : Denotes key code)
    (hother : Denotes key other) : code = other := by
  obtain ⟨digits, rfl, hdigits⟩ := h
  obtain ⟨digits', hkey, hdigits'⟩ := hother
  obtain rfl := String.ofList_injective ((String.append_right_inj _).1 hkey)
  exact Option.some.inj (hdigits.symm.trans hdigits')

theorem Spells.mono {alphabet others digits : List Char} {code : Nat}
    (h : Spells alphabet digits code) (hothers : ∀ c ∈ alphabet, c ∈ others) :
    Spells others digits code :=
  { h with mem_alphabet := fun c hc => hothers c (h.mem_alphabet c hc) }

theorem Spells.denotes {alphabet digits : List Char} {code : Nat}
    (h : Spells alphabet digits code) : Denotes ("0x" ++ String.ofList digits) code :=
  ⟨digits, rfl, h.number⟩

/-! ## Digits -/

/-- What is said of every digit is decided along the alphabet, not over all characters. -/
theorem forall_digit {alphabet : List Char} {p : Char → Prop} [DecidablePred p]
    (h : alphabet.all fun c => p c) : ∀ c ∈ alphabet, p c :=
  fun c hc => of_decide_eq_true (List.all_eq_true.1 h c hc)

theorem hexValue?_of_lower : ∀ c ∈ lowerDigits,
    ∃ value < 16, hexValue? c = some value ∧ Nat.digitChar value = c :=
  forall_digit (by decide)

theorem hexValue?_digitChar : ∀ value < 16, hexValue? (Nat.digitChar value) = some value ∧
    Nat.digitChar value ∈ lowerDigits ∧ (Nat.digitChar value = '0' → value = 0) := by
  decide

theorem hexNumberFrom?_append (number : Nat) (front rest : List Char) :
    hexNumberFrom? number (front ++ rest) =
      (hexNumberFrom? number front).bind fun before => hexNumberFrom? before rest := by
  induction front generalizing number with
  | nil => rfl
  | cons c more ih => simp only [List.cons_append, hexNumberFrom?, Option.bind_assoc, ih]

/-- The number in front of two digits counts for its place. -/
theorem hexNumber?_append_pair {front : List Char} {first second : Char} {high low : Nat}
    (hfront : hexNumber? front = some high) (hpair : hexNumber? [first, second] = some low) :
    hexNumber? (front ++ [first, second]) = some (256 * high + low) := by
  rw [hexNumber?] at hfront hpair ⊢
  rw [hexNumberFrom?_append, hfront, Option.bind_some]
  simp only [hexNumberFrom?, Option.bind_eq_some_iff, Option.some.injEq] at hpair ⊢
  obtain ⟨value, hvalue, value', hvalue', hlow⟩ := hpair
  exact ⟨value, hvalue, value', hvalue', by omega⟩

/-- Digits that make a code behind a number are those with which its own digits go on. -/
theorem toDigits_append {number code : Nat} {digits : List Char} (hnumber : 0 < number)
    (hdigits : ∀ c ∈ digits, c ∈ lowerDigits) (h : hexNumberFrom? number digits = some code) :
    Nat.toDigits 16 number ++ digits = Nat.toDigits 16 code := by
  induction digits generalizing number with
  | nil =>
    cases h
    exact List.append_nil _
  | cons c rest ih =>
    obtain ⟨hc, hrest⟩ := List.forall_mem_cons.1 hdigits
    obtain ⟨value, hvalue, hhex, rfl⟩ := hexValue?_of_lower c hc
    rw [hexNumberFrom?, hhex, Option.bind_some] at h
    have hlonger := Nat.toDigits_append_toDigits (by decide : 1 < 16) hnumber hvalue
    rw [Nat.toDigits_of_lt_base hvalue] at hlonger
    rw [← ih (by omega) hrest h, ← hlonger, List.append_assoc]
    rfl

/-- The digits of a number make it, and it has none in front that would be a zero. -/
theorem toDigits_spec (code : Nat) : hexNumber? (Nat.toDigits 16 code) = some code ∧
    (∀ c ∈ Nat.toDigits 16 code, c ∈ lowerDigits) ∧
    ∀ rest, Nat.toDigits 16 code = '0' :: rest → code = 0 := by
  induction code using Nat.strongRecOn with
  | _ code ih =>
    rw [Nat.toDigits_eq_if (by decide)]
    split
    · next hlt =>
      obtain ⟨hhex, hlower, hzero⟩ := hexValue?_digitChar code hlt
      refine ⟨?_, by simpa using hlower, fun rest hrest => hzero (List.cons.inj hrest).1⟩
      simp [hexNumber?, hexNumberFrom?, hhex]
    · next hge =>
      obtain ⟨hnumber, hlower, hzero⟩ := ih (code / 16) (by omega)
      obtain ⟨hhex, hlast, -⟩ := hexValue?_digitChar (code % 16) (by omega)
      refine ⟨?_, List.forall_mem_append.2 ⟨hlower, by simpa using hlast⟩, fun rest hrest => ?_⟩
      · rw [hexNumber?] at hnumber ⊢
        rw [hexNumberFrom?_append, hnumber, Option.bind_some]
        simp only [hexNumberFrom?, hhex, Option.bind_some, Option.some.injEq]
        omega
      · cases hfront : Nat.toDigits 16 (code / 16) with
        | nil => exact absurd hfront Nat.toDigits_ne_nil
        | cons c more =>
          rw [hfront] at hrest
          obtain ⟨rfl, -⟩ := List.cons.inj hrest
          have := hzero more hfront
          omega

/-! ## The numeral of a code -/

open Table (codeDigits)

theorem codeDigits_of_long {code : Nat} (h : 2 ≤ (Nat.toDigits 16 code).length) :
    codeDigits code = Nat.toDigits 16 code := by
  simp [codeDigits, Nat.sub_eq_zero_of_le h]

theorem codeDigits_of_lt {code : Nat} (h : code < 16) :
    codeDigits code = ['0', Nat.digitChar code] := by
  simp [codeDigits, Nat.toDigits_of_lt_base h]

theorem spells_codeDigits (code : Nat) : Spells lowerDigits (codeDigits code) code := by
  rcases Nat.lt_or_ge code 16 with hlt | hge
  · obtain ⟨hhex, hlower, -⟩ := hexValue?_digitChar code hlt
    have hzero : hexValue? '0' = some 0 := rfl
    rw [codeDigits_of_lt hlt]
    exact
      { number := by simp [hexNumber?, hexNumberFrom?, hzero, hhex]
        mem_alphabet := List.forall_mem_cons.2 ⟨by decide, by simpa using hlower⟩
        padded := Nat.le_refl 2
        short := fun _ _ => rfl }
  · obtain ⟨hnumber, hlower, hzero⟩ := toDigits_spec code
    have hlong : 2 ≤ (Nat.toDigits 16 code).length := by
      have hpos := List.length_pos_iff.2 (Nat.toDigits_ne_nil : Nat.toDigits 16 (code / 16) ≠ [])
      rw [Nat.toDigits_eq_if (by decide), if_neg (Nat.not_lt.2 hge), List.length_append,
        List.length_singleton]
      omega
    rw [codeDigits_of_long hlong]
    refine ⟨hnumber, hlower, hlong, fun rest hrest => ?_⟩
    have := hzero rest hrest
    omega

/-- There is only one such numeral. -/
theorem Spells.eq_codeDigits {digits : List Char} {code : Nat}
    (h : Spells lowerDigits digits code) : digits = codeDigits code := by
  obtain ⟨hnumber, halphabet, hpadded, hshort⟩ := h
  match digits with
  | [] | [_] => simp at hpadded
  | first :: second :: rest =>
    obtain ⟨hfirst, hothers⟩ := List.forall_mem_cons.1 halphabet
    obtain ⟨value, hvalue, hhex, rfl⟩ := hexValue?_of_lower first hfirst
    rw [hexNumber?, hexNumberFrom?, hhex, Option.bind_some] at hnumber
    rcases Nat.eq_zero_or_pos value with rfl | hpos
    · -- a zero in front of one digit
      obtain rfl : rest = [] := by simpa using hshort _ rfl
      obtain ⟨last, hlast, hhex', rfl⟩ :=
        hexValue?_of_lower second (hothers second (List.mem_cons_self ..))
      rw [hexNumberFrom?, hhex', Option.bind_some] at hnumber
      obtain rfl : last = code := by simpa [hexNumberFrom?] using hnumber
      rw [codeDigits_of_lt hlast]
      rfl
    · have hdigits := toDigits_append (by omega) hothers hnumber
      rw [Nat.mul_zero, Nat.zero_add, Nat.toDigits_of_lt_base hvalue] at hdigits
      rw [codeDigits_of_long (by rw [← hdigits]; simp), ← hdigits]
      rfl

theorem hexNumberFrom?_map {f : Char → Char} {digits : List Char}
    (hf : ∀ c ∈ digits, hexValue? (f c) = hexValue? c) (number : Nat) :
    hexNumberFrom? number (digits.map f) = hexNumberFrom? number digits := by
  induction digits generalizing number with
  | nil => rfl
  | cons c rest ih =>
    obtain ⟨hc, hrest⟩ := List.forall_mem_cons.1 hf
    simp only [List.map_cons, hexNumberFrom?, hc, ih hrest]

/-- Digits can be replaced by others that have the same values. -/
theorem Spells.map {alphabet others : List Char} {f : Char → Char}
    (hf : ∀ c ∈ alphabet, hexValue? (f c) = hexValue? c ∧ f c ∈ others ∧ (f c = '0' → c = '0'))
    {digits : List Char} {code : Nat} (h : Spells alphabet digits code) :
    Spells others (digits.map f) code where
  number := by
    rw [hexNumber?, hexNumberFrom?_map fun c hc => (hf c (h.mem_alphabet c hc)).1]
    exact h.number
  mem_alphabet := by
    intro c hc
    obtain ⟨old, hold, rfl⟩ := List.mem_map.1 hc
    exact (hf old (h.mem_alphabet old hold)).2.1
  padded := by
    rw [List.length_map]
    exact h.padded
  short := by
    intro rest hrest
    obtain ⟨first, more, rfl, hfirst, -⟩ := List.map_eq_cons_iff.1 hrest
    have hzero := (hf first (h.mem_alphabet first (List.mem_cons_self ..))).2.2 hfirst
    rw [List.length_map]
    exact h.short more (by rw [hzero])

/-! ## Letters -/

/-- The letters among hexadecimal digits are all in lower case or all in upper case. -/
def OneCase (digits : List Char) : Prop :=
  (∀ c ∈ digits, c ∈ lowerDigits) ∨ ∀ c ∈ digits, c ∈ upperDigits

instance (digits : List Char) : Decidable (OneCase digits) :=
  @instDecidableOr _ _ (List.decidableBAll _ digits) (List.decidableBAll _ digits)

/-- Two keys are the same but for the case of letters. -/
def SameButCase (key other : String) : Prop :=
  key.toList.map Char.toLower = other.toList.map Char.toLower

instance (key other : String) : Decidable (SameButCase key other) :=
  inferInstanceAs (Decidable (_ = _))

/-- The digits with letters in either case. -/
def anyDigits : List Char :=
  lowerDigits ++ upperDigits

/-- With its letters in lower case a numeral is one in lower case, and with its letters in upper case
it is one in upper case. -/
theorem Spells.toCases {digits : List Char} {code : Nat} (h : Spells anyDigits digits code) :
    Spells lowerDigits (digits.map Char.toLower) code ∧
      Spells upperDigits (digits.map Char.toUpper) code := by
  have hlower : ∀ c ∈ anyDigits,
      hexValue? c.toLower = hexValue? c ∧ c.toLower ∈ lowerDigits ∧
        (c.toLower = '0' → c = '0') :=
    forall_digit (by decide)
  have hupper : ∀ c ∈ anyDigits,
      hexValue? c.toUpper = hexValue? c ∧ c.toUpper ∈ upperDigits ∧
        (c.toUpper = '0' → c = '0') :=
    forall_digit (by decide)
  exact ⟨h.map hlower, h.map hupper⟩

theorem map_eq_self_iff {alphabet digits : List Char} {f : Char → Char}
    (hf : ∀ c ∈ anyDigits, f c = c ↔ c ∈ alphabet) (h : ∀ c ∈ digits, c ∈ anyDigits) :
    digits.map f = digits ↔ ∀ c ∈ digits, c ∈ alphabet := by
  have hmap : digits.map f = digits.map id ↔ ∀ c ∈ digits, f c = id c := List.map_inj_left
  rw [List.map_id] at hmap
  rw [hmap]
  exact forall₂_congr fun c hc => hf c (h c hc)

theorem toLower_toLower : ∀ c ∈ anyDigits, c.toLower.toLower = c.toLower :=
  forall_digit (by decide)

theorem toLower_toUpper : ∀ c ∈ anyDigits, c.toUpper.toLower = c.toLower :=
  forall_digit (by decide)

/-- Digits are in one case if they are left alone by the change to one of the two. -/
theorem oneCase_iff {digits : List Char} (h : ∀ c ∈ digits, c ∈ anyDigits) :
    OneCase digits ↔ digits.map Char.toLower = digits ∨ digits.map Char.toUpper = digits := by
  have hlower : ∀ c ∈ anyDigits, c.toLower = c ↔ c ∈ lowerDigits :=
    forall_digit (by decide)
  have hupper : ∀ c ∈ anyDigits, c.toUpper = c ↔ c ∈ upperDigits :=
    forall_digit (by decide)
  rw [map_eq_self_iff hlower h, map_eq_self_iff hupper h, OneCase]

theorem mem_anyDigits_of_oneCase {digits : List Char} (h : OneCase digits) :
    ∀ c ∈ digits, c ∈ anyDigits := by
  intro c hc
  rcases h with h | h
  · exact List.mem_append_left _ (h c hc)
  · exact List.mem_append_right _ (h c hc)

/-- The numeral of a code in lower case. -/
theorem spells_lower_iff {digits : List Char} {code : Nat} :
    Spells lowerDigits digits code ↔ digits = codeDigits code := by
  refine ⟨Spells.eq_codeDigits, ?_⟩
  rintro rfl
  exact spells_codeDigits code

/-- The numeral of a code in upper case. -/
theorem spells_upper_iff {digits : List Char} {code : Nat} :
    Spells upperDigits digits code ↔ digits = (codeDigits code).map Char.toUpper := by
  constructor
  · intro h
    have hlower := (h.mono fun _ hc => List.mem_append_right _ hc).toCases.1
    have hback : ∀ c ∈ upperDigits, c.toLower.toUpper = c := forall_digit (by decide)
    have hsame : digits.map (Char.toUpper ∘ Char.toLower) = digits.map id :=
      List.map_congr_left fun c hc => hback c (h.mem_alphabet c hc)
    rw [← hlower.eq_codeDigits, List.map_map, hsame, List.map_id]
  · rintro rfl
    exact ((spells_codeDigits code).mono fun _ hc => List.mem_append_left _ hc).toCases.2

/-! ## Entries by code -/

namespace Table

/-- An entry is looked up under the two keys that spell its code. -/
theorem atCode?_eq (table : Table) {code : UInt16} {lower upper : List Char}
    (hlower : Spells lowerDigits lower code.toNat) (hupper : Spells upperDigits upper code.toNat) :
    table.atCode? code = (table.get? ("0x" ++ String.ofList lower)).or
      (table.get? ("0x" ++ String.ofList upper)) := by
  rw [spells_lower_iff.1 hlower, spells_upper_iff.1 hupper]
  rfl

/-- The key that an entry is found under by its code. -/
def keyAt? (table : Table) (code : UInt16) : Option String :=
  [codeKey code.toNat, upperCodeKey code.toNat].find? fun key => (table.get? key).isSome

theorem atCode?_eq_bind (table : Table) (code : UInt16) :
    table.atCode? code = (table.keyAt? code).bind table.get? := by
  rw [atCode?, keyAt?]
  cases hlower : table.get? (codeKey code.toNat) <;>
    cases hupper : table.get? (upperCodeKey code.toNat) <;> simp [hlower, hupper]

/-- It is a marker and a numeral of the code. -/
theorem spells_of_keyAt? {table : Table} {code : UInt16} {key : String}
    (h : table.keyAt? code = some key) :
    ∃ digits, key = "0x" ++ String.ofList digits ∧ Spells anyDigits digits code.toNat := by
  rw [keyAt?] at h
  rcases List.mem_pair.1 (List.mem_of_find?_eq_some h) with rfl | rfl
  · exact ⟨_, rfl, (spells_codeDigits _).mono fun _ hc => List.mem_append_left _ hc⟩
  · exact ⟨_, rfl, (spells_upper_iff.2 rfl).mono fun _ hc => List.mem_append_right _ hc⟩

/-- It is a key of the table, and it denotes the code. -/
theorem denotes_of_keyAt? {table : Table} {code : UInt16} {key : String}
    (h : table.keyAt? code = some key) : key ∈ table.keys ∧ Denotes key code.toNat := by
  constructor
  · rw [keyAt?] at h
    have hsome := List.find?_some h
    by_contra hnot
    rw [get?, Members.find?_eq_none_iff.2 hnot] at hsome
    cases hsome
  · obtain ⟨digits, rfl, hspells⟩ := spells_of_keyAt? h
    exact hspells.denotes

end Table

end OpcodeTable
