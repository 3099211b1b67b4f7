import Mathlib.Data.List.Forall2
import OpcodeTable.Json.Document
import OpcodeTable.Proofs.Json.Members

/-!
# The grammar of JSON texts

What a JSON text is and what it stands for, said without a parser: each relation below holds
between a piece of text and its meaning.  The parser is compared with these relations, and so is
the printer; what is said of texts in general is proved of the grammar.

## What is here

* `BlankText`, `StringText`, `NumeralText` and `ScalarText`, the parts of a text that nest nothing.
* `ItemsText` and `CollectionText`, the items of an array or an object between brackets, for items
  of any kind.
* `ObjectText`, an object, in which of the members with one name the last one counts, at the
  place of the first.
* `ValueText depth`, values whose arrays and objects are nested at most `depth` deep.
* `DocumentText`, a text with nothing but blanks around it.
* `collectionText_iff` and `memberText_iff`, for items that are described in two ways.
-/

set_option autoImplicit false

namespace OpcodeTable
namespace Json

open OpcodeTable.Json.Parser

variable {α β : Type}

/-- A text of blanks. -/
def BlankText (text : List Char) : Prop :=
  ∀ c ∈ text, isBlank c = true

/-- A text of decimal digits, at least one of them. -/
def DigitsText (text : List Char) : Prop :=
  text ≠ [] ∧ ∀ c ∈ text, c.isDigit = true

/-! ## Strings -/

/-- A character of a string: itself, a short escape, or one or two escaped code units. -/
inductive CharText : List Char → Char → Prop
  | plain {c : Char} (hquote : c ≠ '"') (hslash : c ≠ '\\') (hcontrol : 0x20 ≤ c.toNat) :
      CharText [c] c
  | short {mark c : Char} (h : shortEscape? mark = some c) : CharText ['\\', mark] c
  | unit {digits : List Char} {unit : Nat} (h : fourDigits? digits = some (unit, []))
      (hlow : isLowSurrogate unit = false) (hhigh : isHighSurrogate unit = false) :
      CharText ('\\' :: 'u' :: digits) (Char.ofNat unit)
  | pair {first second : List Char} {high low : Nat}
      (hfirst : fourDigits? first = some (high, [])) (hhigh : isHighSurrogate high = true)
      (hsecond : fourDigits? second = some (low, [])) (hlow : isLowSurrogate low = true) :
      CharText ('\\' :: 'u' :: (first ++ '\\' :: 'u' :: second)) (ofSurrogates high low)

/-- The characters of a string between its quotes. -/
inductive CharsText : List Char → List Char → Prop
  | nil : CharsText [] []
  | cons {text rest chars : List Char} {c : Char} (h : CharText text c)
      (hrest : CharsText rest chars) : CharsText (text ++ rest) (c :: chars)

/-- A string in quotes. -/
inductive StringText : List Char → String → Prop
  | quoted {text chars : List Char} (h : CharsText text chars) :
      StringText ('"' :: (text ++ ['"'])) (String.ofList chars)

/-! ## Numbers -/

/-- The digits before the point: a zero, or digits of which the first is none. -/
inductive WholeText : List Char → Prop
  | zero : WholeText ['0']
  | digits {c : Char} {rest : List Char} (hc : c.isDigit = true) (hzero : c ≠ '0')
      (hrest : ∀ d ∈ rest, d.isDigit = true) : WholeText (c :: rest)

/-- The point and the digits behind it, or neither. -/
inductive FractionText : List Char → List Char → Prop
  | absent : FractionText [] []
  | digits {text : List Char} (h : DigitsText text) : FractionText ('.' :: text) text

/-- The sign of an exponent, which may be left out. -/
inductive SignText : List Char → Bool → Prop
  | absent : SignText [] false
  | plus : SignText ['+'] false
  | minus : SignText ['-'] true

/-- The exponent with its mark, or neither. -/
inductive ExponentText : List Char → Option Exponent → Prop
  | absent : ExponentText [] none
  | digits {mark : Char} {signText text : List Char} {negative : Bool}
      (hmark : mark = 'e' ∨ mark = 'E') (hsign : SignText signText negative)
      (h : DigitsText text) :
      ExponentText (mark :: (signText ++ text)) (some ⟨negative, text⟩)

/-- A numeral without its minus sign. -/
inductive UnsignedText (negative : Bool) : List Char → Numeral → Prop
  | parts {whole fractionText fraction exponentText : List Char} {exponent : Option Exponent}
      (hwhole : WholeText whole) (hfraction : FractionText fractionText fraction)
      (hexponent : ExponentText exponentText exponent) :
      UnsignedText negative (whole ++ (fractionText ++ exponentText))
        ⟨negative, whole, fraction, exponent⟩

/-- A numeral, with a minus sign if it is negative. -/
inductive NumeralText : List Char → Numeral → Prop
  | plus {text : List Char} {numeral : Numeral} (h : UnsignedText false text numeral) :
      NumeralText text numeral
  | minus {text : List Char} {numeral : Numeral} (h : UnsignedText true text numeral) :
      NumeralText ('-' :: text) numeral

/-! ## Values -/

/-- A value that is neither an array nor an object.  A numeral must have a value. -/
inductive ScalarText : List Char → Value → Prop
  | null : ScalarText ['n', 'u', 'l', 'l'] .null
  | true : ScalarText ['t', 'r', 'u', 'e'] (.boolean true)
  | false : ScalarText ['f', 'a', 'l', 's', 'e'] (.boolean false)
  | string {text : List Char} {s : String} (h : StringText text s) : ScalarText text (.string s)
  | number {text : List Char} {numeral : Numeral} {number : Number}
      (h : NumeralText text numeral) (hvalue : numeral.number? = some number) :
      ScalarText text (.number number)

/-- Items with a comma between two of them, and with blanks around the commas. -/
inductive ItemsText (item : List Char → α → Prop) : List Char → List α → Prop
  | last {text after : List Char} {value : α} (h : item text value) (hafter : BlankText after) :
      ItemsText item (text ++ after) [value]
  | more {text after before rest : List Char} {value : α} {values : List α}
      (h : item text value) (hafter : BlankText after) (hbefore : BlankText before)
      (hrest : ItemsText item rest values) :
      ItemsText item (text ++ (after ++ ',' :: (before ++ rest))) (value :: values)

/-- Items between brackets. -/
inductive CollectionText (opening closing : Char) (item : List Char → α → Prop) :
    List Char → List α → Prop
  | empty {blank : List Char} (h : BlankText blank) :
      CollectionText opening closing item (opening :: (blank ++ [closing])) []
  | items {before text : List Char} {values : List α} (hbefore : BlankText before)
      (h : ItemsText item text values) :
      CollectionText opening closing item (opening :: (before ++ (text ++ [closing]))) values

/-- A member of an object. -/
inductive MemberText (item : List Char → α → Prop) : List Char → String × α → Prop
  | member {nameText afterName before text : List Char} {name : String} {value : α}
      (hname : StringText nameText name) (hafterName : BlankText afterName)
      (hbefore : BlankText before) (h : item text value) :
      MemberText item (nameText ++ (afterName ++ ':' :: (before ++ text))) (name, value)

/-- An object. -/
inductive ObjectText (item : List Char → α → Prop) : List Char → Members α → Prop
  | braces {text : List Char} {written : Members α}
      (h : CollectionText '{' '}' (MemberText item) text written) :
      ObjectText item text written.collect

/-- A value whose items are texts of a given kind. -/
inductive NestedText (item : List Char → Value → Prop) : List Char → Value → Prop
  | scalar {text : List Char} {value : Value} (h : ScalarText text value) : NestedText item text value
  | array {text : List Char} {values : List Value} (h : CollectionText '[' ']' item text values) :
      NestedText item text (.array values)
  | object {text : List Char} {fields : Fields} (h : ObjectText item text fields) :
      NestedText item text (.object fields)

/-- A value whose arrays and objects are nested at most `depth` deep. -/
def ValueText : Nat → List Char → Value → Prop
  | 0 => ScalarText
  | depth + 1 => NestedText (ValueText depth)

/-- A text with blanks around it. -/
inductive DocumentText (item : List Char → α → Prop) : List Char → α → Prop
  | document {before text after : List Char} {value : α} (hbefore : BlankText before)
      (h : item text value) (hafter : BlankText after) :
      DocumentText item (before ++ (text ++ after)) value

/-! ## Other items -/

section Other

variable {item : List Char → α → Prop} {other : List Char → β → Prop} {stands : β → α → Prop}
  (hitem : ∀ (text : List Char) (value : α),
    item text value ↔ ∃ found, other text found ∧ stands found value)

include hitem

theorem itemsText_iff {text : List Char} {values : List α} :
    ItemsText item text values ↔
      ∃ founds, ItemsText other text founds ∧ List.Forall₂ stands founds values := by
  constructor
  · intro h
    induction h with
    | last h hafter =>
      obtain ⟨found, hfound, hvalue⟩ := (hitem _ _).1 h
      exact ⟨[found], .last hfound hafter, .cons hvalue .nil⟩
    | more h hafter hbefore _ ih =>
      obtain ⟨found, hfound, hvalue⟩ := (hitem _ _).1 h
      obtain ⟨founds, hfounds, hvalues⟩ := ih
      exact ⟨found :: founds, .more hfound hafter hbefore hfounds, .cons hvalue hvalues⟩
  · rintro ⟨founds, hfounds, hvalues⟩
    induction hfounds generalizing values with
    | last hfound hafter =>
      cases hvalues with
      | cons hvalue hnone =>
        cases hnone
        exact .last ((hitem _ _).2 ⟨_, hfound, hvalue⟩) hafter
    | more hfound hafter hbefore _ ih =>
      cases hvalues with
      | cons hvalue hrest =>
        exact .more ((hitem _ _).2 ⟨_, hfound, hvalue⟩) hafter hbefore (ih hrest)

/-- If items of one kind are items of another kind that stand for them, so it is with collections
of them. -/
theorem collectionText_iff {opening closing : Char} (text : List Char) (values : List α) :
    CollectionText opening closing item text values ↔
      ∃ founds, CollectionText opening closing other text founds ∧
        List.Forall₂ stands founds values := by
  constructor
  · intro h
    cases h with
    | empty hblank => exact ⟨[], .empty hblank, .nil⟩
    | items hbefore h =>
      obtain ⟨founds, hfounds, hvalues⟩ := (itemsText_iff hitem).1 h
      exact ⟨founds, .items hbefore hfounds, hvalues⟩
  · rintro ⟨founds, hfounds, hvalues⟩
    cases hfounds with
    | empty hblank =>
      cases hvalues
      exact .empty hblank
    | items hbefore hfounds =>
      exact .items hbefore ((itemsText_iff hitem).2 ⟨founds, hfounds, hvalues⟩)

theorem memberText_iff (text : List Char) (member : String × α) :
    MemberText item text member ↔
      ∃ found, MemberText other text found ∧ found.1 = member.1 ∧ stands found.2 member.2 := by
  constructor
  · intro h
    cases h with
    | member hname hafterName hbefore h =>
      obtain ⟨found, hfound, hvalue⟩ := (hitem _ _).1 h
      exact ⟨_, .member hname hafterName hbefore hfound, rfl, hvalue⟩
  · rintro ⟨_, hfound, hname, hvalue⟩
    obtain ⟨name, value⟩ := member
    cases hfound with
    | member hnameText hafterName hbefore hfound =>
      cases hname
      exact .member hnameText hafterName hbefore ((hitem _ _).2 ⟨_, hfound, hvalue⟩)

theorem documentText_iff {text : List Char} {value : α} :
    DocumentText item text value ↔ ∃ found, DocumentText other text found ∧ stands found value := by
  constructor
  · intro h
    cases h with
    | document hbefore h hafter =>
      obtain ⟨found, hfound, hvalue⟩ := (hitem _ _).1 h
      exact ⟨found, .document hbefore hfound hafter, hvalue⟩
  · rintro ⟨found, h, hvalue⟩
    cases h with
    | document hbefore hfound hafter =>
      exact .document hbefore ((hitem _ _).2 ⟨found, hfound, hvalue⟩) hafter

end Other

/-! ## How texts begin -/

/-- A text begins with a character that is no blank and closes no bracket. -/
def Begins (text : List Char) : Prop :=
  ∃ c rest, text = c :: rest ∧ isBlank c = false ∧ c ≠ ']' ∧ c ≠ '}'

theorem Begins.append {text : List Char} (h : Begins text) (rest : List Char) :
    Begins (text ++ rest) := by
  obtain ⟨c, more, rfl, hc⟩ := h
  exact ⟨c, more ++ rest, rfl, hc⟩

theorem begins_of_isDigit {c : Char} (h : c.isDigit = true) (rest : List Char) :
    Begins (c :: rest) := by
  refine ⟨c, rest, rfl, ?_, ?_, ?_⟩
  · rw [← Bool.not_eq_true]
    intro hblank
    simp only [isBlank, Bool.or_eq_true, decide_eq_true_eq] at hblank
    rcases hblank with ((rfl | rfl) | rfl) | rfl <;> exact absurd h (by decide)
  · rintro rfl
    exact absurd h (by decide)
  · rintro rfl
    exact absurd h (by decide)

theorem StringText.exists_quote {text : List Char} {s : String} (h : StringText text s) :
    ∃ rest, text = '"' :: rest := by
  cases h
  exact ⟨_, rfl⟩

theorem StringText.begins {text : List Char} {s : String} (h : StringText text s) :
    Begins text := by
  obtain ⟨rest, rfl⟩ := h.exists_quote
  exact ⟨_, _, rfl, by decide, by decide, by decide⟩

theorem UnsignedText.exists_digit {negative : Bool} {text : List Char} {numeral : Numeral}
    (h : UnsignedText negative text numeral) :
    ∃ c rest, text = c :: rest ∧ c.isDigit = true := by
  cases h with
  | parts hwhole =>
    cases hwhole with
    | zero => exact ⟨_, _, rfl, by decide⟩
    | digits hc => exact ⟨_, _, rfl, hc⟩

theorem NumeralText.begins {text : List Char} {numeral : Numeral} (h : NumeralText text numeral) :
    Begins text := by
  cases h with
  | minus h => exact ⟨_, _, rfl, by decide, by decide, by decide⟩
  | plus h =>
    obtain ⟨c, rest, rfl, hc⟩ := h.exists_digit
    exact begins_of_isDigit hc rest

theorem ScalarText.begins {text : List Char} {value : Value} (h : ScalarText text value) :
    Begins text := by
  cases h with
  | null | true | false => exact ⟨_, _, rfl, by decide, by decide, by decide⟩
  | string h => exact h.begins
  | number h => exact h.begins

theorem MemberText.begins {item : List Char → α → Prop} {text : List Char} {member : String × α}
    (h : MemberText item text member) : Begins text := by
  cases h with
  | member hname => exact hname.begins.append _

theorem ItemsText.begins {item : List Char → α → Prop}
    (hitem : ∀ {text : List Char} {value : α}, item text value → Begins text) {text : List Char}
    {values : List α} (h : ItemsText item text values) : Begins text := by
  cases h with
  | last h => exact (hitem h).append _
  | more h => exact (hitem h).append _

theorem CollectionText.exists_opening {opening closing : Char} {item : List Char → α → Prop}
    {text : List Char} {values : List α} (h : CollectionText opening closing item text values) :
    ∃ rest, text = opening :: rest := by
  cases h <;> exact ⟨_, rfl⟩

theorem ObjectText.exists_opening {item : List Char → α → Prop} {text : List Char}
    {fields : Members α} (h : ObjectText item text fields) : ∃ rest, text = '{' :: rest := by
  cases h with
  | braces h => exact h.exists_opening

theorem ObjectText.begins {item : List Char → α → Prop} {text : List Char} {fields : Members α}
    (h : ObjectText item text fields) : Begins text := by
  obtain ⟨rest, rfl⟩ := h.exists_opening
  exact ⟨_, _, rfl, by decide, by decide, by decide⟩

theorem ValueText.begins {depth : Nat} {text : List Char} {value : Value}
    (h : ValueText depth text value) : Begins text := by
  cases depth with
  | zero => exact ScalarText.begins h
  | succ depth =>
    cases h with
    | scalar h => exact h.begins
    | array h =>
      obtain ⟨rest, rfl⟩ := h.exists_opening
      exact ⟨_, _, rfl, by decide, by decide, by decide⟩
    | object h => exact h.begins

/-! ## How texts end -/

/-- What follows a text does not go on with a number. -/
def Ends (rest : List Char) : Prop :=
  ∀ c more, rest = c :: more → c.isDigit = false ∧ c ≠ '.' ∧ c ≠ 'e' ∧ c ≠ 'E'

theorem ends_nil : Ends [] := by
  intro c more h
  cases h

theorem ends_cons {c : Char} (h : c.isDigit = false ∧ c ≠ '.' ∧ c ≠ 'e' ∧ c ≠ 'E')
    (rest : List Char) : Ends (c :: rest) := by
  rintro _ _ ⟨⟩
  exact h

theorem Ends.append_blank {rest : List Char} (h : Ends rest) {blank : List Char}
    (hblank : BlankText blank) : Ends (blank ++ rest) := by
  cases blank with
  | nil => exact h
  | cons c more =>
    have hc := hblank c (List.mem_cons_self ..)
    simp only [isBlank, Bool.or_eq_true, decide_eq_true_eq] at hc
    rcases hc with ((rfl | rfl) | rfl) | rfl <;> exact ends_cons (by decide) _

end Json
end OpcodeTable
