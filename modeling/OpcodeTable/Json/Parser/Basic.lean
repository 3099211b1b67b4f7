import OpcodeTable.Json.Fault

/-!
# Parsers

A `Parser` reads a value from the front of a text and gives back what follows.  Its second field
says that it never succeeds without reading something; the loop over the items of a collection ends
for that reason.

## What is here

* `skipBlank` drops the four blank characters of JSON.
* `Parser.collection` reads the items of an array or an object up to the closing bracket.  The two
  differ in their brackets, in what is reported, and in how an item joins those before it.
-/

set_option autoImplicit false

namespace OpcodeTable
namespace Json

/-- The blank characters: space, tab, line feed and carriage return. -/
def isBlank (c : Char) : Bool :=
  c = ' ' || c = '\t' || c = '\n' || c = '\r'

/-- The text from its first character that is not blank. -/
def skipBlank (text : List Char) : List Char :=
  text.dropWhile isBlank

theorem length_skipBlank_le (text : List Char) : (skipBlank text).length ≤ text.length :=
  (List.dropWhile_sublist _).length_le

/-- What a parser makes of a text: a value and the rest of the text, or a fault. -/
abbrev Reading (α : Type) := Except Fault (α × List Char)

/-- A parser of values at the front of a text. -/
structure Parser (α : Type) where
  /-- Reads a value. -/
  run : List Char → Reading α
  /-- A value takes at least one character. -/
  consumes : ∀ {text : List Char} {value : α} {rest : List Char},
    run text = .ok (value, rest) → rest.length < text.length

namespace Parser

variable {α γ : Type}

/-- How a collection is closed, and what is reported when it is not or when two items are not
separated by a comma. -/
structure Brackets where
  close : Char
  unclosed : Reason
  unseparated : Reason

/-- The brackets of an array. -/
def Brackets.array : Brackets :=
  ⟨']', .endOfArray, .expectedCommaOrBracket⟩

/-- The brackets of an object. -/
def Brackets.object : Brackets :=
  ⟨'}', .endOfObject, .expectedCommaOrBrace⟩

/-- Reads items up to the closing bracket, at least one of them, each joined to those before. -/
def items (brackets : Brackets) (item : Parser α) (join : γ → α → γ) (before : γ)
    (text : List Char) : Reading γ :=
  match _hitem : item.run text with
  | .error fault => .error fault
  | .ok (value, rest) =>
    match _hrest : skipBlank rest with
    | [] => .error (.at brackets.unclosed [])
    | c :: more =>
      if c = brackets.close then .ok (join before value, more)
      else if c = ',' then
        match skipBlank more with
        | [] => .error (.at .endOfValue [])
        | d :: others =>
          if d = brackets.close then .error (.at .trailingComma (d :: others))
          else items brackets item join (join before value) more
      else .error (.at brackets.unseparated (c :: more))
termination_by text.length
decreasing_by
  have hitem := item.consumes _hitem
  have hblank := length_skipBlank_le rest
  rw [_hrest, List.length_cons] at hblank
  omega

/-- Reads the items of a collection whose opening bracket has been read. -/
def collection (brackets : Brackets) (item : Parser α) (join : γ → α → γ) (empty : γ)
    (text : List Char) : Reading γ :=
  match skipBlank text with
  | [] => .error (.at brackets.unclosed [])
  | c :: more =>
    if c = brackets.close then .ok (empty, more) else items brackets item join empty (c :: more)

theorem length_items_lt (brackets : Brackets) (item : Parser α) (join : γ → α → γ) (before : γ)
    (text : List Char) {all : γ} {rest : List Char}
    (h : items brackets item join before text = .ok (all, rest)) : rest.length < text.length := by
  fun_induction items brackets item join before text with
  | case1 | case2 | case4 | case5 | case7 => cases h
  | case3 before text value after hitem more hafter =>
    have hshort := item.consumes hitem
    have hblank := length_skipBlank_le after
    rw [hafter, List.length_cons] at hblank
    cases h
    omega
  | case6 before text value after hitem more d others hmore hd hafter hclose ih =>
    have hshort := item.consumes hitem
    have hblank := length_skipBlank_le after
    rw [hafter, List.length_cons] at hblank
    have hmoreShort := ih h
    omega

theorem length_collection_lt (brackets : Brackets) (item : Parser α) (join : γ → α → γ) (empty : γ)
    (text : List Char) {all : γ} {rest : List Char}
    (h : collection brackets item join empty text = .ok (all, rest)) :
    rest.length < text.length := by
  have hblank := length_skipBlank_le text
  rw [collection] at h
  split at h
  · simp at h
  · next c more hmore =>
    rw [hmore] at hblank
    split at h
    · cases h
      rw [List.length_cons] at hblank
      omega
    · have := length_items_lt _ _ _ _ _ h
      omega

end Parser

end Json
end OpcodeTable
