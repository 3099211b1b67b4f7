import OpcodeTable.Proofs.Json.Printed

/-!
# Brackets open and close

A text is gone through character by character, keeping track only of how many brackets are open and
of whether a string is.  Whatever the grammar describes leaves both as they were and closes none of
the brackets that were open before it, and so does whatever is printed, even where it would not be
read back.  A text between brackets that is broken off has a bracket open, and is therefore no text
of the grammar.

## What is here

* `Scan`, the state of going through a text, and `Scan.Keeps`, which says that a text leaves a state
  as it was.
* `ValueText.balanced` and `ObjectText.balanced` for texts of the grammar, by induction on the
  nesting, and `Value.balanced_text` for printed values, by induction on the value.
* `not_documentText_of_broken_off`, what follows for a text that is broken off.
-/

set_option autoImplicit false

namespace OpcodeTable
namespace Json

variable {α : Type}

/-- How many brackets are open, and where the text stands: outside of strings, inside of one, or
behind a backslash in one. -/
inductive Scan where
  | outside (depth : Nat)
  | inside (depth : Nat)
  | escaped (depth : Nat)
deriving DecidableEq, Repr

namespace Scan

/-- How many brackets are open. -/
def depth : Scan → Nat
  | outside depth | inside depth | escaped depth => depth

/-- What a character does. -/
def next (state : Scan) (c : Char) : Scan :=
  match state with
  | outside depth =>
    if c = '"' then inside depth
    else if c = '[' ∨ c = '{' then outside (depth + 1)
    else if c = ']' ∨ c = '}' then outside (depth - 1)
    else outside depth
  | inside depth =>
    if c = '"' then outside depth
    else if c = '\\' then escaped depth
    else inside depth
  | escaped depth => inside depth

/-- Goes through a text. -/
def through (state : Scan) (text : List Char) : Scan :=
  text.foldl next state

/-- A text leaves a state as it was, and on the way no fewer brackets are open. -/
structure Keeps (state : Scan) (text : List Char) : Prop where
  through_eq : state.through text = state
  depth_le : ∀ front, front <+: text → state.depth ≤ (state.through front).depth

theorem through_append (state : Scan) (first second : List Char) :
    state.through (first ++ second) = (state.through first).through second :=
  List.foldl_append

theorem keeps_nil (state : Scan) : state.Keeps [] :=
  ⟨rfl, fun front hfront => by rw [List.prefix_nil.1 hfront]; exact Nat.le_refl _⟩

theorem Keeps.append {state : Scan} {first second : List Char} (hfirst : state.Keeps first)
    (hsecond : state.Keeps second) : state.Keeps (first ++ second) := by
  refine ⟨?_, fun front hfront => ?_⟩
  · rw [through_append, hfirst.through_eq, hsecond.through_eq]
  · rcases List.prefix_or_prefix_of_prefix hfront (List.prefix_append first second) with
      hshort | ⟨rear, rfl⟩
    · exact hfirst.depth_le front hshort
    · rw [through_append, hfirst.through_eq]
      exact hsecond.depth_le rear ((List.prefix_append_right_inj first).1 hfront)

/-- What is between two characters, of which the second takes back what the first one does. -/
theorem Keeps.between {state inner : Scan} {first last : Char} {text : List Char}
    (hfirst : state.next first = inner) (hdepth : state.depth ≤ inner.depth)
    (h : inner.Keeps text) (hlast : inner.next last = state) :
    state.Keeps (first :: (text ++ [last])) := by
  refine ⟨?_, fun front hfront => ?_⟩
  · change (state.next first).through (text ++ [last]) = state
    rw [hfirst, through_append, h.through_eq]
    exact hlast
  · rcases List.prefix_cons_iff.1 hfront with rfl | ⟨middle, rfl, hmiddle⟩
    · exact Nat.le_refl _
    · change state.depth ≤ ((state.next first).through middle).depth
      rw [hfirst]
      rcases List.prefix_concat_iff.1 hmiddle with rfl | hmiddle
      · rw [through_append, h.through_eq]
        change state.depth ≤ (inner.next last).depth
        exact Nat.le_of_eq (congrArg Scan.depth hlast.symm)
      · exact Nat.le_trans hdepth (h.depth_le middle hmiddle)

/-- Characters that do nothing. -/
theorem keeps_of_next_eq {state : Scan} {text : List Char} (h : ∀ c ∈ text, state.next c = state) :
    state.Keeps text := by
  induction text with
  | nil => exact keeps_nil state
  | cons c rest ih =>
    have hfirst := h c (List.mem_cons_self ..)
    have hrest := ih fun d hd => h d (List.mem_cons_of_mem _ hd)
    refine ⟨?_, fun front hfront => ?_⟩
    · change (state.next c).through rest = state
      rw [hfirst, hrest.through_eq]
    · rcases List.prefix_cons_iff.1 hfront with rfl | ⟨middle, rfl, hmiddle⟩
      · exact Nat.le_refl _
      · change state.depth ≤ ((state.next c).through middle).depth
        rw [hfirst]
        exact hrest.depth_le middle hmiddle

end Scan

open Scan

/-- Outside of strings, a text closes the brackets that it opens. -/
def Balanced (text : List Char) : Prop :=
  ∀ depth, (outside depth).Keeps text

theorem balanced_nil : Balanced [] :=
  fun _ => keeps_nil _

theorem Balanced.append {first second : List Char} (hfirst : Balanced first)
    (hsecond : Balanced second) : Balanced (first ++ second) :=
  fun depth => (hfirst depth).append (hsecond depth)

/-- A character that neither opens nor closes anything. -/
def isPlain (c : Char) : Bool :=
  c ≠ '"' && c ≠ '[' && c ≠ '{' && c ≠ ']' && c ≠ '}'

theorem balanced_of_isPlain {text : List Char} (h : ∀ c ∈ text, isPlain c = true) :
    Balanced text := by
  refine fun depth => keeps_of_next_eq fun c hc => ?_
  have hplain := h c hc
  simp only [isPlain, Bool.and_eq_true, decide_eq_true_eq] at hplain
  simp [next, hplain]

theorem balanced_singleton {c : Char} (hc : isPlain c = true) : Balanced [c] :=
  balanced_of_isPlain fun _ hd => List.mem_singleton.1 hd ▸ hc

theorem balanced_cons {c : Char} (hc : isPlain c = true) {text : List Char} (h : Balanced text) :
    Balanced (c :: text) :=
  (balanced_singleton hc).append h

/-! ## Parts of texts -/

theorem BlankText.balanced {text : List Char} (h : BlankText text) : Balanced text := by
  refine balanced_of_isPlain fun c hc => ?_
  have hblank := h c hc
  simp only [isBlank, Bool.or_eq_true, decide_eq_true_eq] at hblank
  rcases hblank with ((rfl | rfl) | rfl) | rfl <;> rfl

theorem isPlain_of_isNumberChar {c : Char} (h : isNumberChar c = true) : isPlain c = true := by
  simp only [isPlain, Bool.and_eq_true, decide_eq_true_eq]
  refine ⟨⟨⟨⟨?_, ?_⟩, ?_⟩, ?_⟩, ?_⟩ <;>
  · rintro rfl
    exact absurd h (by decide)

theorem balanced_of_isDigit {text : List Char} (h : ∀ c ∈ text, c.isDigit = true) :
    Balanced text :=
  balanced_of_isPlain fun c hc => isPlain_of_isNumberChar (isNumberChar_of_isDigit (h c hc))

/-- A hexadecimal digit neither closes a string nor escapes anything. -/
theorem ne_quote_of_hexValue? {c : Char} {v : Nat} (h : Parser.hexValue? c = some v) :
    c ≠ '"' ∧ c ≠ '\\' := by
  have hquote : Parser.hexValue? '"' = none := by decide
  have hslash : Parser.hexValue? '\\' = none := by decide
  refine ⟨?_, ?_⟩
  · rintro rfl
    cases hquote.symm.trans h
  · rintro rfl
    cases hslash.symm.trans h

theorem keeps_fourDigits {digits : List Char} {unit : Nat}
    (h : Parser.fourDigits? digits = some (unit, [])) (depth : Nat) :
    (inside depth).Keeps digits := by
  obtain ⟨same, rfl, hhex, -⟩ := Parser.exists_of_fourDigits? h
  rw [List.append_nil]
  refine keeps_of_next_eq fun c hc => ?_
  obtain ⟨v, hv⟩ := hhex c hc
  simp [next, ne_quote_of_hexValue? hv]

/-- A backslash and what it escapes. -/
theorem keeps_escape (depth : Nat) (mark : Char) : (inside depth).Keeps ['\\', mark] := by
  have hmark : (escaped depth).next mark = inside depth := rfl
  exact Keeps.between rfl (Nat.le_refl _) (keeps_nil _) hmark

theorem CharText.keeps {text : List Char} {c : Char} (h : CharText text c) (depth : Nat) :
    (inside depth).Keeps text := by
  cases h with
  | plain hquote hslash =>
    refine keeps_of_next_eq fun d hd => ?_
    rw [List.mem_singleton.1 hd]
    simp [next, hquote, hslash]
  | short => exact keeps_escape depth _
  | unit h => exact (keeps_escape depth 'u').append (keeps_fourDigits h depth)
  | pair hfirst _ hsecond =>
    exact ((keeps_escape depth 'u').append (keeps_fourDigits hfirst depth)).append
      ((keeps_escape depth 'u').append (keeps_fourDigits hsecond depth))

theorem CharsText.keeps {text chars : List Char} (h : CharsText text chars) (depth : Nat) :
    (inside depth).Keeps text := by
  induction h with
  | nil => exact keeps_nil _
  | cons h _ ih => exact (h.keeps depth).append ih

theorem StringText.balanced {text : List Char} {s : String} (h : StringText text s) :
    Balanced text := by
  cases h with
  | quoted h => exact fun depth => Keeps.between rfl (Nat.le_refl _) (h.keeps depth) rfl

theorem UnsignedText.balanced {negative : Bool} {text : List Char} {numeral : Numeral}
    (h : UnsignedText negative text numeral) : Balanced text := by
  cases h with
  | parts hwhole hfraction hexponent =>
    refine Balanced.append ?_ (Balanced.append ?_ ?_)
    · cases hwhole with
      | zero => exact balanced_singleton rfl
      | digits hc _ hrest =>
        exact balanced_of_isDigit (List.forall_mem_cons.2 ⟨hc, hrest⟩)
    · cases hfraction with
      | absent => exact balanced_nil
      | digits h => exact balanced_cons rfl (balanced_of_isDigit h.2)
    · cases hexponent with
      | absent => exact balanced_nil
      | @digits mark _ _ _ hmark hsign h =>
        have hmarkPlain : isPlain mark = true := by rcases hmark with rfl | rfl <;> rfl
        refine balanced_cons hmarkPlain (Balanced.append ?_ (balanced_of_isDigit h.2))
        cases hsign with
        | absent => exact balanced_nil
        | plus => exact balanced_singleton rfl
        | minus => exact balanced_singleton rfl

theorem NumeralText.balanced {text : List Char} {numeral : Numeral} (h : NumeralText text numeral) :
    Balanced text := by
  cases h with
  | plus h => exact h.balanced
  | minus h => exact balanced_cons rfl h.balanced

theorem ScalarText.balanced {text : List Char} {value : Value} (h : ScalarText text value) :
    Balanced text := by
  cases h with
  | null | true | false => exact balanced_of_isPlain (List.all_eq_true.1 rfl)
  | string h => exact h.balanced
  | number h => exact h.balanced

/-! ## Texts of the grammar -/

section Nested

variable {item : List Char → α → Prop}
  (hitem : ∀ {text : List Char} {value : α}, item text value → Balanced text)

include hitem

theorem ItemsText.balanced {text : List Char} {values : List α} (h : ItemsText item text values) :
    Balanced text := by
  induction h with
  | last h hafter => exact (hitem h).append hafter.balanced
  | more h hafter hbefore _ ih =>
    exact (hitem h).append (hafter.balanced.append (balanced_cons rfl (hbefore.balanced.append ih)))

/-- What stands between the brackets of a collection. -/
theorem CollectionText.exists_inner {opening closing : Char} {text : List Char} {values : List α}
    (h : CollectionText opening closing item text values) :
    ∃ inner, text = opening :: (inner ++ [closing]) ∧ Balanced inner := by
  cases h with
  | empty hblank => exact ⟨_, rfl, hblank.balanced⟩
  | items hbefore h =>
    refine ⟨_, ?_, hbefore.balanced.append (h.balanced hitem)⟩
    rw [List.append_assoc]

theorem MemberText.balanced {text : List Char} {member : String × α}
    (h : MemberText item text member) : Balanced text := by
  cases h with
  | member hname hafterName hbefore h =>
    exact hname.balanced.append
      (hafterName.balanced.append (balanced_cons rfl (hbefore.balanced.append (hitem h))))

end Nested

theorem balanced_brackets {inner : List Char} (h : Balanced inner) :
    Balanced ('[' :: (inner ++ [']'])) :=
  fun depth => Keeps.between rfl (Nat.le_succ _) (h (depth + 1)) rfl

theorem balanced_braces {inner : List Char} (h : Balanced inner) :
    Balanced ('{' :: (inner ++ ['}'])) :=
  fun depth => Keeps.between rfl (Nat.le_succ _) (h (depth + 1)) rfl

theorem ObjectText.balanced {item : List Char → α → Prop}
    (hitem : ∀ {text : List Char} {value : α}, item text value → Balanced text) {text : List Char}
    {fields : Members α} (h : ObjectText item text fields) : Balanced text := by
  cases h with
  | braces h =>
    obtain ⟨inner, rfl, hinner⟩ := h.exists_inner fun hmember => hmember.balanced hitem
    exact balanced_braces hinner

theorem ValueText.balanced {depth : Nat} {text : List Char} {value : Value}
    (h : ValueText depth text value) : Balanced text := by
  induction depth generalizing text value with
  | zero => exact ScalarText.balanced h
  | succ depth ih =>
    cases h with
    | scalar h => exact h.balanced
    | array h =>
      obtain ⟨inner, rfl, hinner⟩ := h.exists_inner ih
      exact balanced_brackets hinner
    | object h => exact h.balanced ih

theorem DocumentText.balanced {item : List Char → α → Prop}
    (hitem : ∀ {text : List Char} {value : α}, item text value → Balanced text) {text : List Char}
    {value : α} (h : DocumentText item text value) : Balanced text := by
  cases h with
  | document hbefore h hafter =>
    exact hbefore.balanced.append ((hitem h).append hafter.balanced)

/-! ## Printed texts -/

/-- What stands between the braces of a printed object. -/
theorem Value.exists_inner_object {fields : Fields}
    (h : ∀ field ∈ fields, Balanced field.2.text.toList) :
    ∃ inner, (Value.text (.object fields)).toList = '{' :: (inner ++ ['}']) ∧ Balanced inner := by
  have hobject : ObjectText (fun text _ => Balanced text) _ _ := objectText_text h
  generalize (Value.text (.object fields)).toList = text at hobject
  generalize Members.collect fields = collected at hobject
  cases hobject with
  | braces hobject => exact hobject.exists_inner fun hmember => hmember.balanced id

namespace Value

mutual

/-- Whatever is printed is balanced, whether it is read back or not. -/
theorem balanced_text : ∀ value : Value, Balanced value.text.toList
  | .null => balanced_of_isPlain (List.all_eq_true.1 rfl)
  | .boolean true => balanced_of_isPlain (List.all_eq_true.1 rfl)
  | .boolean false => balanced_of_isPlain (List.all_eq_true.1 rfl)
  | .number n => by
    rw [text_number]
    exact balanced_of_isPlain fun c hc => isPlain_of_isNumberChar (isNumberChar_text n c hc)
  | .string s => (stringText_text s).balanced
  | .array items => by
    have hitems : CollectionText '[' ']' (fun text _ => Balanced text) _ _ :=
      collectionText_intercalate text id (balanced_itemTexts items)
    obtain ⟨inner, heq, hinner⟩ := hitems.exists_inner id
    rw [text_array, String.toList_append, String.toList_append, List.append_assoc]
    change Balanced ('[' :: _)
    exact heq ▸ balanced_brackets hinner
  | .object fields => by
    obtain ⟨inner, heq, hinner⟩ := exists_inner_object (balanced_memberTexts fields)
    rw [heq]
    exact balanced_braces hinner

theorem balanced_itemTexts : ∀ items : List Value, ∀ item ∈ items, Balanced item.text.toList
  | [] => fun _ hmem => nomatch hmem
  | first :: rest => List.forall_mem_cons.2 ⟨balanced_text first, balanced_itemTexts rest⟩

theorem balanced_memberTexts : ∀ fields : List (String × Value),
    ∀ field ∈ fields, Balanced field.2.text.toList
  | [] => fun _ hmem => nomatch hmem
  | (_, value) :: rest => List.forall_mem_cons.2 ⟨balanced_text value, balanced_memberTexts rest⟩

end

end Value

/-! ## Texts that are broken off -/

/-- **An object that is broken off is no object.**  What is left of the text has a bracket open, or
it is empty. -/
theorem not_documentText_of_broken_off {item : List Char → Value → Prop}
    (hitem : ∀ {text : List Char} {value : Value}, item text value → Balanced text)
    {printed read : Fields} {front : List Char}
    (hfront : front <+: (Value.text (.object printed)).toList)
    (hbroken : front ≠ (Value.text (.object printed)).toList) :
    ¬DocumentText (ObjectText item) front read := by
  intro h
  obtain ⟨inner, heq, hinner⟩ := Value.exists_inner_object (Value.balanced_memberTexts printed)
  rw [heq] at hfront hbroken
  rcases List.prefix_cons_iff.1 hfront with rfl | ⟨rest, rfl, hrest⟩
  · obtain ⟨text, hobject⟩ := h.exists_text
    generalize hnone : ([] : List Char) = whole at h
    cases h with
    | document _ hobject =>
      obtain ⟨more, rfl⟩ := hobject.exists_opening
      simp at hnone
  · rcases List.prefix_concat_iff.1 hrest with rfl | hrest
    · exact hbroken rfl
    -- the first bracket is still open where the front ends, but a text of the grammar closes it
    · have hend := (h.balanced (fun hobject => hobject.balanced hitem) 0).through_eq
      have hdepth := (hinner 1).depth_le rest hrest
      change (outside 1).through rest = outside 0 at hend
      rw [hend] at hdepth
      exact absurd hdepth (Nat.not_succ_le_zero 0)

end Json
end OpcodeTable
