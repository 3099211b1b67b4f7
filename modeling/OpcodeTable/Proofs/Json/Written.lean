import OpcodeTable.Proofs.Json.Grammar

/-!
# JSON texts as they are written

The grammar of `ValueText` bounds the nesting of a text and gives its value while it goes along.
Here the three are taken apart: a text denotes a written value, which still has its numerals and all
of its members, however deep it is and whatever its numbers are; how deep it is nested, which
numerals occur in it and what it stands for are functions of the written value.  In the end they
come to the same thing.

## What is here

* `Written` and `WrittenText`, the JSON texts and what is written in them.
* `Written.nesting`, `Written.numerals` and `Written.value?`.
* `Written.isSome_value?_iff`, by which the numerals decide whether there is a value.
* `valueText_iff_written`, by induction on the nesting.
-/

set_option autoImplicit false

namespace OpcodeTable
namespace Json

/-- A value as it is written: a number is a numeral, and an object has all the members that are
written for it. -/
inductive Written where
  | null
  | boolean (b : Bool)
  | numeral (n : Numeral)
  | string (s : String)
  | array (items : List Written)
  | object (members : List (String × Written))

/-- A JSON text without blanks around it, and what is written in it. -/
inductive WrittenText : List Char → Written → Prop
  | null : WrittenText ['n', 'u', 'l', 'l'] .null
  | true : WrittenText ['t', 'r', 'u', 'e'] (.boolean true)
  | false : WrittenText ['f', 'a', 'l', 's', 'e'] (.boolean false)
  | numeral {text : List Char} {n : Numeral} (h : NumeralText text n) :
      WrittenText text (.numeral n)
  | string {text : List Char} {s : String} (h : StringText text s) : WrittenText text (.string s)
  | array {text : List Char} {items : List Written}
      (h : CollectionText '[' ']' WrittenText text items) : WrittenText text (.array items)
  | object {text : List Char} {members : List (String × Written)}
      (h : CollectionText '{' '}' (MemberText WrittenText) text members) :
      WrittenText text (.object members)

namespace Written

/-! ## Nesting -/

mutual

/-- How deep arrays and objects are nested. -/
def nesting : Written → Nat
  | .array items => itemsNesting items + 1
  | .object members => membersNesting members + 1
  | .null | .boolean _ | .numeral _ | .string _ => 0

/-- How deep the deepest item is nested. -/
def itemsNesting : List Written → Nat
  | [] => 0
  | item :: rest => max (nesting item) (itemsNesting rest)

/-- How deep the deepest member is nested. -/
def membersNesting : List (String × Written) → Nat
  | [] => 0
  | (_, value) :: rest => max (nesting value) (membersNesting rest)

end

/-! ## Numerals -/

mutual

/-- The numerals that are written. -/
def numerals : Written → List Numeral
  | .numeral n => [n]
  | .array items => itemNumerals items
  | .object members => memberNumerals members
  | .null | .boolean _ | .string _ => []

/-- The numerals that are written in items. -/
def itemNumerals : List Written → List Numeral
  | [] => []
  | item :: rest => numerals item ++ itemNumerals rest

/-- The numerals that are written in members. -/
def memberNumerals : List (String × Written) → List Numeral
  | [] => []
  | (_, value) :: rest => numerals value ++ memberNumerals rest

end

/-! ## Values -/

mutual

/-- What is meant, if every numeral has a value.  Of the members with one name an object keeps the
value of the last at the place of the first. -/
def value? : Written → Option Value
  | .null => some .null
  | .boolean b => some (.boolean b)
  | .numeral n => n.number?.map .number
  | .string s => some (.string s)
  | .array items => (itemValues? items).map .array
  | .object members => (memberValues? members).map fun values => .object values.lastOfEach

/-- What the items mean. -/
def itemValues? : List Written → Option (List Value)
  | [] => some []
  | item :: rest =>
    match value? item, itemValues? rest with
    | some value, some values => some (value :: values)
    | _, _ => none

/-- What the members mean, with those of one name kept apart. -/
def memberValues? : List (String × Written) → Option (Members Value)
  | [] => some []
  | (name, member) :: rest =>
    match value? member, memberValues? rest with
    | some value, some values => some ((name, value) :: values)
    | _, _ => none

end

mutual

/-- There is a value if and only if every numeral has one. -/
theorem isSome_value?_iff : ∀ written : Written,
    written.value?.isSome = true ↔ ∀ n ∈ written.numerals, n.number?.isSome = true
  | .null | .boolean _ | .string _ => by simp [value?, numerals]
  | .numeral n => by simp [value?, numerals]
  | .array items => by simpa [value?, numerals] using isSome_itemValues?_iff items
  | .object members => by simpa [value?, numerals] using isSome_memberValues?_iff members

theorem isSome_itemValues?_iff : ∀ items : List Written,
    (itemValues? items).isSome = true ↔ ∀ n ∈ itemNumerals items, n.number?.isSome = true
  | [] => by simp [itemValues?, itemNumerals]
  | item :: rest => by
    have hfirst := isSome_value?_iff item
    have hrest := isSome_itemValues?_iff rest
    rw [itemValues?, itemNumerals, List.forall_mem_append, ← hfirst, ← hrest]
    cases value? item <;> cases itemValues? rest <;> simp

theorem isSome_memberValues?_iff : ∀ members : List (String × Written),
    (memberValues? members).isSome = true ↔ ∀ n ∈ memberNumerals members, n.number?.isSome = true
  | [] => by simp [memberValues?, memberNumerals]
  | (name, member) :: rest => by
    have hfirst := isSome_value?_iff member
    have hrest := isSome_memberValues?_iff rest
    rw [memberValues?, memberNumerals, List.forall_mem_append, ← hfirst, ← hrest]
    cases value? member <;> cases memberValues? rest <;> simp

end

/-- If there is no value, some numeral has none. -/
theorem exists_numeral_of_valueless {written : Written} (h : written.value? = none) :
    ∃ n ∈ written.numerals, n.number? = none := by
  have hnot := mt (isSome_value?_iff written).2 (by simp [h])
  push Not at hnot
  simpa using hnot

/-! ## Items and members one by one -/

/-- The written value is nested at most `depth` deep and stands for the value. -/
def Means (depth : Nat) (written : Written) (value : Value) : Prop :=
  written.nesting ≤ depth ∧ written.value? = some value

/-- The written member stands for the member. -/
def MemberMeans (depth : Nat) (written : String × Written) (member : String × Value) : Prop :=
  written.1 = member.1 ∧ Means depth written.2 member.2

theorem forall₂_means_iff {depth : Nat} {items : List Written} {values : List Value} :
    List.Forall₂ (Means depth) items values ↔
      itemsNesting items ≤ depth ∧ itemValues? items = some values := by
  induction items generalizing values with
  | nil => simp [itemsNesting, itemValues?, eq_comm]
  | cons item rest ih =>
    rw [List.forall₂_cons_left_iff, itemsNesting, itemValues?, Nat.max_le]
    constructor
    · rintro ⟨value, values, ⟨hnesting, hvalue⟩, hrest, rfl⟩
      obtain ⟨hdeep, hvalues⟩ := ih.1 hrest
      exact ⟨⟨hnesting, hdeep⟩, by rw [hvalue, hvalues]⟩
    · rintro ⟨⟨hnesting, hdeep⟩, h⟩
      split at h
      · next value found hvalue hfound =>
        cases h
        exact ⟨value, found, ⟨hnesting, hvalue⟩, ih.2 ⟨hdeep, hfound⟩, rfl⟩
      · cases h

/-- An array means an array of what its items mean. -/
theorem means_array_iff {depth : Nat} {items : List Written} {value : Value} :
    Means (depth + 1) (.array items) value ↔
      ∃ values, List.Forall₂ (Means depth) items values ∧ value = .array values := by
  constructor
  · rintro ⟨hnesting, h⟩
    obtain ⟨values, hvalues, rfl⟩ := Option.map_eq_some_iff.1 h
    exact ⟨values, forall₂_means_iff.2 ⟨Nat.le_of_succ_le_succ hnesting, hvalues⟩, rfl⟩
  · rintro ⟨values, hall, rfl⟩
    obtain ⟨hdeep, hvalues⟩ := forall₂_means_iff.1 hall
    exact ⟨Nat.succ_le_succ hdeep, by rw [value?, hvalues, Option.map_some]⟩

theorem forall₂_memberMeans_iff {depth : Nat} {members : List (String × Written)}
    {values : Members Value} :
    List.Forall₂ (MemberMeans depth) members values ↔
      membersNesting members ≤ depth ∧ memberValues? members = some values := by
  induction members generalizing values with
  | nil => simp [membersNesting, memberValues?, eq_comm]
  | cons member rest ih =>
    obtain ⟨name, written⟩ := member
    rw [List.forall₂_cons_left_iff, membersNesting, memberValues?, Nat.max_le]
    constructor
    · rintro ⟨⟨_, value⟩, values, ⟨rfl, hnesting, hvalue⟩, hrest, rfl⟩
      obtain ⟨hdeep, hvalues⟩ := ih.1 hrest
      exact ⟨⟨hnesting, hdeep⟩, by rw [hvalue, hvalues]⟩
    · rintro ⟨⟨hnesting, hdeep⟩, h⟩
      split at h
      · next value found hvalue hfound =>
        cases h
        exact ⟨(name, value), found, ⟨rfl, hnesting, hvalue⟩, ih.2 ⟨hdeep, hfound⟩, rfl⟩
      · cases h

/-- An object means the object with the last value of each name. -/
theorem means_object_iff {depth : Nat} {members : List (String × Written)} {value : Value} :
    Means (depth + 1) (.object members) value ↔
      ∃ values : Members Value, List.Forall₂ (MemberMeans depth) members values ∧
        value = .object values.lastOfEach := by
  constructor
  · rintro ⟨hnesting, h⟩
    obtain ⟨values, hvalues, rfl⟩ := Option.map_eq_some_iff.1 h
    exact ⟨values, forall₂_memberMeans_iff.2 ⟨Nat.le_of_succ_le_succ hnesting, hvalues⟩, rfl⟩
  · rintro ⟨values, hall, rfl⟩
    obtain ⟨hdeep, hvalues⟩ := forall₂_memberMeans_iff.1 hall
    exact ⟨Nat.succ_le_succ hdeep, by rw [value?, hvalues, Option.map_some]⟩

end Written

open Written

/-! ## The two grammars -/

/-- The scalars of both grammars are the same. -/
theorem ScalarText.exists_written {text : List Char} {value : Value} (h : ScalarText text value)
    (depth : Nat) : ∃ written, WrittenText text written ∧ Means depth written value := by
  cases h with
  | null => exact ⟨_, .null, Nat.zero_le _, rfl⟩
  | true => exact ⟨_, .true, Nat.zero_le _, rfl⟩
  | false => exact ⟨_, .false, Nat.zero_le _, rfl⟩
  | string h => exact ⟨_, .string h, Nat.zero_le _, rfl⟩
  | number h hvalue => exact ⟨_, .numeral h, Nat.zero_le _, by rw [value?, hvalue]; rfl⟩

theorem WrittenText.scalarText {text : List Char} {written : Written} {value : Value}
    (h : WrittenText text written) (hflat : written.nesting = 0)
    (hvalue : written.value? = some value) : ScalarText text value := by
  cases h with
  | null | true | false =>
    cases hvalue
    constructor
  | string h =>
    cases hvalue
    exact .string h
  | numeral h =>
    obtain ⟨number, hnumber, rfl⟩ := Option.map_eq_some_iff.1 hvalue
    exact .number h hnumber
  | array => exact absurd hflat (Nat.succ_ne_zero _)
  | object => exact absurd hflat (Nat.succ_ne_zero _)

/-- **A text of the grammar is a JSON text that is not nested too deep and in which every numeral
has a value.** -/
theorem valueText_iff_written {depth : Nat} {text : List Char} {value : Value} :
    ValueText depth text value ↔
      ∃ written, WrittenText text written ∧ Means depth written value := by
  induction depth generalizing text value with
  | zero =>
    constructor
    · intro h
      exact ScalarText.exists_written h 0
    · rintro ⟨written, h, hnesting, hvalue⟩
      exact h.scalarText (Nat.le_zero.1 hnesting) hvalue
  | succ depth ih =>
    have hitem : ∀ text value, ValueText depth text value ↔
        ∃ written, WrittenText text written ∧ Means depth written value := fun _ _ => ih
    constructor
    · intro h
      cases h with
      | scalar h => exact h.exists_written _
      | array h =>
        obtain ⟨items, hitems, hall⟩ := (collectionText_iff hitem _ _).1 h
        exact ⟨.array items, .array hitems, means_array_iff.2 ⟨_, hall, rfl⟩⟩
      | object h =>
        cases h with
        | braces h =>
          obtain ⟨members, hmembers, hall⟩ := (collectionText_iff (memberText_iff hitem) _ _).1 h
          rw [Members.collect_eq_lastOfEach]
          exact ⟨.object members, .object hmembers, means_object_iff.2 ⟨_, hall, rfl⟩⟩
    · rintro ⟨written, h, hmeans⟩
      by_cases hflat : written.nesting = 0
      · exact .scalar (h.scalarText hflat hmeans.2)
      · cases h with
        | array hitems =>
          obtain ⟨values, hall, rfl⟩ := means_array_iff.1 hmeans
          exact .array ((collectionText_iff hitem _ _).2 ⟨_, hitems, hall⟩)
        | object hmembers =>
          obtain ⟨values, hall, rfl⟩ := means_object_iff.1 hmeans
          rw [← Members.collect_eq_lastOfEach]
          exact .object (.braces
            ((collectionText_iff (memberText_iff hitem) _ _).2 ⟨_, hmembers, hall⟩))
        | _ => exact absurd rfl hflat

theorem objectText_iff {depth : Nat} {text : List Char} {fields : Fields} :
    ObjectText (ValueText depth) text fields ↔ ValueText (depth + 1) text (.object fields) := by
  constructor
  · exact NestedText.object
  · intro h
    cases h with
    | scalar h => cases h
    | object h => exact h

end Json
end OpcodeTable
