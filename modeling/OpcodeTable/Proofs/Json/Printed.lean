import OpcodeTable.Proofs.Json.PrintedScalar
import OpcodeTable.Proofs.Json.Reading

/-!
# Printed values are read back

A value that was read can be printed and read again: what is printed is a text of the grammar, and
it stands for the value.  The exception are floating-point numbers, because the reader does not
round correctly: what is read again has the same shape, with whatever numbers the reader makes of
the texts of these, and it is the value itself only if they are among those that are read back from
their own text.  The nesting of a value is no deeper in its printed text than in the text that it
was read from.

## What is here

* `Readable depth`, the values that the reader gives, and `ValueText.readable`.
* `Value.text_array` and `Value.text_object`, the printed texts as items between brackets, and
  `itemsText_intercalate`, what such items are in the grammar.
* `Value.floats` and `Value.mapFloats`, and with them `valueText_mapFloats`, by induction on what is
  readable.
* `reread?` and `readsBack`, what the reader makes of a floating-point number, and `valueText_text`.
-/

set_option autoImplicit false

namespace OpcodeTable
namespace Json

variable {α β : Type}

/-! ## The values that the reader gives -/

/-- A value that the reader gives: integers have a numeral, names are different, and arrays and
objects are nested at most `depth` deep. -/
inductive Readable : Nat → Value → Prop
  | null {depth : Nat} : Readable depth .null
  | boolean {depth : Nat} (b : Bool) : Readable depth (.boolean b)
  | integer {depth : Nat} {n : Int} (h : InRange n) : Readable depth (.number (.integer n))
  | float {depth : Nat} (x : Binary64) : Readable depth (.number (.float x))
  | string {depth : Nat} (s : String) : Readable depth (.string s)
  | array {depth : Nat} {items : List Value} (h : ∀ item ∈ items, Readable depth item) :
      Readable (depth + 1) (.array items)
  | object {depth : Nat} {fields : Fields} (hnames : fields.names.Nodup)
      (h : ∀ field ∈ fields, Readable depth field.2) : Readable (depth + 1) (.object fields)

theorem Readable.names_nodup {depth : Nat} {fields : Fields}
    (h : Readable depth (.object fields)) : fields.names.Nodup := by
  cases h with
  | object hnames h => exact hnames

theorem ScalarText.readable {text : List Char} {value : Value} (h : ScalarText text value)
    (depth : Nat) : Readable depth value := by
  cases h with
  | null => exact .null
  | true | false => exact .boolean _
  | string => exact .string _
  | @number _ numeral number _ hvalue =>
    cases number with
    | integer n => exact .integer (inRange_of_number? hvalue)
    | float x => exact .float x

theorem ItemsText.exists_text {item : List Char → α → Prop} {text : List Char} {values : List α}
    (h : ItemsText item text values) : ∀ value ∈ values, ∃ front, item front value := by
  induction h with
  | last hvalue =>
    intro value hmem
    rw [List.mem_singleton.1 hmem]
    exact ⟨_, hvalue⟩
  | more hvalue _ _ _ ih =>
    intro value hmem
    rcases List.mem_cons.1 hmem with rfl | hmem
    · exact ⟨_, hvalue⟩
    · exact ih value hmem

theorem CollectionText.exists_text {opening closing : Char} {item : List Char → α → Prop}
    {text : List Char} {values : List α} (h : CollectionText opening closing item text values) :
    ∀ value ∈ values, ∃ front, item front value := by
  cases h with
  | empty => exact fun value hmem => nomatch hmem
  | items _ h => exact h.exists_text

/-- An object has different names, and the values are those that are written. -/
theorem ObjectText.exists_text {item : List Char → α → Prop} {text : List Char}
    {fields : Members α} (h : ObjectText item text fields) :
    fields.names.Nodup ∧ ∀ field ∈ fields, ∃ front, item front field.2 := by
  cases h with
  | braces h =>
    refine ⟨Members.nodup_names_collect _, fun field hmem => ?_⟩
    obtain ⟨front, hfield⟩ := h.exists_text field (Members.mem_of_mem_collect hmem)
    cases hfield with
    | member _ _ _ hvalue => exact ⟨_, hvalue⟩

theorem DocumentText.exists_text {item : List Char → α → Prop} {text : List Char} {value : α}
    (h : DocumentText item text value) : ∃ front, item front value := by
  cases h with
  | document _ h => exact ⟨_, h⟩

theorem ObjectText.readable {depth : Nat} {item : List Char → Value → Prop}
    (hitem : ∀ {text : List Char} {value : Value}, item text value → Readable depth value)
    {text : List Char} {fields : Fields} (h : ObjectText item text fields) :
    Readable (depth + 1) (.object fields) := by
  obtain ⟨hnames, hvalues⟩ := h.exists_text
  refine .object hnames fun field hmem => ?_
  obtain ⟨front, hvalue⟩ := hvalues field hmem
  exact hitem hvalue

/-- What is read is readable. -/
theorem ValueText.readable {depth : Nat} {text : List Char} {value : Value}
    (h : ValueText depth text value) : Readable depth value := by
  induction depth generalizing text value with
  | zero => exact ScalarText.readable h 0
  | succ depth ih =>
    cases h with
    | scalar h => exact h.readable _
    | array h =>
      refine .array fun item hmem => ?_
      obtain ⟨front, hitem⟩ := h.exists_text item hmem
      exact ih hitem
    | object h => exact h.readable ih

/-! ## The texts of arrays and objects -/

namespace Value

theorem text_number (n : Number) : text (.number n) = n.text := by
  simp [text, fragments]

theorem join_itemFragments (items : List Value) :
    String.join (itemFragments true items) = ",".intercalate (items.map text) := by
  induction items with
  | nil => rfl
  | cons first rest ih =>
    cases rest with
    | nil => simp [itemFragments, text]
    | cons second more =>
      have hcomma : String.join (itemFragments false (second :: more)) =
          "," ++ String.join (itemFragments true (second :: more)) := by
        simp [itemFragments]
      rw [List.map_cons, List.map_cons, String.intercalate_cons_cons, ← List.map_cons, ← ih,
        itemFragments, String.join_append, hcomma, text]
      simp [String.append_assoc]

/-- The items of an array stand between brackets, with commas between them. -/
theorem text_array (items : List Value) :
    text (.array items) = "[" ++ ",".intercalate (items.map text) ++ "]" := by
  rw [← join_itemFragments]
  simp [text, fragments, String.append_assoc]

/-- The text of a member. -/
def memberText (member : String × Value) : String :=
  text (.string member.1) ++ ":" ++ text member.2

theorem join_memberFragments (fields : Fields) :
    String.join (memberFragments true fields) = ",".intercalate (fields.map memberText) := by
  induction fields with
  | nil => rfl
  | cons first rest ih =>
    obtain ⟨name, value⟩ := first
    cases rest with
    | nil => simp [memberFragments, memberText, text, fragments, String.append_assoc]
    | cons second more =>
      have hcomma : String.join (memberFragments false (second :: more)) =
          "," ++ String.join (memberFragments true (second :: more)) := by
        simp [memberFragments]
      rw [List.map_cons, List.map_cons, String.intercalate_cons_cons, ← List.map_cons, ← ih,
        memberFragments, String.join_append, hcomma, memberText, text, text]
      simp [fragments, String.append_assoc]

/-- The members of an object stand between braces, with commas between them. -/
theorem text_object (fields : Fields) :
    text (.object fields) = "\x7b" ++ ",".intercalate (fields.map memberText) ++ "\x7d" := by
  rw [← join_memberFragments]
  simp [text, fragments, String.append_assoc]

end Value

/-! ## Items in the grammar -/

theorem blankText_nil : BlankText [] := by
  intro c hc
  cases hc

/-- Texts with commas between them are items. -/
theorem itemsText_intercalate {item : List Char → α → Prop} (write : β → String) (value : β → α)
    {items : List β} (h : ∀ x ∈ items, item (write x).toList (value x)) (hsome : items ≠ []) :
    ItemsText item (",".intercalate (items.map write)).toList (items.map value) := by
  induction items with
  | nil => exact absurd rfl hsome
  | cons first rest ih =>
    have hfirst := h first (List.mem_cons_self ..)
    cases rest with
    | nil =>
      have hlast := ItemsText.last hfirst blankText_nil
      rw [List.append_nil] at hlast
      rwa [List.map_singleton, List.map_singleton, String.intercalate_singleton]
    | cons second more =>
      have hrest := ih (fun x hx => h x (List.mem_cons_of_mem _ hx)) (by simp)
      have hall := ItemsText.more hfirst blankText_nil blankText_nil hrest
      rw [List.map_cons, List.map_cons, String.intercalate_cons_cons, ← List.map_cons,
        String.toList_append, String.toList_append, List.append_assoc]
      exact hall

/-- Between brackets they are a collection. -/
theorem collectionText_intercalate {opening closing : Char} {item : List Char → α → Prop}
    (write : β → String) (value : β → α) {items : List β}
    (h : ∀ x ∈ items, item (write x).toList (value x)) :
    CollectionText opening closing item
      (opening :: ((",".intercalate (items.map write)).toList ++ [closing])) (items.map value) := by
  by_cases hnone : items = []
  · subst hnone
    exact .empty blankText_nil
  · exact .items blankText_nil (itemsText_intercalate write value h hnone)

theorem memberText_text {item : List Char → α → Prop} {member : String × Value} {value : α}
    (h : item member.2.text.toList value) :
    MemberText item (Value.memberText member).toList (member.1, value) := by
  have hmember := MemberText.member (stringText_text member.1) blankText_nil blankText_nil h
  rw [Value.memberText, String.toList_append, String.toList_append, List.append_assoc]
  exact hmember

/-- The text of an object stands for what its members are put together to, if the texts of their
values stand for these values. -/
theorem objectText_map {item : List Char → α → Prop} {fields : Fields} (read : Value → α)
    (h : ∀ field ∈ fields, item field.2.text.toList (read field.2)) :
    ObjectText item (Value.text (.object fields)).toList
      (Members.collect (fields.map fun field => (field.1, read field.2))) := by
  have hall : ObjectText item _ _ := .braces (collectionText_intercalate Value.memberText
    (fun field => (field.1, read field.2)) fun field hmem => memberText_text (h field hmem))
  rw [Value.text_object, String.toList_append, String.toList_append, List.append_assoc]
  exact hall

/-- The special case of values that stand for themselves. -/
theorem objectText_text {item : List Char → Value → Prop} {fields : Fields}
    (h : ∀ field ∈ fields, item field.2.text.toList field.2) :
    ObjectText item (Value.text (.object fields)).toList (Members.collect fields) := by
  have hobject := objectText_map id h
  have hsame : (fields.map fun field => (field.1, id field.2)) = fields := List.map_id _
  rwa [hsame] at hobject

/-! ## Floating-point numbers -/

/-- What the reader makes of the text of a floating-point number, if it takes it for a number. -/
def reread? (x : Binary64) : Option Number :=
  match readValue (Number.text (.float x)) with
  | .ok (.number n) => some n
  | _ => none

theorem readValue_of_reread? {x : Binary64} {n : Number} (h : reread? x = some n) :
    readValue (Number.text (.float x)) = .ok (.number n) := by
  rw [reread?] at h
  split at h
  · next hread => rw [hread, Option.some_inj.1 h]
  · cases h

/-- Whether a floating-point number is read back from its own text. -/
def readsBack (x : Binary64) : Bool :=
  match readValue (Number.text (.float x)) with
  | .ok (.number (.float y)) => y = x
  | _ => false

theorem reread?_of_readsBack {x : Binary64} (h : readsBack x = true) :
    reread? x = some (.float x) := by
  rw [readsBack] at h
  split at h
  · next y hy => rw [reread?, hy, of_decide_eq_true h]
  · cases h

theorem BlankText.eq_nil {text : List Char} (h : BlankText text)
    (hnumber : ∀ c ∈ text, isNumberChar c = true) : text = [] := by
  cases text with
  | nil => rfl
  | cons c rest =>
    have hblank := h c (List.mem_cons_self ..)
    have hc := hnumber c (List.mem_cons_self ..)
    simp only [isBlank, Bool.or_eq_true, decide_eq_true_eq] at hblank
    rcases hblank with ((rfl | rfl) | rfl) | rfl <;> exact absurd hc (by decide)

/-- There are no blanks around the text of a number, so it is itself a scalar. -/
theorem scalarText_of_reread? {x : Binary64} {n : Number} (h : reread? x = some n) :
    ScalarText (Number.text (.float x)).toList (.number n) := by
  have hread := readValue_eq_ok_iff.1 (readValue_of_reread? h)
  have hchars := isNumberChar_text (.float x)
  generalize (Number.text (.float x)).toList = chars at hread hchars
  cases hread with
  | @document before text after _ hbefore htext hafter =>
    have hnone := hbefore.eq_nil fun c hc => hchars c (by simp [hc])
    have hnone' := hafter.eq_nil fun c hc => hchars c (by simp [hc])
    subst hnone hnone'
    rw [List.nil_append, List.append_nil]
    cases htext with
    | scalar htext => exact htext

namespace Value

mutual

/-- The floating-point numbers in a value. -/
def floats : Value → List Binary64
  | .number (.float x) => [x]
  | .array items => itemFloats items
  | .object members => memberFloats members
  | .null | .boolean _ | .number (.integer _) | .string _ => []

/-- The floating-point numbers in array items. -/
def itemFloats : List Value → List Binary64
  | [] => []
  | item :: rest => floats item ++ itemFloats rest

/-- The floating-point numbers in object members. -/
def memberFloats : List (String × Value) → List Binary64
  | [] => []
  | (_, value) :: rest => floats value ++ memberFloats rest

end

mutual

/-- The value with other numbers for its floating-point numbers. -/
def mapFloats (f : Binary64 → Number) : Value → Value
  | .number (.float x) => .number (f x)
  | .array items => .array (mapItemFloats f items)
  | .object members => .object (mapMemberFloats f members)
  | .null => .null
  | .boolean b => .boolean b
  | .number (.integer n) => .number (.integer n)
  | .string s => .string s

/-- The items with other numbers for their floating-point numbers. -/
def mapItemFloats (f : Binary64 → Number) : List Value → List Value
  | [] => []
  | item :: rest => mapFloats f item :: mapItemFloats f rest

/-- The members with other numbers for their floating-point numbers. -/
def mapMemberFloats (f : Binary64 → Number) : List (String × Value) → List (String × Value)
  | [] => []
  | (name, value) :: rest => (name, mapFloats f value) :: mapMemberFloats f rest

end

theorem mapItemFloats_eq_map (f : Binary64 → Number) (items : List Value) :
    mapItemFloats f items = items.map (mapFloats f) := by
  induction items with
  | nil => rfl
  | cons item rest ih => rw [mapItemFloats, ih, List.map_cons]

theorem mapMemberFloats_eq_map (f : Binary64 → Number) (fields : Fields) :
    mapMemberFloats f fields = fields.map fun field => (field.1, mapFloats f field.2) := by
  induction fields with
  | nil => rfl
  | cons field rest ih => rw [mapMemberFloats, ih, List.map_cons]

mutual

/-- Only the floating-point numbers in the value matter. -/
theorem mapFloats_congr {f g : Binary64 → Number} : ∀ value : Value,
    (∀ x ∈ floats value, f x = g x) → mapFloats f value = mapFloats g value
  | .number (.float x), h => congrArg Value.number (h x (List.mem_singleton.2 rfl))
  | .array items, h => congrArg Value.array (mapItemFloats_congr items h)
  | .object members, h => congrArg Value.object (mapMemberFloats_congr members h)
  | .null, _ | .boolean _, _ | .number (.integer _), _ | .string _, _ => rfl

theorem mapItemFloats_congr {f g : Binary64 → Number} : ∀ items : List Value,
    (∀ x ∈ itemFloats items, f x = g x) → mapItemFloats f items = mapItemFloats g items
  | [], _ => rfl
  | item :: rest, h =>
    have hall := List.forall_mem_append.1 h
    congrArg₂ List.cons (mapFloats_congr item hall.1) (mapItemFloats_congr rest hall.2)

theorem mapMemberFloats_congr {f g : Binary64 → Number} : ∀ members : List (String × Value),
    (∀ x ∈ memberFloats members, f x = g x) → mapMemberFloats f members = mapMemberFloats g members
  | [], _ => rfl
  | (name, value) :: rest, h =>
    have hall := List.forall_mem_append.1 h
    congrArg₂ List.cons (congrArg (Prod.mk name) (mapFloats_congr value hall.1))
      (mapMemberFloats_congr rest hall.2)

end

mutual

theorem mapFloats_float : ∀ value : Value, mapFloats .float value = value
  | .number (.float _) => rfl
  | .array items => congrArg Value.array (mapItemFloats_float items)
  | .object members => congrArg Value.object (mapMemberFloats_float members)
  | .null | .boolean _ | .number (.integer _) | .string _ => rfl

theorem mapItemFloats_float : ∀ items : List Value, mapItemFloats .float items = items
  | [] => rfl
  | item :: rest => congrArg₂ List.cons (mapFloats_float item) (mapItemFloats_float rest)

theorem mapMemberFloats_float : ∀ members : List (String × Value),
    mapMemberFloats .float members = members
  | [] => rfl
  | (name, value) :: rest =>
    congrArg₂ List.cons (congrArg (Prod.mk name) (mapFloats_float value))
      (mapMemberFloats_float rest)

end

theorem mem_itemFloats {items : List Value} {item : Value} (h : item ∈ items) {x : Binary64}
    (hx : x ∈ floats item) : x ∈ itemFloats items := by
  induction h with
  | head => exact List.mem_append_left _ hx
  | tail _ _ ih => exact List.mem_append_right _ ih

theorem mem_memberFloats {fields : Fields} {field : String × Value} (h : field ∈ fields)
    {x : Binary64} (hx : x ∈ floats field.2) : x ∈ memberFloats fields := by
  induction h with
  | head => exact List.mem_append_left _ hx
  | tail _ _ ih => exact List.mem_append_right _ ih

end Value

/-! ## Values -/

theorem ScalarText.valueText {text : List Char} {value : Value} (h : ScalarText text value)
    (depth : Nat) : ValueText depth text value := by
  cases depth with
  | zero => exact h
  | succ depth => exact NestedText.scalar h

/-- **The text of a readable value stands for a value of the same shape.**  It is the value itself
but for the floating-point numbers, of each of which the text must stand for a number. -/
theorem valueText_mapFloats {f : Binary64 → Number} {depth : Nat} {value : Value}
    (h : Readable depth value)
    (hfloats : ∀ x ∈ value.floats, ScalarText (Number.text (.float x)).toList (.number (f x))) :
    ValueText depth value.text.toList (value.mapFloats f) := by
  induction h with
  | null => exact ScalarText.null.valueText _
  | boolean b =>
    cases b with
    | false => exact ScalarText.false.valueText _
    | true => exact ScalarText.true.valueText _
  | integer h =>
    have hscalar := scalarText_integer h
    rw [← Value.text_number] at hscalar
    exact hscalar.valueText _
  | float x =>
    have hscalar := hfloats x (List.mem_singleton.2 rfl)
    rw [← Value.text_number] at hscalar
    exact hscalar.valueText _
  | string s => exact (ScalarText.string (stringText_text s)).valueText _
  | array _ ih =>
    have hitems : CollectionText '[' ']' _ _ _ := collectionText_intercalate Value.text
      (Value.mapFloats f) fun item hmem => ih item hmem fun x hx =>
        hfloats x (Value.mem_itemFloats hmem hx)
    rw [Value.text_array, String.toList_append, String.toList_append, List.append_assoc,
      Value.mapFloats, Value.mapItemFloats_eq_map]
    exact NestedText.array hitems
  | @object _ fields hnames _ ih =>
    have hfields := objectText_map (Value.mapFloats f) fun field hmem =>
      ih field hmem fun x hx => hfloats x (Value.mem_memberFloats hmem hx)
    rw [Members.collect_map, Members.collect_of_nodup hnames] at hfields
    rw [Value.mapFloats, Value.mapMemberFloats_eq_map]
    exact NestedText.object hfields

/-- The number that a floating-point number becomes when it is read from its own text. -/
def rereadNumber (x : Binary64) : Number :=
  (reread? x).getD (.float x)

/-- **The text of a readable value stands for the value**, if its floating-point numbers are read
back. -/
theorem valueText_text {depth : Nat} {value : Value} (h : Readable depth value)
    (hfloats : ∀ x ∈ value.floats, readsBack x = true) :
    ValueText depth value.text.toList value := by
  have hvalue := valueText_mapFloats (f := Number.float) h fun x hx =>
    scalarText_of_reread? (reread?_of_readsBack (hfloats x hx))
  rwa [Value.mapFloats_float] at hvalue

end Json
end OpcodeTable
