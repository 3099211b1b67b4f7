import OpcodeTable.Proofs.Json.Reading
import OpcodeTable.Proofs.Json.Written

/-!
# What is wrong with a text that is well written

A text in which something is written, not too deep, may still have no value, because a numeral in
it has none.  Then that is what is reported: the reader gets as far as the first such numeral, since
everything before it is read, and says that the number is out of range.

## What is here

* `Parser.Decides`, by which a parser reads what has a meaning and stops at a number in everything
  else that is written.
* `Parser.items_refuse`, by induction on the items: those before the first one without a meaning are
  read.
* `Parser.decides_member`, `Parser.decides_value` and `Parser.decides_object`, along the way in
  which parsers are put together.
* `readObjects_of_valueless`, for a list of objects.
-/

set_option autoImplicit false

namespace OpcodeTable
namespace Json

open Written

variable {α γ ω : Type}

/-! ## What is written -/

theorem WrittenText.begins {text : List Char} {written : Written} (h : WrittenText text written) :
    Begins text := by
  cases h with
  | null | true | false => exact ⟨_, _, rfl, by decide, by decide, by decide⟩
  | string h => exact h.begins
  | numeral h => exact h.begins
  | array h | object h =>
    obtain ⟨rest, rfl⟩ := h.exists_opening
    exact ⟨_, _, rfl, by decide, by decide, by decide⟩

/-- A text in which something is written that is nested at most `depth` deep. -/
def FlatText (depth : Nat) (text : List Char) (written : Written) : Prop :=
  WrittenText text written ∧ written.nesting ≤ depth

namespace Written

theorem itemsNesting_le_iff {depth : Nat} {items : List Written} :
    itemsNesting items ≤ depth ↔ ∀ item ∈ items, item.nesting ≤ depth := by
  induction items with
  | nil => simp [itemsNesting]
  | cons item rest ih => rw [itemsNesting, Nat.max_le, List.forall_mem_cons, ih]

theorem membersNesting_le_iff {depth : Nat} {members : List (String × Written)} :
    membersNesting members ≤ depth ↔ ∀ member ∈ members, member.2.nesting ≤ depth := by
  induction members with
  | nil => simp [membersNesting]
  | cons member rest ih =>
    obtain ⟨name, value⟩ := member
    rw [membersNesting, Nat.max_le, List.forall_mem_cons, ih]

theorem itemValues?_eq_none_iff {items : List Written} :
    itemValues? items = none ↔ ∃ item ∈ items, item.value? = none := by
  induction items with
  | nil => simp [itemValues?]
  | cons item rest ih =>
    rw [itemValues?, List.exists_mem_cons_iff, ← ih]
    cases value? item <;> cases itemValues? rest <;> simp

theorem memberValues?_eq_none_iff {members : List (String × Written)} :
    memberValues? members = none ↔ ∃ member ∈ members, member.2.value? = none := by
  induction members with
  | nil => simp [memberValues?]
  | cons member rest ih =>
    obtain ⟨name, value⟩ := member
    rw [memberValues?, List.exists_mem_cons_iff, ← ih]
    cases value? value <;> cases memberValues? rest <;> simp

end Written

theorem flatText_of_array {depth : Nat} {text : List Char} {items : List Written}
    (h : CollectionText '[' ']' WrittenText text items) (hdeep : itemsNesting items ≤ depth) :
    CollectionText '[' ']' (FlatText depth) text items := by
  have hitem : ∀ text written, FlatText depth text written ↔
      ∃ found, WrittenText text found ∧ found = written ∧ written.nesting ≤ depth := by
    simp [FlatText]
  refine (collectionText_iff hitem _ _).2 ⟨items, h, List.forall₂_same.2 fun item hmem => ?_⟩
  exact ⟨rfl, itemsNesting_le_iff.1 hdeep item hmem⟩

theorem flatText_of_object {depth : Nat} {text : List Char} {members : List (String × Written)}
    (h : CollectionText '{' '}' (MemberText WrittenText) text members)
    (hdeep : membersNesting members ≤ depth) :
    CollectionText '{' '}' (MemberText (FlatText depth)) text members := by
  have hitem : ∀ text written, FlatText depth text written ↔
      ∃ found, WrittenText text found ∧ found = written ∧ written.nesting ≤ depth := by
    simp [FlatText]
  refine (collectionText_iff (memberText_iff hitem) _ _).2
    ⟨members, h, List.forall₂_same.2 fun member hmem => ?_⟩
  exact ⟨rfl, rfl, membersNesting_le_iff.1 hdeep member hmem⟩

namespace Parser

/-- The reading ends at a number that is too large. -/
def Overflows (reading : Reading α) : Prop :=
  ∃ unread, reading = .error ⟨.numberOutOfRange, unread⟩

/-- The parser reads what is written if it has a meaning, and ends at a number that is too large if
it has none. -/
structure Decides (parser : Parser α) (item : List Char → ω → Prop) (meaning : ω → Option α) :
    Prop where
  begins : ∀ {text : List Char} {written : ω}, item text written → Begins text
  accepts : ∀ {blank front rest : List Char} {written : ω} {value : α}, BlankText blank →
    item front written → meaning written = some value → Ends rest →
    parser.run (blank ++ (front ++ rest)) = .ok (value, rest)
  refuses : ∀ {blank front rest : List Char} {written : ω}, BlankText blank →
    item front written → meaning written = none → Ends rest →
    Overflows (parser.run (blank ++ (front ++ rest)))

/-! ## Collections -/

section Collections

variable {brackets : Brackets} {parser : Parser α} {join : γ → α → γ}
  {item : List Char → ω → Prop} {meaning : ω → Option α}

/-- No item is read behind one that is not. -/
theorem items_of_overflow {text : List Char} (h : Overflows (parser.run text)) (before : γ) :
    Overflows (items brackets parser join before text) := by
  obtain ⟨unread, hunread⟩ := h
  refine ⟨unread, ?_⟩
  rw [items]
  split
  · next fault hfault =>
    rw [hunread] at hfault
    cases hfault
    rfl
  · next found after hfound =>
    rw [hunread] at hfound
    cases hfound

/-- Items are read up to the first one without a meaning. -/
theorem items_refuse (hdecides : Decides parser item meaning)
    (hclose : brackets.close = ']' ∨ brackets.close = '}') {front : List Char} {values : List ω}
    (h : ItemsText item front values) (hnone : ∃ value ∈ values, meaning value = none)
    {blank : List Char} (hblank : BlankText blank) (before : γ) (rest : List Char) :
    Overflows (items brackets parser join before (blank ++ (front ++ brackets.close :: rest))) := by
  induction h generalizing blank before with
  | @last text after value hvalue hafter =>
    obtain ⟨_, hmem, hbad⟩ := hnone
    rw [List.mem_singleton.1 hmem] at hbad
    have hends : Ends (brackets.close :: rest) := by
      rcases hclose with hc | hc <;> rw [hc] <;> exact ends_cons (by decide) rest
    rw [List.append_assoc]
    exact items_of_overflow (hdecides.refuses hblank hvalue hbad (hends.append_blank hafter)) before
  | @more text after gap others value values hvalue hafter hgap hothers ih =>
    have hcomma : after ++ ',' :: (gap ++ others) ++ brackets.close :: rest =
        after ++ ',' :: (gap ++ (others ++ brackets.close :: rest)) := by simp
    have hends : Ends (after ++ ',' :: (gap ++ (others ++ brackets.close :: rest))) :=
      Ends.append_blank (ends_cons (by decide) _) hafter
    have hbegins := (hothers.begins hdecides.begins).append (brackets.close :: rest)
    rw [List.append_assoc, hcomma]
    cases hmeaning : meaning value with
    | none => exact items_of_overflow (hdecides.refuses hblank hvalue hmeaning hends) before
    | some meant =>
      have hitem := hdecides.accepts hblank hvalue hmeaning hends
      rw [items_of_more hclose hitem hafter hgap hbegins]
      refine ih ?_ hgap (join before meant)
      rcases List.exists_mem_cons_iff _ _ _ |>.1 hnone with hbad | hbad
      · rw [hmeaning] at hbad
        cases hbad
      · exact hbad

theorem collection_refuse (hdecides : Decides parser item meaning)
    (hclose : brackets.close = ']' ∨ brackets.close = '}') {opening : Char} {front : List Char}
    {values : List ω} (h : CollectionText opening brackets.close item (opening :: front) values)
    (hnone : ∃ value ∈ values, meaning value = none) (empty : γ) (rest : List Char) :
    Overflows (collection brackets parser join empty (front ++ rest)) := by
  cases h with
  | empty hblank =>
    obtain ⟨_, hmem, -⟩ := hnone
    cases hmem
  | @items gap front values hgap hfront =>
    have hbegins := (hfront.begins hdecides.begins).append (brackets.close :: rest)
    have hread : Overflows (items brackets parser join empty
        ([] ++ (front ++ brackets.close :: rest))) :=
      items_refuse hdecides hclose hfront hnone (by simp [BlankText]) empty rest
    rw [List.append_assoc, List.append_assoc, List.singleton_append, collection,
      skipBlank_append hgap, hbegins.skipBlank_eq]
    obtain ⟨d, more, hmore, hd⟩ := exists_ne_close hclose hbegins
    rw [List.nil_append, hmore] at hread
    rw [hmore]
    simpa only [if_neg hd] using hread

end Collections

variable {parser : Parser α} {item : List Char → ω → Prop} {meaning : ω → Option α}

theorem elements_refuse (hdecides : Decides parser item meaning) {front : List Char}
    {values : List ω} (h : CollectionText '[' ']' item ('[' :: front) values)
    (hnone : ∃ value ∈ values, meaning value = none) (rest : List Char) :
    Overflows (elements parser (front ++ rest)) := by
  obtain ⟨unread, hunread⟩ : Overflows (collection .array parser
      (fun before value => value :: before) [] (front ++ rest)) :=
    collection_refuse hdecides (.inl rfl) h hnone [] rest
  exact ⟨unread, by simp only [elements, hunread]⟩

/-- A member is decided with its value. -/
theorem decides_member (hdecides : Decides parser item meaning) :
    Decides (member parser) (MemberText item)
      (fun written => (meaning written.2).map fun value => (written.1, value)) where
  begins h := h.begins
  accepts := by
    intro blank front rest written value hblank h hmeaning hends
    obtain ⟨meant, hmeant, rfl⟩ := Option.map_eq_some_iff.1 hmeaning
    cases h with
    | @member nameText afterName gap valueText name found hname hafterName hgap hfound =>
      have hsplit : nameText ++ (afterName ++ ':' :: (gap ++ valueText)) ++ rest =
          nameText ++ (afterName ++ ':' :: (gap ++ (valueText ++ rest))) := by simp
      change memberOf parser _ = _
      rw [hsplit, memberOf_eq hblank hname hafterName, hdecides.accepts hgap hfound hmeant hends]
  refuses := by
    intro blank front rest written hblank h hmeaning hends
    cases h with
    | @member nameText afterName gap valueText name found hname hafterName hgap hfound =>
      have hsplit : nameText ++ (afterName ++ ':' :: (gap ++ valueText)) ++ rest =
          nameText ++ (afterName ++ ':' :: (gap ++ (valueText ++ rest))) := by simp
      obtain ⟨unread, hunread⟩ :=
        hdecides.refuses hgap hfound (Option.map_eq_none_iff.1 hmeaning) hends
      change Overflows (memberOf parser _)
      rw [hsplit, memberOf_eq hblank hname hafterName, hunread]
      exact ⟨unread, rfl⟩

theorem members_refuse (hdecides : Decides parser item meaning) {front : List Char}
    {written : List (String × ω)}
    (h : CollectionText '{' '}' (MemberText item) ('{' :: front) written)
    (hnone : ∃ member ∈ written, meaning member.2 = none) (rest : List Char) :
    Overflows (members parser (front ++ rest)) := by
  obtain ⟨member, hmem, hbad⟩ := hnone
  exact collection_refuse (decides_member hdecides) (.inr rfl) h
    ⟨member, hmem, Option.map_eq_none_iff.2 hbad⟩ [] rest

/-! ## Values -/

theorem number_refuse {negative : Bool} {front : List Char} {n : Numeral}
    (h : UnsignedText negative front n) (hvalue : n.number? = none) {rest : List Char}
    (hrest : Ends rest) : Overflows (number negative (front ++ rest)) := by
  simp only [number, numeral_complete h hrest, hvalue]
  exact ⟨_, rfl⟩

/-- A numeral without a value is read to its end, and is too large then. -/
theorem scalar_refuse {front : List Char} {n : Numeral} (h : NumeralText front n)
    (hvalue : n.number? = none) {rest : List Char} (hrest : Ends rest) :
    Overflows (scalar (front ++ rest)) := by
  cases h with
  | minus h =>
    obtain ⟨unread, hunread⟩ := number_refuse h hvalue hrest
    exact ⟨unread, by simp [scalar, hunread]⟩
  | plus h =>
    obtain ⟨unread, hunread⟩ := number_refuse h hvalue hrest
    obtain ⟨c, more, rfl, hc⟩ := h.exists_digit
    have hne : ∀ d : Char, d.isDigit = false → c ≠ d := by
      rintro d hd rfl
      rw [hd] at hc
      cases hc
    rw [List.cons_append] at hunread ⊢
    exact ⟨unread, by
      simp [scalar, hne 'n' rfl, hne 't' rfl, hne 'f' rfl, hne '"' rfl, hne '-' rfl, hc, hunread]⟩

/-- At any depth. -/
theorem valueOf_refuse {item : Option (Parser Value)} {blank front rest : List Char} {n : Numeral}
    (hblank : BlankText blank) (h : NumeralText front n) (hvalue : n.number? = none)
    (hrest : Ends rest) : Overflows (valueOf item (blank ++ (front ++ rest))) := by
  obtain ⟨unread, hunread⟩ := scalar_refuse h hvalue hrest
  obtain ⟨c, more, hfront, -⟩ := id (h.begins.append rest)
  have hskip := (h.begins.append rest).skipBlank_eq
  rw [hfront] at hunread hskip
  have hopening : c ≠ '[' ∧ c ≠ '{' := by
    constructor <;>
    · rintro rfl
      simp [scalar, Fault.at] at hunread
  refine ⟨unread, ?_⟩
  rw [hfront, valueOf, skipBlank_append hblank, hskip]
  simp only [hopening.1, hopening.2, or_self, if_false, hunread]

theorem accepts_value {depth : Nat} {blank front rest : List Char} {written : Written}
    {result : Value} (hblank : BlankText blank) (h : FlatText depth front written)
    (hmeaning : written.value? = some result) (hends : Ends rest) :
    (value depth).run (blank ++ (front ++ rest)) = .ok (result, rest) :=
  (reads_value depth).complete hblank (valueText_iff_written.2 ⟨_, h.1, h.2, hmeaning⟩) hends

/-- A value is decided at the depth that it is nested at most. -/
theorem decides_value (depth : Nat) : Decides (value depth) (FlatText depth) value? where
  begins h := h.1.begins
  accepts := accepts_value
  refuses := by
    induction depth with
    | zero =>
      rintro blank front rest written hblank ⟨h, hflat⟩ hmeaning hends
      cases h with
      | numeral h =>
        change Overflows (valueOf none _)
        exact valueOf_refuse hblank h (Option.map_eq_none_iff.1 hmeaning) hends
      | null | true | false | string => cases hmeaning
      | array | object => exact absurd hflat (Nat.not_succ_le_zero _)
    | succ depth ih =>
      rintro blank front rest written hblank ⟨h, hdeep⟩ hmeaning hends
      have hdecides : Decides (value depth) (FlatText depth) value? :=
        ⟨fun h => h.1.begins, accepts_value, ih⟩
      change Overflows (valueOf (some (value depth)) _)
      cases h with
      | numeral h => exact valueOf_refuse hblank h (Option.map_eq_none_iff.1 hmeaning) hends
      | null | true | false | string => cases hmeaning
      | array h =>
        obtain ⟨more, rfl⟩ := h.exists_opening
        have hitems := flatText_of_array h (Nat.le_of_succ_le_succ hdeep)
        have hnone := itemValues?_eq_none_iff.1 (Option.map_eq_none_iff.1 hmeaning)
        obtain ⟨unread, hunread⟩ := elements_refuse hdecides hitems hnone rest
        rw [valueOf, skipBlank_append hblank]
        exact ⟨unread, by simp [skipBlank, isBlank, hunread]⟩
      | object h =>
        obtain ⟨more, rfl⟩ := h.exists_opening
        have hmembers := flatText_of_object h (Nat.le_of_succ_le_succ hdeep)
        have hnone := memberValues?_eq_none_iff.1 (Option.map_eq_none_iff.1 hmeaning)
        obtain ⟨unread, hunread⟩ := members_refuse hdecides hmembers hnone rest
        rw [valueOf, skipBlank_append hblank]
        exact ⟨unread, by simp [skipBlank, isBlank, hunread]⟩

/-- An object that is written has fields if every numeral in it has a value. -/
theorem decides_object (depth : Nat) :
    Decides (object (value depth))
      (fun text (members : List (String × Written)) => FlatText (depth + 1) text (.object members))
      (fun members => (memberValues? members).map Members.lastOfEach) where
  begins h := h.1.begins
  accepts := by
    rintro blank front rest members fields hblank ⟨h, hdeep⟩ hmeaning hends
    have hvalue : (Written.object members).value? = some (.object fields) := by
      obtain ⟨values, hvalues, rfl⟩ := Option.map_eq_some_iff.1 hmeaning
      rw [value?, hvalues, Option.map_some]
    have hobject : ObjectText (ValueText depth) front fields :=
      objectText_iff.2 (valueText_iff_written.2 ⟨_, h, hdeep, hvalue⟩)
    exact (reads_object (reads_value depth)).complete hblank hobject hends
  refuses := by
    rintro blank front rest members hblank ⟨h, hdeep⟩ hmeaning hends
    cases h with
    | object h =>
      obtain ⟨more, rfl⟩ := h.exists_opening
      have hmembers := flatText_of_object h (Nat.le_of_succ_le_succ hdeep)
      have hnone := memberValues?_eq_none_iff.1 (Option.map_eq_none_iff.1 hmeaning)
      change Overflows (objectOf _ _)
      rw [objectOf, skipBlank_append hblank]
      exact members_refuse (decides_value depth) hmembers hnone rest

/-! ## Documents -/

theorem list_refuse (hdecides : Decides parser item meaning) {blank front : List Char}
    {values : List ω} (hblank : BlankText blank) (h : CollectionText '[' ']' item front values)
    (hnone : ∃ value ∈ values, meaning value = none) (rest : List Char) :
    Overflows ((list parser).run (blank ++ (front ++ rest))) := by
  obtain ⟨more, rfl⟩ := h.exists_opening
  change Overflows (listOf _ _)
  rw [listOf, skipBlank_append hblank]
  exact elements_refuse hdecides h hnone rest

theorem document_refuse {text : String} {written : ω} (h : DocumentText item text.toList written)
    (hrefuses : ∀ {blank front : List Char}, BlankText blank → item front written →
      ∀ rest, Overflows (parser.run (blank ++ (front ++ rest)))) :
    ∃ fault, document parser text = .error fault ∧ fault.reason = .numberOutOfRange := by
  obtain ⟨unread, hunread⟩ : Overflows (parser.run text.toList) := by
    generalize text.toList = chars at h
    cases h with
    | document hbefore h _ => exact hrefuses hbefore h _
  refine ⟨Fault.locate text ⟨.numberOutOfRange, unread⟩, ?_, rfl⟩
  simp only [document, whole, hunread]

end Parser

/-- **If only numbers are wrong with a list of objects, one of them is what is reported.**  If an
array of objects is written, not too deep, and has no value, then what is reported is a number that
is out of range. -/
theorem readObjects_of_valueless {text : String} {items : List Written}
    (hdocument : DocumentText WrittenText text.toList (.array items))
    (hobjects : ∀ item ∈ items, ∃ members, item = .object members)
    (hnesting : (Written.array items).nesting ≤ 127) (hnone : (Written.array items).value? = none) :
    ∃ fault, readObjects text = .error fault ∧ fault.reason = .numberOutOfRange := by
  have hdeep := itemsNesting_le_iff.1 (Nat.le_of_succ_le_succ hnesting)
  obtain ⟨_, hmem, hvalueless⟩ := itemValues?_eq_none_iff.1 (Option.map_eq_none_iff.1 hnone)
  choose! members hmembers using hobjects
  have hitem : ∀ (text : List Char) (list : List (String × Written)),
      FlatText 126 text (.object list) ↔ ∃ found, WrittenText text found ∧
        found = .object list ∧ (Written.object list).nesting ≤ 126 := by
    simp [FlatText]
  refine Parser.document_refuse hdocument fun hblank h rest => ?_
  cases h with
  | array h =>
    have hlists := (collectionText_iff hitem _ (items.map members)).2
      ⟨items, h, List.forall₂_map_right_iff.2 (List.forall₂_same.2 fun item hitem =>
        ⟨hmembers item hitem, hmembers item hitem ▸ hdeep item hitem⟩)⟩
    refine Parser.list_refuse (Parser.decides_object 125) hblank hlists
      ⟨_, List.mem_map_of_mem hmem, ?_⟩ rest
    rw [hmembers _ hmem, value?, Option.map_eq_none_iff] at hvalueless
    rw [hvalueless, Option.map_none]

end Json
end OpcodeTable
