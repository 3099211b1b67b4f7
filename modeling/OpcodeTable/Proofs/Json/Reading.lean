import OpcodeTable.Proofs.Json.Numeral
import OpcodeTable.Proofs.Json.Quoted

/-!
# The parser reads the grammar

`Parser.Reads` says of a parser and of a kind of text that the parser reads these texts and no
others.  It is proved of one parser from the other, along the way in which they are put together;
the readers of values are reached by induction on the nesting.

## What is here

* `Parser.items_sound` and `Parser.items_complete` for the loop over the items of a collection, from
  which `Parser.collection_eq_ok_iff` follows.
* `Parser.reads_list`, `Parser.reads_member`, `Parser.reads_object` and `Parser.reads_value`.
* `readObject_eq_ok_iff` and its companions for whole documents.
-/

set_option autoImplicit false

namespace OpcodeTable
namespace Json

variable {α γ : Type}

/-! ## Blanks -/

theorem skipBlank_append {blank : List Char} (h : BlankText blank) (text : List Char) :
    skipBlank (blank ++ text) = skipBlank text :=
  List.dropWhile_append_of_pos h

theorem exists_blank (text : List Char) :
    ∃ blank, text = blank ++ skipBlank text ∧ BlankText blank :=
  ⟨text.takeWhile isBlank, List.takeWhile_append_dropWhile.symm,
    List.all_eq_true.1 List.all_takeWhile⟩

theorem Begins.skipBlank_eq {text : List Char} (h : Begins text) : skipBlank text = text := by
  obtain ⟨c, rest, rfl, hc, -⟩ := h
  exact List.dropWhile_cons_of_neg (by rw [hc]; exact Bool.false_ne_true)

theorem skipBlank_blank {blank : List Char} (h : BlankText blank) : skipBlank blank = [] := by
  have := skipBlank_append h []
  rwa [List.append_nil] at this

namespace Parser

/-- The parser reads the texts of a kind, behind blanks and as far as they go, and reads nothing
else. -/
structure Reads (parser : Parser α) (item : List Char → α → Prop) : Prop where
  begins : ∀ {text : List Char} {value : α}, item text value → Begins text
  sound : ∀ {text rest : List Char} {value : α}, parser.run text = .ok (value, rest) →
    ∃ blank front, text = blank ++ (front ++ rest) ∧ BlankText blank ∧ item front value
  complete : ∀ {blank front rest : List Char} {value : α}, BlankText blank → item front value →
    Ends rest → parser.run (blank ++ (front ++ rest)) = .ok (value, rest)

/-! ## Collections -/

section Collections

variable {brackets : Brackets} {parser : Parser α} {join : γ → α → γ}
  {item : List Char → α → Prop}

/-- The end of a collection is not blank. -/
theorem skipBlank_close (hclose : brackets.close = ']' ∨ brackets.close = '}')
    (rest : List Char) : skipBlank (brackets.close :: rest) = brackets.close :: rest := by
  rcases hclose with hc | hc <;> rw [hc] <;> rfl

/-- No item begins with the end of the collection. -/
theorem exists_ne_close (hclose : brackets.close = ']' ∨ brackets.close = '}')
    {text : List Char} (h : Begins text) : ∃ c more, text = c :: more ∧ c ≠ brackets.close := by
  obtain ⟨c, more, heq, -, hbracket, hbrace⟩ := h
  refine ⟨c, more, heq, ?_⟩
  rcases hclose with hc | hc <;> rw [hc] <;> assumption

/-- An item with the closing bracket behind it is the last one. -/
theorem items_of_close {before : γ} {text rest more : List Char} {value : α}
    (hitem : parser.run text = .ok (value, rest))
    (hrest : skipBlank rest = brackets.close :: more) :
    items brackets parser join before text = .ok (join before value, more) := by
  rw [items]
  split
  · next fault hfault =>
    rw [hitem] at hfault
    cases hfault
  · next found after hfound =>
    rw [hitem] at hfound
    cases hfound
    split
    · next hnone =>
      rw [hrest] at hnone
      cases hnone
    · next c others hsome =>
      rw [hrest] at hsome
      cases hsome
      rw [if_pos rfl]

/-- An item with a comma behind it is followed by another one. -/
theorem items_of_comma {before : γ} {text rest more others : List Char} {value : α} {d : Char}
    (hitem : parser.run text = .ok (value, rest)) (hrest : skipBlank rest = ',' :: more)
    (hcomma : ',' ≠ brackets.close) (hmore : skipBlank more = d :: others)
    (hd : d ≠ brackets.close) :
    items brackets parser join before text =
      items brackets parser join (join before value) more := by
  rw [items]
  split
  · next fault hfault =>
    rw [hitem] at hfault
    cases hfault
  · next found after hfound =>
    rw [hitem] at hfound
    cases hfound
    split
    · next hnone =>
      rw [hrest] at hnone
      cases hnone
    · next c rear hsome =>
      rw [hrest] at hsome
      cases hsome
      rw [if_neg hcomma, if_pos rfl]
      simp only [hmore, if_neg hd]

/-- So it is whatever blanks stand around the comma. -/
theorem items_of_more (hclose : brackets.close = ']' ∨ brackets.close = '}') {before : γ}
    {text after gap others : List Char} {value : α}
    (hitem : parser.run text = .ok (value, after ++ ',' :: (gap ++ others)))
    (hafter : BlankText after) (hgap : BlankText gap) (hothers : Begins others) :
    items brackets parser join before text =
      items brackets parser join (join before value) (gap ++ others) := by
  have hcomma : skipBlank (after ++ ',' :: (gap ++ others)) = ',' :: (gap ++ others) :=
    skipBlank_append hafter _
  have hnext : skipBlank (gap ++ others) = others := by
    rw [skipBlank_append hgap, hothers.skipBlank_eq]
  obtain ⟨d, more, hmore, hd⟩ := exists_ne_close hclose hothers
  have hother : ',' ≠ brackets.close := by
    rcases hclose with hc | hc <;> rw [hc] <;> decide
  exact items_of_comma hitem hcomma hother (hnext.trans hmore) hd

/-- What is read up to the closing bracket are items. -/
theorem items_sound (hreads : Reads parser item) {before all : γ} {text rest : List Char}
    (h : items brackets parser join before text = .ok (all, rest)) :
    ∃ blank front values, text = blank ++ (front ++ brackets.close :: rest) ∧
      BlankText blank ∧ ItemsText item front values ∧ all = values.foldl join before := by
  fun_induction items brackets parser join before text with
  | case1 | case2 | case4 | case5 | case7 => cases h
  | case3 before text value after hitem more hafter =>
    obtain ⟨blank, front, rfl, hblank, hfront⟩ := hreads.sound hitem
    obtain ⟨behind, hbehind, hbehindBlank⟩ := exists_blank after
    cases h
    refine ⟨blank, front ++ behind, [value], ?_, hblank, .last hfront hbehindBlank, rfl⟩
    rw [List.append_assoc, ← hafter, ← hbehind]
  | case6 before text value after hitem more d others hmore hd hafter hclose ih =>
    obtain ⟨blank, front, rfl, hblank, hfront⟩ := hreads.sound hitem
    obtain ⟨behind, hbehind, hbehindBlank⟩ := exists_blank after
    obtain ⟨gap, rear, values, rfl, hgap, hrear, rfl⟩ := ih h
    refine ⟨blank, front ++ (behind ++ ',' :: (gap ++ rear)), value :: values, ?_, hblank,
      .more hfront hbehindBlank hgap hrear, rfl⟩
    rw [hafter] at hbehind
    rw [hbehind]
    simp only [List.append_assoc, List.cons_append]

/-- Items are read up to the closing bracket. -/
theorem items_complete (hreads : Reads parser item)
    (hclose : brackets.close = ']' ∨ brackets.close = '}') {front : List Char} {values : List α}
    (h : ItemsText item front values) {blank : List Char} (hblank : BlankText blank) (before : γ)
    (rest : List Char) :
    items brackets parser join before (blank ++ (front ++ brackets.close :: rest)) =
      .ok (values.foldl join before, rest) := by
  have hends : Ends (brackets.close :: rest) := by
    rcases hclose with hc | hc <;> rw [hc] <;> exact ends_cons (by decide) rest
  induction h generalizing blank before with
  | last hvalue hafter =>
    rw [List.append_assoc]
    exact items_of_close (hreads.complete hblank hvalue (hends.append_blank hafter))
      ((skipBlank_append hafter _).trans (skipBlank_close hclose rest))
  | @more text after gap others value values hvalue hafter hgap hothers ih =>
    have hcomma : after ++ ',' :: (gap ++ others) ++ brackets.close :: rest =
        after ++ ',' :: (gap ++ (others ++ brackets.close :: rest)) := by simp
    have hcommaEnds : Ends (after ++ ',' :: (gap ++ (others ++ brackets.close :: rest))) :=
      Ends.append_blank (ends_cons (by decide) _) hafter
    have hitem := hreads.complete hblank hvalue hcommaEnds
    have hbegins := (hothers.begins hreads.begins).append (brackets.close :: rest)
    rw [List.append_assoc, hcomma, items_of_more hclose hitem hafter hgap hbegins,
      ih hgap (join before value), List.foldl_cons]

/-- The items of a collection are read up to the closing bracket. -/
theorem collection_eq_ok_iff (hreads : Reads parser item)
    (hclose : brackets.close = ']' ∨ brackets.close = '}') (opening : Char) {empty all : γ}
    {text rest : List Char} :
    collection brackets parser join empty text = .ok (all, rest) ↔
      ∃ front values, text = front ++ rest ∧
        CollectionText opening brackets.close item (opening :: front) values ∧
        all = values.foldl join empty := by
  constructor
  · intro h
    obtain ⟨blank, hsplit, hblank⟩ := exists_blank text
    rw [collection] at h
    split at h
    · cases h
    · next c more hmore =>
      rw [hmore] at hsplit
      split at h
      · next hc =>
        cases h
        refine ⟨blank ++ [brackets.close], [], ?_, .empty hblank, rfl⟩
        rw [hsplit, hc, List.append_assoc, List.singleton_append]
      · obtain ⟨gap, front, values, heq, hgap, hfront, rfl⟩ := items_sound hreads h
        refine ⟨blank ++ gap ++ (front ++ [brackets.close]), values, ?_,
          .items (fun d hd => (List.mem_append.1 hd).elim (hblank d) (hgap d)) hfront, rfl⟩
        rw [hsplit, heq]
        simp
  · rintro ⟨front, values, rfl, h, rfl⟩
    cases h with
    | empty hblank =>
      rw [List.append_assoc, List.singleton_append, collection, skipBlank_append hblank,
        skipBlank_close hclose]
      simp
    | @items gap front values hgap hfront =>
      have hbegins := (hfront.begins hreads.begins).append (brackets.close :: rest)
      have hread : items brackets parser join empty ([] ++ (front ++ brackets.close :: rest)) = _ :=
        items_complete hreads hclose hfront (by simp [BlankText]) empty rest
      rw [List.append_assoc, List.append_assoc, List.singleton_append, collection,
        skipBlank_append hgap, hbegins.skipBlank_eq]
      obtain ⟨d, more, hmore, hd⟩ := exists_ne_close hclose hbegins
      rw [List.nil_append, hmore] at hread
      rw [hmore]
      simp only [if_neg hd, hread]

end Collections

/-! ## Arrays and objects -/

variable {parser : Parser α} {item : List Char → α → Prop}

/-- The items of an array are gathered from the last one back, and turned around at the end. -/
theorem elements_eq_ok_iff (hreads : Reads parser item) {text rest : List Char}
    {values : List α} :
    elements parser text = .ok (values, rest) ↔
      ∃ front, text = front ++ rest ∧ CollectionText '[' ']' item ('[' :: front) values := by
  have hcollection : ∀ {all : List α}, collection .array parser (fun before value => value :: before)
      [] text = .ok (all, rest) ↔ ∃ front found, text = front ++ rest ∧
        CollectionText '[' ']' item ('[' :: front) found ∧
        all = found.foldl (fun before value => value :: before) [] :=
    collection_eq_ok_iff hreads (.inl rfl) '['
  have hreverse : ∀ found : List α,
      (found.foldl (fun before value => value :: before) []).reverse = found := by simp
  rw [elements]
  constructor
  · intro h
    split at h
    · cases h
    · next found after hfound =>
      simp only [Except.ok.injEq, Prod.mk.injEq] at h
      obtain ⟨rfl, rfl⟩ := h
      obtain ⟨front, items, hsplit, hfront, rfl⟩ := hcollection.1 hfound
      exact ⟨front, hsplit, by rwa [hreverse]⟩
  · rintro ⟨front, hsplit, h⟩
    rw [hcollection.2 ⟨front, values, hsplit, h, rfl⟩]
    simp only [hreverse]

theorem reads_list (hreads : Reads parser item) :
    Reads (list parser) (CollectionText '[' ']' item) where
  begins h := by
    obtain ⟨more, rfl⟩ := h.exists_opening
    exact ⟨_, _, rfl, by decide, by decide, by decide⟩
  sound := by
    intro text rest values h
    obtain ⟨blank, hsplit, hblank⟩ := exists_blank text
    change listOf parser text = _ at h
    rw [listOf] at h
    split at h
    · cases h
    · next c more hmore =>
      split at h
      · next hc =>
        obtain ⟨front, rfl, hfront⟩ := (elements_eq_ok_iff hreads).1 h
        exact ⟨blank, '[' :: front, by rw [hsplit, hmore, hc]; rfl, hblank, hfront⟩
      · cases h
  complete := by
    intro blank front rest values hblank h _
    obtain ⟨more, rfl⟩ := h.exists_opening
    change listOf parser _ = _
    rw [listOf, skipBlank_append hblank]
    exact (elements_eq_ok_iff hreads).2 ⟨more, rfl, h⟩

/-- A name and a colon are read, and then it depends on the value. -/
theorem memberOf_eq {blank nameText afterName text : List Char} {name : String}
    (hblank : BlankText blank) (hname : StringText nameText name)
    (hafterName : BlankText afterName) :
    memberOf parser (blank ++ (nameText ++ (afterName ++ ':' :: text))) =
      match parser.run text with
      | .error fault => .error fault
      | .ok (value, rest) => .ok ((name, value), rest) := by
  obtain ⟨more, rfl⟩ := hname.exists_quote
  have hread := quoted_run_eq_ok_iff.2
    ⟨more, (rfl : more ++ (afterName ++ ':' :: text) = _), hname⟩
  have hcolon : skipBlank (afterName ++ ':' :: text) = ':' :: text :=
    skipBlank_append hafterName _
  have hopening : skipBlank (blank ++ ('"' :: more ++ (afterName ++ ':' :: text))) =
      '"' :: (more ++ (afterName ++ ':' :: text)) :=
    skipBlank_append hblank _
  simp only [memberOf, hopening, hread, hcolon]
  cases parser.run text <;> simp

theorem reads_member (hreads : Reads parser item) : Reads (member parser) (MemberText item) where
  begins h := h.begins
  sound := by
    rintro text rest ⟨key, value⟩ h
    obtain ⟨blank, hsplit, hblank⟩ := exists_blank text
    change memberOf parser text = _ at h
    rw [memberOf] at h
    split at h
    · cases h
    · next c more hmore =>
      split at h
      · cases h
      · next hquote =>
        split at h
        · cases h
        · next name afterName hname =>
          obtain ⟨front, rfl, hfront⟩ := quoted_run_eq_ok_iff.1 hname
          obtain ⟨behind, hbehind, hbehindBlank⟩ := exists_blank afterName
          split at h
          · cases h
          · next d others hothers =>
            split at h
            · cases h
            · next hcolon =>
              split at h
              · cases h
              · next found after hfound =>
                obtain ⟨gap, rear, rfl, hgap, hrear⟩ := hreads.sound hfound
                cases h
                refine ⟨blank, '"' :: front ++ (behind ++ ':' :: (gap ++ rear)), ?_, hblank,
                  .member hfront hbehindBlank hgap hrear⟩
                rw [hsplit, hmore, Decidable.not_not.1 hquote, hbehind, hothers,
                  Decidable.not_not.1 hcolon]
                simp
  complete := by
    intro blank front rest member hblank h hends
    cases h with
    | @member nameText afterName gap valueText name value hname hafterName hgap hvalue =>
      have hsplit : nameText ++ (afterName ++ ':' :: (gap ++ valueText)) ++ rest =
          nameText ++ (afterName ++ ':' :: (gap ++ (valueText ++ rest))) := by simp
      change memberOf parser _ = _
      rw [hsplit, memberOf_eq hblank hname hafterName, hreads.complete hgap hvalue hends]

theorem members_eq_ok_iff (hreads : Reads parser item) {text rest : List Char}
    {fields : Members α} :
    members parser text = .ok (fields, rest) ↔
      ∃ front, text = front ++ rest ∧ ObjectText item ('{' :: front) fields := by
  rw [members, collection_eq_ok_iff (reads_member hreads) (.inr rfl) '{']
  constructor
  · rintro ⟨front, written, hsplit, h, rfl⟩
    exact ⟨front, hsplit, .braces h⟩
  · rintro ⟨front, hsplit, h⟩
    cases h with
    | braces h => exact ⟨front, _, hsplit, h, rfl⟩

theorem reads_object (hreads : Reads parser item) : Reads (object parser) (ObjectText item) where
  begins h := h.begins
  sound := by
    intro text rest fields h
    obtain ⟨blank, hsplit, hblank⟩ := exists_blank text
    change objectOf parser text = _ at h
    rw [objectOf] at h
    split at h
    · cases h
    · next c more hmore =>
      split at h
      · next hc =>
        obtain ⟨front, rfl, hfront⟩ := (members_eq_ok_iff hreads).1 h
        exact ⟨blank, '{' :: front, by rw [hsplit, hmore, hc]; rfl, hblank, hfront⟩
      · cases h
  complete := by
    intro blank front rest fields hblank h _
    obtain ⟨more, rfl⟩ := h.exists_opening
    change objectOf parser _ = _
    rw [objectOf, skipBlank_append hblank]
    exact (members_eq_ok_iff hreads).2 ⟨more, rfl, h⟩

/-! ## Values -/

theorem word_eq_ok_iff {letters text rest : List Char} {value result : Value} :
    word letters value text = .ok (result, rest) ↔ text = letters ++ rest ∧ result = value := by
  fun_induction word letters value text with
  | case1 text => simp [and_comm, eq_comm]
  | case2 => simp
  | case3 letters c rest ih => simp [ih]
  | case4 letter letters c more hne => simp [hne]

/-- What is read as a number is a numeral that stands for it. -/
theorem number_sound {negative : Bool} {text rest : List Char} {value : Number}
    (h : number negative text = .ok (value, rest)) :
    ∃ front n, text = front ++ rest ∧ UnsignedText negative front n ∧ n.number? = some value := by
  rw [number] at h
  split at h
  · cases h
  · next n after hn =>
    obtain ⟨front, rfl, hfront⟩ := numeral_sound hn
    split at h
    · next found hfound =>
      cases h
      exact ⟨front, n, rfl, hfront, hfound⟩
    · cases h

theorem number_complete {negative : Bool} {front : List Char} {n : Numeral} {value : Number}
    (h : UnsignedText negative front n) (hvalue : n.number? = some value) {rest : List Char}
    (hrest : Ends rest) : number negative (front ++ rest) = .ok (value, rest) := by
  simp only [number, numeral_complete h hrest, hvalue]

theorem scalar_sound {text rest : List Char} {value : Value}
    (h : scalar text = .ok (value, rest)) :
    ∃ front, text = front ++ rest ∧ ScalarText front value := by
  rw [scalar.eq_def] at h
  split at h
  · cases h
  · next c more =>
    split at h
    · next hc =>
      obtain ⟨rfl, rfl⟩ := word_eq_ok_iff.1 h
      exact ⟨['n', 'u', 'l', 'l'], by rw [hc]; rfl, .null⟩
    · split at h
      · next hc =>
        obtain ⟨rfl, rfl⟩ := word_eq_ok_iff.1 h
        exact ⟨['t', 'r', 'u', 'e'], by rw [hc]; rfl, .true⟩
      · split at h
        · next hc =>
          obtain ⟨rfl, rfl⟩ := word_eq_ok_iff.1 h
          exact ⟨['f', 'a', 'l', 's', 'e'], by rw [hc]; rfl, .false⟩
        · split at h
          · next hc =>
            split at h
            · cases h
            · next s after hs =>
              obtain ⟨front, rfl, hfront⟩ := quoted_run_eq_ok_iff.1 hs
              cases h
              exact ⟨'"' :: front, by rw [hc]; rfl, .string hfront⟩
          · split at h
            · split at h
              · cases h
              · next n after hn =>
                obtain ⟨front, numeral, hsplit, hfront, hvalue⟩ := number_sound hn
                cases h
                by_cases hminus : c = '-'
                · subst hminus
                  rw [if_pos rfl] at hsplit
                  exact ⟨'-' :: front, by rw [hsplit]; rfl, .number (.minus hfront) hvalue⟩
                · rw [if_neg hminus] at hsplit
                  rw [decide_eq_false hminus] at hfront
                  exact ⟨front, hsplit, .number (.plus hfront) hvalue⟩
            · cases h

theorem scalar_complete {front : List Char} {value : Value} (h : ScalarText front value)
    {rest : List Char} (hrest : Ends rest) : scalar (front ++ rest) = .ok (value, rest) := by
  cases h with
  | null | true | false => simp [scalar, word]
  | string h =>
    obtain ⟨more, rfl⟩ := h.exists_quote
    simp [scalar, quoted_run_eq_ok_iff.2 ⟨more, rfl, h⟩]
  | number h hvalue =>
    cases h with
    | minus h => simp [scalar, number_complete h hvalue hrest]
    | plus h =>
      have hread := number_complete h hvalue hrest
      obtain ⟨c, more, rfl, hc⟩ := h.exists_digit
      have hne : ∀ d : Char, d.isDigit = false → c ≠ d := by
        rintro d hd rfl
        rw [hd] at hc
        cases hc
      rw [List.cons_append] at hread ⊢
      simp [scalar, hne 'n' rfl, hne 't' rfl, hne 'f' rfl, hne '"' rfl, hne '-' rfl, hc, hread]

/-- A text that is read as a scalar opens no bracket. -/
theorem scalar_opening {c : Char} {more rest : List Char} {value : Value}
    (h : scalar (c :: more) = .ok (value, rest)) : c ≠ '[' ∧ c ≠ '{' := by
  constructor <;>
  · rintro rfl
    simp [scalar] at h

/-- A scalar is read at any depth. -/
theorem valueOf_scalar {item : Option (Parser Value)} {blank front rest : List Char}
    {value : Value} (hblank : BlankText blank) (h : ScalarText front value) (hrest : Ends rest) :
    valueOf item (blank ++ (front ++ rest)) = .ok (value, rest) := by
  have hread := scalar_complete h hrest
  obtain ⟨c, more, hfront, -⟩ := id (h.begins.append rest)
  have hskip := (h.begins.append rest).skipBlank_eq
  rw [hfront] at hread hskip
  obtain ⟨hbracket, hbrace⟩ := scalar_opening hread
  rw [hfront, valueOf, skipBlank_append hblank, hskip]
  simp only [hbracket, hbrace, or_self, if_false, hread]

theorem reads_scalar : Reads (value 0) (ValueText 0) where
  begins h := h.begins
  sound := by
    intro text rest result h
    obtain ⟨blank, hsplit, hblank⟩ := exists_blank text
    change valueOf none text = _ at h
    rw [valueOf] at h
    split at h
    · cases h
    · next c more hmore =>
      split at h
      · cases h
      · obtain ⟨front, hfront, htext⟩ := scalar_sound h
        exact ⟨blank, front, by rw [hsplit, hmore, hfront], hblank, htext⟩
  complete hblank h hrest := by
    change valueOf none _ = _
    exact valueOf_scalar hblank h hrest

/-- A value is read one level up if the values in its arrays and objects are. -/
theorem reads_nested {parser : Parser Value} {item : List Char → Value → Prop}
    (hreads : Reads parser item) {outer : Parser Value}
    (houter : ∀ text, outer.run text = valueOf (some parser) text) :
    Reads outer (NestedText item) where
  begins h := by
    cases h with
    | scalar h => exact h.begins
    | array h => exact (reads_list hreads).begins h
    | object h => exact h.begins
  sound := by
    intro text rest result h
    obtain ⟨blank, hsplit, hblank⟩ := exists_blank text
    rw [houter, valueOf] at h
    split at h
    · cases h
    · next c more hmore =>
      rw [hmore] at hsplit
      split at h
      · next hopening =>
        dsimp only at h
        split at h
        · next hc =>
          subst hc
          split at h
          · cases h
          · next values after helements =>
            obtain ⟨front, rfl, hfront⟩ := (elements_eq_ok_iff hreads).1 helements
            cases h
            exact ⟨blank, '[' :: front, hsplit, hblank, .array hfront⟩
        · next hc =>
          have hbrace := hopening.resolve_left hc
          subst hbrace
          split at h
          · cases h
          · next fields after hmembers =>
            obtain ⟨front, rfl, hfront⟩ := (members_eq_ok_iff hreads).1 hmembers
            cases h
            exact ⟨blank, '{' :: front, hsplit, hblank, .object hfront⟩
      · obtain ⟨front, hfront, htext⟩ := scalar_sound h
        exact ⟨blank, front, by rw [hsplit, hfront], hblank, .scalar htext⟩
  complete := by
    intro blank front rest result hblank h hrest
    rw [houter]
    cases h with
    | scalar h => exact valueOf_scalar hblank h hrest
    | array h =>
      obtain ⟨more, rfl⟩ := h.exists_opening
      rw [valueOf, skipBlank_append hblank]
      have hread := (elements_eq_ok_iff hreads).2 ⟨more, (rfl : more ++ rest = _), h⟩
      simp [skipBlank, isBlank, hread]
    | object h =>
      obtain ⟨more, rfl⟩ := h.exists_opening
      rw [valueOf, skipBlank_append hblank]
      have hread := (members_eq_ok_iff hreads).2 ⟨more, (rfl : more ++ rest = _), h⟩
      simp [skipBlank, isBlank, hread]

/-- The reader of values reads the values of the grammar. -/
theorem reads_value (depth : Nat) : Reads (value depth) (ValueText depth) := by
  induction depth with
  | zero => exact reads_scalar
  | succ depth ih => exact reads_nested ih fun _ => rfl

/-! ## Documents -/

/-- A document is one text of a kind and blanks around it. -/
theorem whole_eq_ok_iff {parser : Parser α} {item : List Char → α → Prop}
    (hreads : Reads parser item) {text : List Char} {value : α} :
    whole parser text = .ok value ↔ DocumentText item text value := by
  constructor
  · intro h
    rw [whole] at h
    split at h
    · cases h
    · next found rest hfound =>
      obtain ⟨blank, front, rfl, hblank, hfront⟩ := hreads.sound hfound
      obtain ⟨after, hafter, hafterBlank⟩ := exists_blank rest
      split at h
      · next hnone =>
        cases h
        rw [hnone, List.append_nil] at hafter
        rw [hafter]
        exact .document hblank hfront hafterBlank
      · cases h
  · intro h
    cases h with
    | document hbefore h hafter =>
      have hends := ends_nil.append_blank hafter
      rw [List.append_nil] at hends
      simp only [whole, hreads.complete hbefore h hends, skipBlank_blank hafter]

theorem document_eq_ok_iff {parser : Parser α} {item : List Char → α → Prop}
    (hreads : Reads parser item) {text : String} {value : α} :
    document parser text = .ok value ↔ DocumentText item text.toList value := by
  rw [← whole_eq_ok_iff hreads, document]
  split
  · next hfault => simp [hfault]
  · next hok => simp [hok]

end Parser

/-- A value is read from its text, and from nothing else. -/
theorem readValue_eq_ok_iff {text : String} {value : Value} :
    readValue text = .ok value ↔ DocumentText (ValueText maxDepth) text.toList value :=
  Parser.document_eq_ok_iff (Parser.reads_value _)

/-- An object is read from its text, and from nothing else. -/
theorem readObject_eq_ok_iff {text : String} {fields : Fields} :
    readObject text = .ok fields ↔
      DocumentText (ObjectText (ValueText (maxDepth - 1))) text.toList fields :=
  Parser.document_eq_ok_iff (Parser.reads_object (Parser.reads_value _))

/-- A list of objects is read from its text, and from nothing else. -/
theorem readObjects_eq_ok_iff {text : String} {objects : List Fields} :
    readObjects text = .ok objects ↔
      DocumentText (CollectionText '[' ']' (ObjectText (ValueText (maxDepth - 2)))) text.toList
        objects :=
  Parser.document_eq_ok_iff (Parser.reads_list (Parser.reads_object (Parser.reads_value _)))

end Json
end OpcodeTable
