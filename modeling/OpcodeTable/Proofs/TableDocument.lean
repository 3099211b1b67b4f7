import Mathlib.Data.List.Find
import OpcodeTable.Proofs.RecordsText
import OpcodeTable.Table

/-!
# The texts that hold tables

A table is read from one object, and every value in it must be an object.  Only the values that
count are looked at: of the members with one name that is the last one, and it counts at the place
of the first.  So a text may hold a table although other values are written in it, and of several
values that do count and are no objects the one is reported whose name is written first.

## What is here

* `WrittenIn`, the texts in which a value is written that can be read.
* `Json.readObject_eq_ok_iff_written` and `Json.Written.Means.lasts`, what is read of an object.
* `Table.entries?_eq_ok_iff` and `Table.entries?_eq_error_iff`, when the members hold a table and
  what is reported if they do not.
* `Table.parse_of_writtenIn`, what comes of an object, and `Table.parse_written`, which texts hold
  tables and which tables these are.
-/

set_option autoImplicit false

namespace OpcodeTable

open Json

/-- A JSON text in which a value is written, nested at most 127 deep, every numeral of which has a
value. -/
structure WrittenIn (text : String) (written : Written) : Prop where
  document : DocumentText WrittenText text.toList written
  nesting : written.nesting ≤ 127
  numbers : ∀ n ∈ written.numerals, n.number?.isSome = true

namespace Json

/-- Whether an object is written. -/
def Written.isObject : Written → Bool
  | .object _ => true
  | _ => false

/-- Whether the last value of a name is an object. -/
def endsInObject (members : Members Written) (name : String) : Bool :=
  (Members.find? members.reverse name).any Written.isObject

theorem writtenIn_iff {text : String} {written : Written} :
    WrittenIn text written ↔ DocumentText WrittenText text.toList written ∧
      ∃ value, Written.Means 127 written value := by
  constructor
  · intro h
    obtain ⟨value, hvalue⟩ := Option.isSome_iff_exists.1 ((Written.isSome_value?_iff _).2 h.numbers)
    exact ⟨h.document, value, h.nesting, hvalue⟩
  · rintro ⟨hdocument, value, hnesting, hvalue⟩
    have hnumbers := (Written.isSome_value?_iff written).1 (Option.isSome_iff_exists.2 ⟨_, hvalue⟩)
    exact ⟨hdocument, hnesting, hnumbers⟩

/-- An object is read from an object that is written and means it, and from nothing else. -/
theorem readObject_eq_ok_iff_written {text : String} {fields : Fields} :
    readObject text = .ok fields ↔ ∃ members,
      DocumentText WrittenText text.toList (.object members) ∧
        Written.Means 127 (.object members) (.object fields) := by
  have hobject : ∀ (text : List Char) (fields : Fields),
      ObjectText (ValueText (maxDepth - 1)) text fields ↔
        ∃ written, WrittenText text written ∧ Written.Means 127 written (.object fields) :=
    fun _ _ => objectText_iff.trans valueText_iff_written
  rw [readObject_eq_ok_iff, documentText_iff hobject]
  constructor
  · rintro ⟨written, hdocument, hmeans⟩
    obtain ⟨members, rfl⟩ := hmeans.object_iff.2 ⟨fields, rfl⟩
    exact ⟨members, hdocument, hmeans⟩
  · rintro ⟨members, hdocument, hmeans⟩
    exact ⟨_, hdocument, hmeans⟩

/-! ## The last value of each name -/

namespace Written

theorem names_eq_of_memberMeans {depth : Nat} {members : Members Written} {values : Members Value}
    (h : List.Forall₂ (MemberMeans depth) members values) : members.names = values.names := by
  induction h with
  | nil => rfl
  | cons hfirst _ ih => exact congr (congrArg _ hfirst.1) ih

theorem find?_of_memberMeans {depth : Nat} {members : Members Written} {values : Members Value}
    (h : List.Forall₂ (MemberMeans depth) members values) (name : String) :
    Option.Rel (Means depth) (members.find? name) (values.find? name) := by
  induction h with
  | nil => exact .none
  | cons hfirst _ ih =>
    obtain ⟨hname, hvalue⟩ := hfirst
    rw [Members.find?_cons, Members.find?_cons, hname]
    split
    · exact .some hvalue
    · exact ih

/-- What an object means has each name once, at the place of its first occurrence, with what its
last value means. -/
theorem Means.lasts {depth : Nat} {members : Members Written} {fields : Fields}
    (h : Means (depth + 1) (.object members) (.object fields)) :
    fields.names = members.names.eraseDups ∧
      ∀ name,
        Option.Rel (Means depth) (Members.find? members.reverse name) (fields.find? name) := by
  obtain ⟨values, hall, hfields⟩ := means_object_iff.1 h
  cases hfields
  rw [← Members.collect_eq_lastOfEach, Members.names_collect, names_eq_of_memberMeans hall]
  refine ⟨rfl, fun name => ?_⟩
  rw [Members.find?_collect]
  exact find?_of_memberMeans (List.forall₂_reverse_iff.2 hall) name

/-- What means an object is one. -/
theorem any_isObject {depth : Nat} {written? : Option Written} {value? : Option Value}
    (h : Option.Rel (Means depth) written? value?) :
    written?.any isObject = value?.any fun value => value.fields?.isSome := by
  cases h with
  | none => rfl
  | @some written value hmeans =>
    have hwritten : written.isObject = true ↔ ∃ members, written = .object members := by
      cases written <;> simp [isObject]
    have hvalue : value.fields?.isSome = true ↔ ∃ fields, value = .object fields := by
      cases value <;> simp [Value.fields?]
    exact Bool.eq_iff_iff.2 (hwritten.trans (hmeans.object_iff.trans hvalue.symm))

end Written

end Json

namespace Table

/-! ## Members that are objects -/

/-- Members that all hold objects are a table. -/
theorem entries?_eq_ok_iff {fields : Fields} {entries : Members Fields} :
    entries? fields = .ok entries ↔
      fields = entries.map fun entry => (entry.1, .object entry.2) := by
  induction fields generalizing entries with
  | nil => cases entries <;> simp [entries?]
  | cons member rest ih =>
    obtain ⟨key, value⟩ := member
    cases entries with
    | nil =>
      cases value <;> cases h : entries? rest <;> simp [entries?, Value.fields?, h, Except.map]
    | cons entry others =>
      obtain ⟨name, found⟩ := entry
      have hrest := @ih others
      cases value <;> cases h : entries? rest <;> rw [h] at hrest <;>
        simp [entries?, Value.fields?, h, Except.map, ← hrest]

/-- The first member that holds no object is reported. -/
theorem entries?_eq_error_iff {fields : Fields} {key : String} :
    entries? fields = .error key ↔
      (List.find? (fun member => member.2.fields?.isNone) fields).map Prod.fst = some key := by
  induction fields with
  | nil => simp [entries?]
  | cons member rest ih =>
    obtain ⟨name, value⟩ := member
    rw [entries?, List.find?_cons]
    cases hfields : value.fields? with
    | none => simp
    | some fields =>
      rw [Option.isNone_some, ← ih]
      cases entries? rest <;> simp [Except.map]

/-- Among different names, the first with a property of its value is that of the first such
member. -/
theorem find?_names {fields : Fields} (h : fields.names.Nodup) (p : Option Value → Bool) :
    fields.names.find? (fun name => p (fields.find? name)) =
      (List.find? (fun member => p (some member.2)) fields).map Prod.fst := by
  rw [Members.names, List.find?_map]
  refine congrArg _ (List.find?_congr fun member hmem => ?_)
  rw [Function.comp_apply, (Members.find?_eq_some_iff h).2 hmem]

/-! ## What comes of an object -/

/-- The name that is reported of an object: the first one whose last value is no object. -/
theorem entries?_eq_error_iff_written {depth : Nat} {members : Members Written} {fields : Fields}
    (h : Written.Means (depth + 1) (.object members) (.object fields)) {name : String} :
    entries? fields = .error name ↔
      members.names.eraseDups.find? (fun name => !endsInObject members name) = some name := by
  obtain ⟨hnames, hlast⟩ := h.lasts
  have hends : ∀ name, endsInObject members name =
      (fields.find? name).any fun value => value.fields?.isSome :=
    fun name => Written.any_isObject (hlast name)
  have hnodup : fields.names.Nodup := by
    rw [hnames, ← Members.names_collect]
    exact Members.nodup_names_collect members
  have hfirst := find?_names hnodup fun value? => !value?.any fun value => value.fields?.isSome
  simp only [hends, ← hnames, hfirst, entries?_eq_error_iff, Option.any_some, Option.not_isSome]

/-- The table of an object has the names once each, in the order of first occurrences, and what
the last value of each means. -/
theorem get?_of_entries? {depth : Nat} {members : Members Written} {fields : Fields}
    (h : Written.Means (depth + 1) (.object members) (.object fields)) {entries : Members Fields}
    (hentries : entries? fields = .ok entries) :
    entries.names = members.names.eraseDups ∧
      ∀ name, Option.Rel (fun written fields => written.value? = some (.object fields))
        (Members.find? members.reverse name) (entries.find? name) := by
  obtain rfl := entries?_eq_ok_iff.1 hentries
  obtain ⟨hnames, hlast⟩ := h.lasts
  constructor
  · rw [← hnames, Members.names_map]
  · intro name
    have hname := hlast name
    rw [Members.find?_map] at hname
    generalize Members.find? members.reverse name = written? at hname ⊢
    generalize entries.find? name = fields? at hname ⊢
    cases fields? with
    | none =>
      cases hname
      exact .none
    | some fields =>
      cases hname with
      | some hmeans => exact .some hmeans.2

/-- What is made of a text in which an object is written. -/
theorem parse_of_writtenIn {text : String} {members : Members Written}
    (h : WrittenIn text (.object members)) : ∃ fields,
      Written.Means 127 (.object members) (.object fields) ∧
        parse text = ((entries? fields).mapError Error.entryNotObject).map Table.mk := by
  obtain ⟨hdocument, value, hmeans⟩ := writtenIn_iff.1 h
  obtain ⟨fields, rfl⟩ := hmeans.object_iff.1 ⟨members, rfl⟩
  refine ⟨fields, hmeans, ?_⟩
  rw [parse, readObject_eq_ok_iff_written.2 ⟨members, hdocument, hmeans⟩]
  cases h : entries? fields <;> simp [h, Except.map, Except.mapError]

/-- The first name whose last value is no object is reported, and nothing else. -/
theorem parse_eq_error_iff {text : String} {members : Members Written}
    (h : WrittenIn text (.object members)) {error : Error} :
    parse text = .error error ↔ ∃ name, error = .entryNotObject name ∧
      members.names.eraseDups.find? (fun name => !endsInObject members name) = some name := by
  obtain ⟨fields, hmeans, hparse⟩ := parse_of_writtenIn h
  rw [hparse]
  simp only [← entries?_eq_error_iff_written hmeans]
  cases entries? fields <;> simp [Except.map, Except.mapError, eq_comm]

theorem exists_parse_iff {text : String} {members : Members Written}
    (h : WrittenIn text (.object members)) :
    (∃ table, parse text = .ok table) ↔
      ∀ name ∈ members.names, endsInObject members name = true := by
  constructor
  · rintro ⟨table, hparse⟩ name hname
    have hnone : members.names.eraseDups.find? (fun name => !endsInObject members name) = none := by
      by_contra hsome
      obtain ⟨first, hfirst⟩ := Option.ne_none_iff_exists'.1 hsome
      cases hparse.symm.trans ((parse_eq_error_iff h).2 ⟨first, rfl, hfirst⟩)
    simpa using List.find?_eq_none.1 hnone name (List.mem_eraseDups.2 hname)
  · intro hends
    cases hparse : parse text with
    | ok table => exact ⟨table, rfl⟩
    | error error =>
      obtain ⟨name, -, hname⟩ := (parse_eq_error_iff h).1 hparse
      have hmem := List.mem_eraseDups.1 (List.mem_of_find?_eq_some hname)
      simpa [hends name hmem] using List.find?_some hname

/-- Only a text in which an object is written has members to speak of. -/
theorem parse_of_not_writtenIn {text : String}
    (h : ¬∃ members, WrittenIn text (.object members)) :
    ∃ fault, parse text = .error (.malformed fault) := by
  rw [parse]
  split
  · next fault _ => exact ⟨fault, rfl⟩
  · next fields hfields =>
    obtain ⟨members, hdocument, hmeans⟩ := readObject_eq_ok_iff_written.1 hfields
    exact absurd ⟨members, writtenIn_iff.2 ⟨hdocument, _, hmeans⟩⟩ h

/-- **Which texts hold a table, and which table.**  A text is read as a table if and only if an
object is written in it in which the last value of every name is an object; other values before
the last do not matter.  The table then lists each name once, in the order of first occurrences,
and finds what its last value means, under these names and no others.  If an object is written,
but not such a one, the first name in that order is reported whose last value is no object.  Every
other text is malformed. -/
theorem parse_written (text : String) :
    ((∃ table, parse text = .ok table) ↔ ∃ members, WrittenIn text (.object members) ∧
      ∀ name ∈ Members.names members, endsInObject members name = true) ∧
    (∀ (members : Members Written) (table : Table), WrittenIn text (.object members) →
      parse text = .ok table →
      table.keys = members.names.eraseDups ∧ table.size = members.names.eraseDups.length ∧
      (∀ name, Option.Rel (fun written fields => written.value? = some (.object fields))
        (Members.find? members.reverse name) (table.get? name)) ∧
      ∀ name, (table.get? name).isSome = true ↔ name ∈ table.keys) ∧
    (∀ members : Members Written, WrittenIn text (.object members) → ∀ error,
      parse text = .error error ↔ ∃ name, error = .entryNotObject name ∧
        members.names.eraseDups.find? (fun name => !endsInObject members name) = some name) ∧
    ((¬∃ members, WrittenIn text (.object members)) →
      ∃ fault, parse text = .error (.malformed fault)) := by
  refine ⟨⟨?_, ?_⟩, ?_, fun _ h _ => parse_eq_error_iff h, parse_of_not_writtenIn⟩
  · rintro ⟨table, hparse⟩
    by_cases hsome : ∃ members, WrittenIn text (.object members)
    · obtain ⟨members, h⟩ := hsome
      exact ⟨members, h, (exists_parse_iff h).1 ⟨table, hparse⟩⟩
    · obtain ⟨fault, hfault⟩ := parse_of_not_writtenIn hsome
      cases hparse.symm.trans hfault
  · rintro ⟨members, h, hends⟩
    exact (exists_parse_iff h).2 hends
  · intro members table h hparse
    obtain ⟨fields, hmeans, hfields⟩ := parse_of_writtenIn h
    rw [hparse] at hfields
    cases hentries : entries? fields with
    | error key =>
      rw [hentries] at hfields
      cases hfields
    | ok entries =>
      rw [hentries] at hfields
      cases hfields
      obtain ⟨hnames, hget⟩ := get?_of_entries? hmeans hentries
      refine ⟨hnames, ?_, hget, fun name => ?_⟩
      · rw [← hnames, Members.names, List.length_map]
        rfl
      · rw [← not_iff_not, Bool.not_eq_true, Option.isSome_eq_false_iff, Option.isNone_iff_eq_none]
        exact Members.find?_eq_none_iff

/-- A value that is replaced by an object does not matter. -/
example : (parse "\x7b\"a\":1,\"b\":\x7b\x7d,\"a\":\x7b\x7d\x7d").map keys = .ok ["a", "b"] := by
  decide +kernel

end Table

end OpcodeTable
