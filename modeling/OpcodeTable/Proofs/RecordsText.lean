import OpcodeTable.Proofs.Conversion.Batch
import OpcodeTable.Proofs.Json.Reading
import OpcodeTable.Proofs.Json.Written

/-!
# The texts that hold records

Which texts can be read as records is said here without a reader, from the JSON text alone: what is
written must be an array of objects, it must not be nested too deep, and every numeral in it must
have a value.  The records are then those objects at their places.

## What is here

* `RecordsText`, the texts that hold records.
* `recordsText_iff`, by which they are the texts of lists of objects.
* `Record.parse_language`, by which they are the texts that are read.
-/

set_option autoImplicit false

namespace OpcodeTable

open Json

/-- A JSON text in which an array of objects is written, nested at most 127 deep with the array
itself, every numeral of which has a value. -/
structure RecordsText (text : String) (items : List Written) : Prop where
  document : DocumentText WrittenText text.toList (.array items)
  objects : ∀ item ∈ items, ∃ members, item = .object members
  nesting : (Written.array items).nesting ≤ 127
  numbers : ∀ n ∈ (Written.array items).numerals, n.number?.isSome = true

namespace Json

/-- A list of objects is read from an array that is written and means it, and from nothing else. -/
theorem readObjects_eq_ok_iff_written {text : String} {objects : List Fields} :
    readObjects text = .ok objects ↔
      ∃ items, DocumentText WrittenText text.toList (.array items) ∧
        Written.Means 127 (.array items) (.array (objects.map .object)) := by
  have hobject : ∀ (text : List Char) (fields : Fields),
      ObjectText (ValueText (maxDepth - 2)) text fields ↔
        ∃ written, WrittenText text written ∧ Written.Means 126 written (.object fields) :=
    fun _ _ => objectText_iff.trans valueText_iff_written
  have hlist : ∀ (text : List Char) (objects : List Fields),
      CollectionText '[' ']' (ObjectText (ValueText (maxDepth - 2))) text objects ↔
        ∃ written, WrittenText text written ∧
          ∃ items, written = .array items ∧
            Written.Means 127 (.array items) (.array (objects.map .object)) := by
    intro text objects
    rw [collectionText_iff hobject]
    constructor
    · rintro ⟨items, hitems, hall⟩
      refine ⟨.array items, .array hitems, items, rfl, Written.means_array_iff.2 ⟨_, ?_, rfl⟩⟩
      exact List.forall₂_map_right_iff.2 hall
    · rintro ⟨_, h, items, rfl, hmeans⟩
      obtain ⟨values, hall, hvalues⟩ := Written.means_array_iff.1 hmeans
      cases hvalues
      cases h with
      | array hitems => exact ⟨items, hitems, List.forall₂_map_right_iff.1 hall⟩
  rw [readObjects_eq_ok_iff, documentText_iff hlist]
  constructor
  · rintro ⟨_, hdocument, items, rfl, hmeans⟩
    exact ⟨items, hdocument, hmeans⟩
  · rintro ⟨items, hdocument, hmeans⟩
    exact ⟨_, hdocument, items, rfl, hmeans⟩

/-- Only an object means an object. -/
theorem Written.Means.object_iff {depth : Nat} {written : Written} {value : Value}
    (h : written.Means depth value) :
    (∃ members, written = .object members) ↔ ∃ fields, value = .object fields := by
  obtain ⟨-, hvalue⟩ := h
  cases written with
  | null | boolean | string =>
    cases hvalue
    simp
  | numeral | array | object =>
    obtain ⟨found, -, rfl⟩ := Option.map_eq_some_iff.1 hvalue
    simp

theorem Written.objects_iff_of_means {depth : Nat} {items : List Written} {values : List Value}
    (h : List.Forall₂ (Written.Means depth) items values) :
    (∀ item ∈ items, ∃ members, item = .object members) ↔
      ∃ objects : List Fields, values = objects.map .object := by
  induction h with
  | nil => exact iff_of_true (fun _ hmem => nomatch hmem) ⟨[], rfl⟩
  | cons hfirst _ ih =>
    rw [List.forall_mem_cons, hfirst.object_iff, ih]
    constructor
    · rintro ⟨⟨fields, rfl⟩, objects, rfl⟩
      exact ⟨fields :: objects, rfl⟩
    · rintro ⟨objects, hobjects⟩
      cases objects with
      | nil => cases hobjects
      | cons fields rest =>
        cases hobjects
        exact ⟨⟨fields, rfl⟩, rest, rfl⟩

end Json

/-- The texts that hold records are those in which a list of objects is written. -/
theorem recordsText_iff {text : String} {items : List Written} :
    RecordsText text items ↔ ∃ objects : List Fields,
      DocumentText WrittenText text.toList (.array items) ∧
        Written.Means 127 (.array items) (.array (objects.map .object)) := by
  constructor
  · intro h
    obtain ⟨value, hvalue⟩ :=
      Option.isSome_iff_exists.1 ((Written.isSome_value?_iff _).2 h.numbers)
    have hmeans : Written.Means 127 (.array items) value := ⟨h.nesting, hvalue⟩
    obtain ⟨values, hall, rfl⟩ := Written.means_array_iff.1 hmeans
    obtain ⟨objects, rfl⟩ := (Written.objects_iff_of_means hall).1 h.objects
    exact ⟨objects, h.document, hmeans⟩
  · rintro ⟨objects, hdocument, hmeans⟩
    obtain ⟨values, hall, hvalues⟩ := Written.means_array_iff.1 hmeans
    cases hvalues
    exact
      { document := hdocument
        objects := (Written.objects_iff_of_means hall).2 ⟨objects, rfl⟩
        nesting := hmeans.1
        numbers := (Written.isSome_value?_iff _).1 (Option.isSome_iff_exists.2 ⟨_, hmeans.2⟩) }

/-- The objects of the records, at their places, are what the items of the array mean. -/
theorem Record.parse_of_written {text : String} {items : List Written} {objects : List Fields}
    (hdocument : DocumentText WrittenText text.toList (.array items))
    (hmeans : Written.Means 127 (.array items) (.array (objects.map .object))) :
    Record.parse text = .ok (Record.ofFields objects) := by
  rw [Record.parse, readObjects_eq_ok_iff_written.2 ⟨items, hdocument, hmeans⟩]

theorem Record.map_fields_ofFields (objects : List Fields) :
    (Record.ofFields objects).map Record.fields = objects := by
  rw [Record.ofFields, List.map_map]
  exact List.zipIdx_map_fst 0 objects

/-- **Which texts are read as records, and what these are.**  A text is read if and only if it
holds records.  Then there is a record for each item of its array, numbered by the place of the
item, and the item stands for the record's fields: in an object at any depth a name that is written
more than once is at the place of its first occurrence and has the value of its last.  Every other
text is malformed. -/
theorem Record.parse_language (text : String) :
    ((∃ records, Record.parse text = .ok records) ↔ ∃ items, RecordsText text items) ∧
    (∀ (items : List Written) (records : List Record), RecordsText text items →
      Record.parse text = .ok records →
      List.Forall₂ (fun item record => item.value? = some (.object record.fields)) items records ∧
      ∀ (place : Nat) (record : Record), records[place]? = some record → record.index = place) ∧
    ∀ error, Record.parse text = .error error → ∃ fault, error = .malformed fault := by
  refine ⟨⟨?_, ?_⟩, ?_, ?_⟩
  · rintro ⟨records, hparse⟩
    obtain ⟨objects, hobjects, -⟩ := Conversion.exists_objects_of_parse hparse
    obtain ⟨items, hwritten⟩ := readObjects_eq_ok_iff_written.1 hobjects
    exact ⟨items, recordsText_iff.2 ⟨objects, hwritten⟩⟩
  · rintro ⟨items, h⟩
    obtain ⟨objects, hdocument, hmeans⟩ := recordsText_iff.1 h
    exact ⟨_, Record.parse_of_written hdocument hmeans⟩
  · intro items records h hparse
    obtain ⟨objects, hdocument, hmeans⟩ := recordsText_iff.1 h
    cases hparse.symm.trans (Record.parse_of_written hdocument hmeans)
    obtain ⟨values, hall, hvalues⟩ := Written.means_array_iff.1 hmeans
    cases hvalues
    rw [← Record.map_fields_ofFields objects, List.map_map] at hall
    refine ⟨?_, fun place record hrecord => ?_⟩
    · exact (List.forall₂_map_right_iff.1 hall).imp fun item record hitem => hitem.2
    · rw [Conversion.numberedFrom_ofFields objects place record hrecord, Nat.zero_add]
  · intro error herror
    rw [Record.parse] at herror
    split at herror
    · cases herror
    · next fault hfault =>
      cases herror
      exact ⟨fault, rfl⟩

end OpcodeTable
