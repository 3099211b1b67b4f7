import OpcodeTable.Proofs.Conversion.ReadBack
import OpcodeTable.Proofs.Json.IntegerLiteral
import OpcodeTable.Proofs.Json.OutOfRange
import OpcodeTable.Proofs.Json.Places
import OpcodeTable.Proofs.RecordEntry

/-!
# Integers on their way through a conversion

An integer that is written in a record is read as that integer, and written again with the same
digits, or it is no integer to the reader at all.  Which of the two it is depends on the integer
only, and not on the place in the record or on what stands around it.

## What is here

* `WrittenRecords`, the texts in which records are written, whatever their numbers are, and
  `Record.parse_of_writtenRecords`, what comes of such a text.
* `Record.payload_at?`, by which the payload has the numbers of the record at their places.
* `Conversion.exists_written_of_convertText`, what is written in the table, and
  `Conversion.exists_written_integer`, where an integer is.
* `Conversion.integers_of_convertText`, the way of an integer from text to text.
-/

set_option autoImplicit false

namespace OpcodeTable

open Json

/-- A JSON text in which an array of objects is written, nested at most 127 deep with the array
itself. -/
structure WrittenRecords (text : String) (items : List Written) : Prop where
  document : DocumentText WrittenText text.toList (.array items)
  objects : ∀ item ∈ items, ∃ members, item = .object members
  nesting : (Written.array items).nesting ≤ 127

/-! ## Reading the records -/

theorem Record.getElem?_ofFields (objects : List Fields) (index : Nat) :
    (Record.ofFields objects)[index]? = objects[index]?.map fun fields => ⟨index, fields⟩ := by
  simp [Record.ofFields, Function.comp_def]

/-- If records are written, they are read as what is written, or a number is out of range. -/
theorem Record.parse_of_writtenRecords {text : String} {items : List Written}
    (h : WrittenRecords text items) :
    (∃ objects : List Fields, Record.parse text = .ok (Record.ofFields objects) ∧
        (Written.array items).Gives (.array (objects.map .object))) ∨
      (∃ fault, Record.parse text = .error (.malformed fault) ∧
        fault.reason = .numberOutOfRange) ∧ (Written.array items).value? = none := by
  cases hvalue : (Written.array items).value? with
  | none =>
    obtain ⟨fault, hfault, hreason⟩ :=
      readObjects_of_valueless h.document h.objects h.nesting hvalue
    exact .inr ⟨⟨fault, by rw [Record.parse, hfault], hreason⟩, rfl⟩
  | some value =>
    have hnumbers := (Written.isSome_value?_iff (.array items)).1 (by rw [hvalue]; rfl)
    obtain ⟨objects, hdocument, hmeans⟩ :=
      recordsText_iff.1 ⟨h.document, h.objects, h.nesting, hnumbers⟩
    exact .inl ⟨objects, Record.parse_of_written hdocument hmeans, hmeans.2⟩

/-- What stands at a place of a record is what is written at that place of its item. -/
theorem Record.at?_of_gives {items : List Written} {objects : List Fields}
    (h : (Written.array items).Gives (.array (objects.map .object))) {index : Nat} {item : Written}
    (hitem : items[index]? = some item) {place : Place} {written : Written}
    (hat : item.at? place = some written) :
    ∃ record value, (Record.ofFields objects)[index]? = some record ∧
      (Value.object record.fields).at? place = some value ∧ written.Gives value := by
  have hwritten : (Written.array items).at? (.item index :: place) = some written := by
    rw [Written.at?, Written.child?, hitem]
    exact hat
  obtain ⟨value, hvalue, hgives⟩ := Written.exists_value_of_at? h hwritten
  rw [Value.at?, Value.child?, List.getElem?_map] at hvalue
  obtain ⟨_, hobject, hinner⟩ := Option.bind_eq_some_iff.1 hvalue
  obtain ⟨fields, hfields, rfl⟩ := Option.map_eq_some_iff.1 hobject
  refine ⟨⟨index, fields⟩, value, ?_, hinner, hgives⟩
  rw [Record.getElem?_ofFields, hfields, Option.map_some]

/-- Of a text that is read, the number that is written at a place is at that place of the record. -/
theorem Record.at?_of_parse {text : String} {items : List Written} (h : WrittenRecords text items)
    {records : List Record} (hrecords : Record.parse text = .ok records) {index : Nat}
    {item : Written} (hitem : items[index]? = some item) {place : Place} {n : Numeral}
    (hat : item.at? place = some (.numeral n)) :
    ∃ record number, records[index]? = some record ∧
      (Value.object record.fields).at? place = some (.number number) ∧
      n.number? = some number := by
  rcases parse_of_writtenRecords h with ⟨objects, hok, hgives⟩ | ⟨⟨fault, hfault, -⟩, -⟩
  · cases hrecords.symm.trans hok
    obtain ⟨record, value, hrecord, hvalue, hnumeral⟩ := at?_of_gives hgives hitem hat
    obtain ⟨number, hnumber, rfl⟩ := Option.map_eq_some_iff.1 hnumeral
    exact ⟨record, number, hrecord, hvalue, hnumber⟩
  · cases hrecords.symm.trans hfault

/-! ## Payloads -/

namespace Record

variable {options : Options} {record : Record} {key : String} {payload : Fields}

theorem find?_kept {name : String} (hopcode : name ≠ options.opcodeField)
    (hapart : name ≠ options.prefixField) :
    Members.find? (record.kept options) name = record.fields.find? name := by
  rw [← remove_both, Members.find?_remove, if_neg hapart, Members.find?_remove, if_neg hopcode]

/-- Of a record with a key the payload is what is kept, and the numeral fields hold strings. -/
theorem payload_of_keyed (hnames : record.fields.names.Nodup)
    (h : record.keyed options = .ok (key, payload)) :
    payload = record.kept options ∧
      ∀ name, name = options.opcodeField ∨ name = options.prefixField →
        ∀ value, record.fields.find? name = some value → ∃ text, value = .string text := by
  obtain ⟨result, hresult⟩ := exists_yields hnames options
  rw [hresult.keyed_eq hnames] at h
  subst h
  have hstring : ∀ {name text : String}, (name, .string text) ∈ record.fields →
      ∀ value, record.fields.find? name = some value → ∃ text, value = .string text := by
    intro name text hmem value hvalue
    rw [(Members.find?_eq_some_iff hnames).2 hmem] at hvalue
    exact ⟨text, (Option.some_inj.1 hvalue).symm⟩
  cases hresult with
  | unprefixed hmem hlong hnone =>
    refine ⟨rfl, ?_⟩
    rintro name (rfl | rfl) value hvalue
    · exact hstring hmem value hvalue
    · rcases hnone with hsame | hnone
      · rw [hsame] at hvalue
        exact hstring hmem value hvalue
      · rw [Members.find?_eq_none_iff.2 hnone] at hvalue
        cases hvalue
  | prefixed hmem hlong hother hprefixed htext =>
    refine ⟨rfl, ?_⟩
    rintro name (rfl | rfl) value hvalue
    · exact hstring hmem value hvalue
    · exact hstring hprefixed value hvalue

/-- The payload of a record has the numbers of the record, at the same places. -/
theorem payload_at? (hnames : record.fields.names.Nodup)
    (h : record.keyed options = .ok (key, payload)) {place : Place} {n : Number}
    (hat : (Value.object record.fields).at? place = some (.number n)) :
    (Value.object payload).at? place = some (.number n) := by
  obtain ⟨rfl, hstring⟩ := payload_of_keyed hnames h
  rcases place with _ | ⟨index | name, rest⟩
  · cases hat
  · cases hat
  · obtain ⟨value, hvalue, hinner⟩ := Option.bind_eq_some_iff.1 hat
    have hother : ¬(name = options.opcodeField ∨ name = options.prefixField) := by
      intro hname
      obtain ⟨text, rfl⟩ := hstring name hname value hvalue
      cases rest <;> cases hinner
    obtain ⟨hopcode, hapart⟩ := not_or.1 hother
    rw [Value.at?, Value.child?, find?_kept hopcode hapart]
    exact hat

end Record

/-! ## Writing the table -/

namespace Conversion

theorem Keyed.exists_entry {options : Options} {records : List Record}
    {entries : List (String × Fields)} (h : Keyed options records entries) {index : Nat}
    {record : Record} (hrecord : records[index]? = some record) :
    ∃ entry, entries[index]? = some entry ∧ record.keyed options = .ok entry := by
  have hplace : (records.map (Record.keyed options))[index]? = (entries.map .ok)[index]? := by
    rw [h]
  rw [List.getElem?_map, List.getElem?_map, hrecord] at hplace
  obtain ⟨entry, hentry, hkeyed⟩ := Option.map_eq_some_iff.1 hplace.symm
  exact ⟨entry, hentry, hkeyed.symm⟩

/-- In the table that a conversion writes there is a member for each entry, in order, and what is
written for it gives the payload, with the floating-point numbers as they are read again. -/
theorem exists_written_of_convertText {options : Options} {text out : String}
    (h : convertText options text = .ok out) :
    ∃ records entries members, Record.parse text = .ok records ∧ Keyed options records entries ∧
      DocumentText WrittenText out.toList (.object members) ∧
      List.Forall₂ (fun member entry => member.1 = entry.1 ∧
        member.2.Gives ((Value.object entry.2).mapFloats rereadNumber)) members entries := by
  obtain ⟨records, entries, hrecords, hkeyed, rfl⟩ := exists_keyed_of_convertText h
  have htable := collectionText_tableText rereadFields (valueText_of_keyed hrecords hkeyed)
  have hitem : ∀ text value, ValueText (maxDepth - 1) text value ↔
      ∃ written, WrittenText text written ∧ Written.Means (maxDepth - 1) written value :=
    fun _ _ => valueText_iff_written
  obtain ⟨members, hmembers, hall⟩ := (collectionText_iff (memberText_iff hitem) _ _).1 htable
  have hdocument := DocumentText.document blankText_nil (WrittenText.object hmembers) blankText_nil
  rw [List.nil_append, List.append_nil] at hdocument
  refine ⟨records, entries, members, hrecords, hkeyed, hdocument, ?_⟩
  exact (List.forall₂_map_right_iff.1 hall).imp fun member entry hmember =>
    ⟨hmember.1, hmember.2.2⟩

theorem numeral_of_gives {written : Written} {number : Number}
    (h : written.Gives (.number number)) :
    ∃ n, written = .numeral n ∧ n.number? = some number := by
  cases written with
  | numeral n =>
    obtain ⟨found, hfound, heq⟩ := Option.map_eq_some_iff.1 h
    cases heq
    exact ⟨n, rfl, hfound⟩
  | null | boolean | string => cases h
  | array | object =>
    obtain ⟨_, -, heq⟩ := Option.map_eq_some_iff.1 h
    cases heq

theorem wholeText_of_at? {text : List Char} {written : Written} (h : WrittenText text written)
    {place : Place} {n : Numeral} (hat : written.at? place = some (.numeral n)) :
    WholeText n.whole := by
  obtain ⟨front, hinner⟩ := h.of_at? hat
  cases hinner with
  | numeral hinner => exact hinner.wholeText

/-- Where an integer stands that fits, its literal is what is written for it, and nothing else. -/
theorem at?_eq_of_gives {text : List Char} {written : Written} (h : WrittenText text written)
    {value : Value} (hgives : written.Gives value)
    {place : Place} {n : Numeral} (hn : WholeText n.whole) (hwhole : n.IsWhole) (hfits : n.Fits)
    (hat : value.at? place = some (.number (.integer n.denoted))) :
    written.at? place = some (.numeral n) := by
  obtain ⟨found, hfound, hinner⟩ := Written.exists_of_at? hgives hat
  obtain ⟨m, rfl, hm⟩ := numeral_of_gives hinner
  have hdigits := wholeText_of_at? h hfound
  obtain ⟨hmWhole, hmFits, hsame⟩ := (Numeral.number?_eq_integer_iff hdigits).1 hm
  rw [hfound, Numeral.eq_of_denoted_eq hdigits hn hmWhole hwhole hmFits hfits hsame]

/-- An integer of a record that fits is written at the same place of the entry. -/
theorem exists_written_integer {options : Options} {text out : String}
    (hout : convertText options text = .ok out) {records : List Record}
    (hrecords : Record.parse text = .ok records) {index : Nat} {record : Record}
    (hrecord : records[index]? = some record) {place : Place} {n : Numeral}
    (hdigits : WholeText n.whole) (hwhole : n.IsWhole) (hfits : n.Fits)
    (hat : (Value.object record.fields).at? place = some (.number (.integer n.denoted))) :
    ∃ members member, DocumentText WrittenText out.toList (.object members) ∧
      members[index]? = some member ∧ member.2.at? place = some (.numeral n) := by
  obtain ⟨found, entries, members, hfound, hkeyed, hdocument, hall⟩ :=
    exists_written_of_convertText hout
  cases hfound.symm.trans hrecords
  have hnames := (readable_of_parse hrecords record (List.mem_of_getElem? hrecord)).names_nodup
  obtain ⟨⟨key, payload⟩, hentry, hpayload⟩ := hkeyed.exists_entry hrecord
  have hrel := forall₂_iff_getElem?.1 hall index
  rw [hentry] at hrel
  obtain ⟨member, hmember, -, hgives⟩ := rel_some_right_iff.1 hrel
  obtain ⟨table, htable⟩ := hdocument.exists_text
  obtain ⟨front, hfront⟩ := htable.of_member (List.mem_of_getElem? hmember)
  have hinteger : ((Value.object payload).mapFloats rereadNumber).at? place =
      some (.number (.integer n.denoted)) := by
    rw [Value.at?_mapFloats, Record.payload_at? hnames hpayload hat]
    rfl
  exact ⟨members, member, hdocument, hmember,
    at?_eq_of_gives hfront hgives hdigits hwhole hfits hinteger⟩

/-- **Integers pass through digit for digit, or not as integers.**  Take an integer that is written
anywhere in a record, with any number of digits, in a text that may hold records; there is one way
to write it.  The text is malformed only because a number is out of range, and that is another one
if the integer fits into 64 bits and is no minus zero.  If the text is read, the integer is at its
place what it denotes if it fits and is no minus zero, and a floating-point number with its sign if
not.  And if such a text is converted and the integer fits, it is written at the same place of the
entry. -/
theorem integers_of_convertText {text : String} {items : List Written}
    (h : WrittenRecords text items) {index : Nat} {item : Written} {place : Place} {n : Numeral}
    (hitem : items[index]? = some item) (hat : item.at? place = some (.numeral n))
    (hwhole : n.IsWhole) :
    (∀ front, NumeralText front n → front = n.literal) ∧
    (∀ error, Record.parse text = .error error →
      (∃ fault, error = .malformed fault ∧ fault.reason = .numberOutOfRange) ∧
        ∃ m ∈ (Written.array items).numerals, m.number? = none ∧ (n.Fits → m ≠ n)) ∧
    (∀ records, Record.parse text = .ok records →
      ∃ record number, records[index]? = some record ∧
        (Value.object record.fields).at? place = some (.number number) ∧
        (n.Fits → number = .integer n.denoted) ∧
        (¬n.Fits → ∃ x : Binary64, number = .float x ∧ x.negative = n.negative)) ∧
    ∀ options out, convertText options text = .ok out → n.Fits →
      ∃ members member, DocumentText WrittenText out.toList (.object members) ∧
        members[index]? = some member ∧ member.2.at? place = some (.numeral n) := by
  have hplace : (Written.array items).at? (.item index :: place) = some (.numeral n) := by
    rw [Written.at?, Written.child?, hitem]
    exact hat
  obtain ⟨source, hsource⟩ := h.document.exists_text
  have hdigits := wholeText_of_at? hsource hplace
  have hfits : n.Fits → n.number? = some (.integer n.denoted) := fun hn =>
    (Numeral.number?_eq_integer_iff hdigits).2 ⟨hwhole, hn, rfl⟩
  refine ⟨fun front hfront => Numeral.eq_literal hfront hwhole, ?_, ?_, ?_⟩
  · intro error herror
    rcases Record.parse_of_writtenRecords h with ⟨_, hok, -⟩ | ⟨⟨fault, hfault, hreason⟩, hnone⟩
    · cases herror.symm.trans hok
    · cases herror.symm.trans hfault
      obtain ⟨m, hm, hlarge⟩ := Written.exists_numeral_of_valueless hnone
      refine ⟨⟨fault, rfl, hreason⟩, m, hm, hlarge, ?_⟩
      rintro hn rfl
      rw [hfits hn] at hlarge
      cases hlarge
  · intro records hrecords
    obtain ⟨record, number, hrecord, hvalue, hnumber⟩ := Record.at?_of_parse h hrecords hitem hat
    refine ⟨record, number, hrecord, hvalue, fun hn => ?_, fun hn =>
      Numeral.exists_float_of_not_fits hdigits hn hnumber⟩
    rw [hfits hn] at hnumber
    exact (Option.some_inj.1 hnumber).symm
  · intro options out hout hn
    obtain ⟨records, -, hrecords, -⟩ := outcome_of_convertText hout
    obtain ⟨record, number, hrecord, hvalue, hnumber⟩ := Record.at?_of_parse h hrecords hitem hat
    rw [hfits hn] at hnumber
    cases hnumber
    exact exists_written_integer hout hrecords hrecord hdigits hwhole hn hvalue

/-- A record with the smallest integer beside one that is too large for an integer. -/
def extremeText : String :=
  "[\x7b\"opcode\":\"0x1\",\"n\":[-9223372036854775808,18446744073709551616]\x7d]"

/-- Where the smallest integer is. -/
def extremePlace : Place :=
  [.member "n", .item 0]

/-- The number at a place of the first record. -/
def firstNumber? (records : List Record) (place : Place) : Option Number := do
  let record ← records.head?
  match (Value.object record.fields).at? place with
  | some (.number n) => some n
  | _ => none

/-- The smallest integer as it is written. -/
def extremeNumeral : Numeral :=
  ⟨true, "9223372036854775808".toList, [], none⟩

theorem exists_written_extremeText : ∃ items item, WrittenRecords extremeText items ∧
    items[0]? = some item ∧ item.at? extremePlace = some (.numeral extremeNumeral) := by
  have hnumber : (Record.parse extremeText).toOption.bind
      (fun records => firstNumber? records extremePlace) =
        some (.integer extremeNumeral.denoted) := by
    decide +kernel
  obtain ⟨records, hrecords, hfirst⟩ := Option.bind_eq_some_iff.1 hnumber
  obtain ⟨objects, hobjects, rfl⟩ := exists_objects_of_parse (eq_ok_of_toOption hrecords)
  obtain ⟨items, hdocument, hmeans⟩ := readObjects_eq_ok_iff_written.1 hobjects
  obtain ⟨-, hflat, hdeep, -⟩ := recordsText_iff.2 ⟨objects, hdocument, hmeans⟩
  obtain ⟨record, hrecord, hvalue⟩ := Option.bind_eq_some_iff.1 hfirst
  have hat : (Value.object record.fields).at? extremePlace =
      some (.number (.integer extremeNumeral.denoted)) := by
    split at hvalue
    · next hfound =>
      cases hvalue
      exact hfound
    · cases hvalue
  have hplace : (Value.array (objects.map .object)).at? (.item 0 :: extremePlace) =
      some (.number (.integer extremeNumeral.denoted)) := by
    obtain ⟨fields, hfields, rfl⟩ : ∃ fields, objects[0]? = some fields ∧
        record = ⟨0, fields⟩ := by
      rw [List.head?_eq_getElem?, Record.getElem?_ofFields] at hrecord
      obtain ⟨fields, hfields, rfl⟩ := Option.map_eq_some_iff.1 hrecord
      exact ⟨fields, hfields, rfl⟩
    rw [Value.at?, Value.child?, List.getElem?_map, hfields]
    exact hat
  obtain ⟨source, hsource⟩ := hdocument.exists_text
  have hwhole : WholeText extremeNumeral.whole :=
    .digits (by decide) (by decide) (List.all_eq_true.1 (by decide))
  have hwritten := at?_eq_of_gives hsource hmeans.2 hwhole ⟨rfl, rfl⟩ (by decide) hplace
  obtain ⟨item, hitem, hinner⟩ := Option.bind_eq_some_iff.1 hwritten
  exact ⟨items, item, ⟨hdocument, hflat, hdeep⟩, hitem, hinner⟩

theorem integers_of_extremeText : ∃ items item out members member,
    WrittenRecords extremeText items ∧ items[0]? = some item ∧
    item.at? extremePlace = some (.numeral extremeNumeral) ∧ extremeNumeral.IsWhole ∧
    extremeNumeral.Fits ∧ convertText {} extremeText = .ok out ∧
    DocumentText WrittenText out.toList (.object members) ∧
    members[0]? = some member ∧
    member.2.at? extremePlace = some (.numeral extremeNumeral) := by
  obtain ⟨items, item, hwritten, hitem, hat⟩ := exists_written_extremeText
  have hwhole : extremeNumeral.IsWhole := ⟨rfl, rfl⟩
  have hfits : extremeNumeral.Fits := by decide
  have hout : (convertText {} extremeText).toOption = some
      "\x7b\"0x1\":\x7b\"n\":[-9223372036854775808,1.8446744073709552e+19]\x7d\x7d" := by
    decide +kernel
  obtain ⟨-, -, -, hconverted⟩ := integers_of_convertText hwritten hitem hat hwhole
  obtain ⟨members, member, hdocument, hmember, hvalue⟩ :=
    hconverted {} _ (eq_ok_of_toOption hout) hfits
  exact ⟨items, item, _, members, member, hwritten, hitem, hat, hwhole, hfits,
    eq_ok_of_toOption hout, hdocument, hmember, hvalue⟩

end Conversion

end OpcodeTable
