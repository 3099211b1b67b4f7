import OpcodeTable.Proofs.Conversion.Batch
import OpcodeTable.Proofs.Json.RereadFloat
import OpcodeTable.Proofs.TableDocument

/-!
# Reading a converted table back

What a conversion writes is the text of one object, whose members are the entries of the records.
Reading it gives the members put together, which is where an entry that overrides an earlier one
takes its place.  That the text can be read at all needs the entries to be no deeper in the table
than the records are in the list that they come from.

## What is here

* `Conversion.tableText_eq`, the text of the table as that of an object.
* `Conversion.readable_of_parse`, what is known of records because they were read, and
  `Conversion.readable_of_sublist`, which takes it over to their payloads.
* `Conversion.parse_tableText_map` and `Conversion.parse_tableText`, what is read of the text of a
  table, and `Conversion.valueText_of_keyed`, by which the entries of records can be read.
* `Conversion.exists_table_of_keyed`, the table that is read back, whatever its numbers are.
* `Conversion.parse_convertText`, the table that is read back.
-/

set_option autoImplicit false

namespace OpcodeTable

open Json

/-- The fields of an object as they are after they have been written and read again. -/
def rereadFields (fields : Fields) : Fields :=
  Value.mapMemberFloats rereadNumber fields

theorem rereadFields_of_readsBack {fields : Fields}
    (h : ∀ x ∈ Value.memberFloats fields, readsBack x = true) : rereadFields fields = fields := by
  have hsame : ∀ x ∈ Value.memberFloats fields, rereadNumber x = .float x := by
    intro x hx
    rw [rereadNumber, reread?_of_readsBack (h x hx), Option.getD_some]
  rw [rereadFields, Value.mapMemberFloats_congr fields hsame, Value.mapMemberFloats_float]

namespace Conversion

/-- The entry as a member that holds an object. -/
def entryMember (entry : String × Fields) : String × Value :=
  (entry.1, .object entry.2)

/-- The text of a table is that of an object. -/
theorem tableText_eq (entries : List (String × Fields)) :
    TableText.opening ++ TableText.body entries ++ TableText.closing =
      Value.text (.object (entries.map entryMember)) := by
  rw [Value.text_object, List.map_map]
  rfl

/-! ## Payloads -/

theorem remove_sublist (fields : Fields) (name : String) : (fields.remove name).Sublist fields :=
  List.filter_sublist

/-- The payload is what is left of the fields of a record. -/
theorem payload_sublist {options : Options} {record : Record} {key : String} {payload : Fields}
    (h : record.keyed options = .ok (key, payload)) : payload.Sublist record.fields := by
  have hothers := remove_sublist record.fields options.opcodeField
  rw [Record.keyed_eq] at h
  split at h
  · cases h
  · next opcode hopcode =>
    cases hdigits : numeral record.index options.opcodeField opcode with
    | error error =>
      rw [hdigits] at h
      cases h
    | ok digits =>
      simp only [hdigits, Except.bind] at h
      split at h
      · cases h
        exact hothers
      · next value hvalue =>
        split at h
        · cases h
        · cases h
          exact (remove_sublist _ _).trans hothers

theorem readable_of_sublist {depth : Nat} {fields others : Fields}
    (h : Readable depth (.object fields)) (hothers : others.Sublist fields) :
    Readable depth (.object others) := by
  cases h with
  | object hnames h =>
    exact .object (hnames.sublist (hothers.map Prod.fst)) fun field hmem =>
      h field (hothers.subset hmem)

/-- The fields of records that were read. -/
theorem readable_of_parse {text : String} {records : List Record}
    (h : Record.parse text = .ok records) :
    ∀ record ∈ records, Readable (maxDepth - 1) (.object record.fields) := by
  obtain ⟨objects, hobjects, rfl⟩ := exists_objects_of_parse h
  intro record hrecord
  obtain ⟨⟨fields, index⟩, hmem, rfl⟩ := List.mem_map.1 hrecord
  obtain ⟨inner, hlist⟩ := (readObjects_eq_ok_iff.1 hobjects).exists_text
  obtain ⟨front, hfront⟩ := hlist.exists_text fields (List.fst_mem_of_mem_zipIdx hmem)
  exact hfront.readable ValueText.readable

/-- Every entry is that of a record. -/
theorem Keyed.exists_record {options : Options} {records : List Record}
    {entries : List (String × Fields)} (h : Keyed options records entries)
    {entry : String × Fields} (hmem : entry ∈ entries) :
    ∃ record ∈ records, record.keyed options = .ok entry := by
  have hok : (.ok entry : Except Error (String × Fields)) ∈ entries.map .ok :=
    List.mem_map_of_mem hmem
  rw [← h] at hok
  exact List.mem_map.1 hok

/-! ## The table -/

/-- The floating-point numbers in the payloads of the records that a text holds. -/
def payloadFloats (options : Options) (text : String) : List Binary64 :=
  match Record.parse text with
  | .error _ => []
  | .ok records => records.flatMap fun record =>
    match record.keyed options with
    | .error _ => []
    | .ok (_, payload) => Value.memberFloats payload

theorem mem_payloadFloats {options : Options} {text : String} {records : List Record}
    (h : Record.parse text = .ok records) {record : Record} (hmem : record ∈ records)
    {entry : String × Fields} (hentry : record.keyed options = .ok entry) {x : Binary64}
    (hx : x ∈ Value.memberFloats entry.2) : x ∈ payloadFloats options text := by
  rw [payloadFloats, h]
  refine List.mem_flatMap.2 ⟨record, hmem, ?_⟩
  rw [hentry]
  exact hx

/-- The text of a table has a member for each entry, with what the text of the entry stands for. -/
theorem collectionText_tableText {entries : List (String × Fields)} (read : Fields → Fields)
    (h : ∀ entry ∈ entries, ValueText (maxDepth - 1) (Value.text (.object entry.2)).toList
      (.object (read entry.2))) :
    CollectionText '{' '}' (MemberText (ValueText (maxDepth - 1)))
      (TableText.opening ++ TableText.body entries ++ TableText.closing).toList
      (entries.map fun entry => entryMember (entry.1, read entry.2)) := by
  have hmembers : CollectionText '{' '}' (MemberText (ValueText (maxDepth - 1))) _ _ :=
    collectionText_intercalate (fun entry => Value.memberText (entryMember entry))
      (fun entry => entryMember (entry.1, read entry.2)) fun entry hmem =>
        memberText_text (h entry hmem)
  have htext : (TableText.opening ++ TableText.body entries ++ TableText.closing).toList =
      '{' :: ((",".intercalate (entries.map fun entry =>
        Value.memberText (entryMember entry))).toList ++ ['}']) := by
    rw [String.toList_append, String.toList_append, List.append_assoc]
    rfl
  rw [htext]
  exact hmembers

/-- The text of a table is read as what the texts of the entries stand for, put together. -/
theorem parse_tableText_map {entries : List (String × Fields)} (read : Fields → Fields)
    (h : ∀ entry ∈ entries, ValueText (maxDepth - 1) (Value.text (.object entry.2)).toList
      (.object (read entry.2))) :
    Table.parse (TableText.opening ++ TableText.body entries ++ TableText.closing) =
      .ok ⟨Members.collect (entries.map fun entry => (entry.1, read entry.2))⟩ := by
  have hdocument := DocumentText.document blankText_nil
    (ObjectText.braces (collectionText_tableText read h)) blankText_nil
  rw [List.nil_append, List.append_nil] at hdocument
  have hcollect : Members.collect (entries.map fun entry => entryMember (entry.1, read entry.2)) =
      (Members.collect (entries.map fun entry => (entry.1, read entry.2))).map
        fun entry => (entry.1, .object entry.2) := by
    rw [← Members.collect_map Value.object, List.map_map]
    rfl
  have hentries := Table.entries?_eq_ok_iff.2 hcollect
  rw [Table.parse, readObject_eq_ok_iff.2 hdocument]
  simp only [hentries]

/-- It is read as the entries put together, if these can be read. -/
theorem parse_tableText {entries : List (String × Fields)}
    (h : ∀ entry ∈ entries, ValueText (maxDepth - 1) (Value.text (.object entry.2)).toList
      (.object entry.2)) :
    Table.parse (TableText.opening ++ TableText.body entries ++ TableText.closing) =
      .ok ⟨Members.collect entries⟩ := by
  have hparse := parse_tableText_map id h
  have hsame : (entries.map fun entry => (entry.1, id entry.2)) = entries := List.map_id _
  rwa [hsame] at hparse

/-- A conversion of a text succeeds if that of its records does. -/
theorem outcome_of_convertText {options : Options} {text out : String}
    (h : convertText options text = .ok out) :
    ∃ records summary, Record.parse text = .ok records ∧
      (script options records).outcome = .ok summary ∧
      String.join (script options records).texts = out := by
  rw [convertText] at h
  cases hrecords : Record.parse text with
  | error error =>
    rw [hrecords] at h
    cases h
  | ok records =>
    rw [hrecords] at h
    change (script options records).outcome.bind
      (fun _ => .ok (String.join (script options records).texts)) = .ok out at h
    cases houtcome : (script options records).outcome with
    | error error =>
      rw [houtcome] at h
      cases h
    | ok summary =>
      rw [houtcome] at h
      exact ⟨records, summary, rfl, houtcome, Except.ok.inj h⟩

/-- It gives the text of the table of all entries. -/
theorem exists_keyed_of_convertText {options : Options} {text out : String}
    (h : convertText options text = .ok out) :
    ∃ records entries, Record.parse text = .ok records ∧ Keyed options records entries ∧
      out = TableText.opening ++ TableText.body entries ++ TableText.closing := by
  obtain ⟨records, summary, hrecords, houtcome, rfl⟩ := outcome_of_convertText h
  obtain ⟨entries, hkeyed, -, hbytes⟩ :=
    exists_keyed_of_ok (numberedFrom_of_parse hrecords) houtcome
  rw [Script.bytes_eq_textBytes, textBytes_inj] at hbytes
  exact ⟨records, entries, hrecords, hkeyed, hbytes⟩

/-- The list around the records took up one level of the nesting that the reader allows, and the
table around the entries takes up one as well. -/
theorem readable_of_keyed {options : Options} {text : String} {records : List Record}
    {entries : List (String × Fields)} (hrecords : Record.parse text = .ok records)
    (hkeyed : Keyed options records entries) {entry : String × Fields} (hmem : entry ∈ entries) :
    Readable (maxDepth - 1) (.object entry.2) ∧
      ∀ x ∈ Value.memberFloats entry.2, x ∈ payloadFloats options text := by
  obtain ⟨record, hrecord, hentry⟩ := hkeyed.exists_record hmem
  have hfields := readable_of_parse hrecords record hrecord
  exact ⟨readable_of_sublist hfields (payload_sublist hentry), fun _ hx =>
    mem_payloadFloats hrecords hrecord hentry hx⟩

/-- What is written for an entry can be read again. -/
theorem valueText_of_keyed {options : Options} {text : String} {records : List Record}
    {entries : List (String × Fields)} (hrecords : Record.parse text = .ok records)
    (hkeyed : Keyed options records entries) :
    ∀ entry ∈ entries, ValueText (maxDepth - 1) (Value.text (.object entry.2)).toList
      (.object (rereadFields entry.2)) := by
  intro entry hmem
  obtain ⟨hentry, -⟩ := readable_of_keyed hrecords hkeyed hmem
  exact valueText_reread hentry

/-- **The text of the table of all entries can be read.**  The table has their keys, and under each
key the payload of the last entry with that key, as it is read again. -/
theorem exists_table_of_keyed {options : Options} {text : String} {records : List Record}
    {entries : List (String × Fields)} (hrecords : Record.parse text = .ok records)
    (hkeyed : Keyed options records entries) :
    ∃ table, Table.parse (TableText.opening ++ TableText.body entries ++ TableText.closing) =
        .ok table ∧ table.keys = (entries.map Prod.fst).eraseDups ∧
      ∀ key, table.get? key = (entries.reverse.lookup key).map rereadFields := by
  refine ⟨_, parse_tableText_map rereadFields (valueText_of_keyed hrecords hkeyed), ?_,
    fun key => ?_⟩
  · rw [Table.keys, Members.names_collect, Members.names_map, Members.names]
  · rw [Table.get?, Members.collect_map, Members.find?_map, Members.find?_collect, Members.find?]

/-- **A converted table is read back as what was converted.**  Its keys are those of the records,
each once and in the order in which they first occur, and under each key it has the payload of the
last record with that key, and nothing under any other key.  Of the floating-point numbers in the
payloads this asks that the reader gives them back from their own text. -/
theorem parse_convertText {options : Options} {text out : String}
    (h : convertText options text = .ok out)
    (hfloats : ∀ x ∈ payloadFloats options text, readsBack x = true) :
    ∃ (records : List Record) (entries : List (String × Fields)) (table : Table),
      Record.parse text = .ok records ∧
      records.map (Record.keyed options) = entries.map .ok ∧
      Table.parse out = .ok table ∧
      table.keys = (entries.map Prod.fst).eraseDups ∧
      ∀ key, table.get? key = entries.reverse.lookup key := by
  obtain ⟨records, entries, hrecords, hkeyed, rfl⟩ := exists_keyed_of_convertText h
  have hreadable : ∀ entry ∈ entries, ValueText (maxDepth - 1)
      (Value.text (.object entry.2)).toList (.object entry.2) := by
    intro entry hmem
    obtain ⟨hentry, hsource⟩ := readable_of_keyed hrecords hkeyed hmem
    exact valueText_text hentry fun x hx => hfloats x (hsource x hx)
  exact ⟨records, entries, _, hrecords, hkeyed, parse_tableText hreadable,
    Members.names_collect entries, Members.find?_collect entries⟩

theorem eq_ok_of_toOption {ε α : Type} {result : Except ε α} {value : α}
    (h : result.toOption = some value) : result = .ok value := by
  cases result with
  | error error => cases h
  | ok found => rw [Option.some_inj.1 h]

/-- Three records, the last of which has the key of the first. -/
def overridingRecords : String :=
  "[\x7b\"op\":\"0xA\",\"x\":\"\\u00e9\\\"\"\x7d,\x7b\"op\":\"0x\\u0001\",\"c\":[1.5,-7]\x7d," ++
    "\x7b\"x\":\"\\n\",\"op\":\"0xA\"\x7d]"

/-- The options under which they are converted. -/
def overridingOptions : Options :=
  { opcodeField := "op", duplicates := .overwrite }

theorem parse_convertText_overridingRecords :
    ∃ out, convertText overridingOptions overridingRecords = .ok out ∧
      (∀ x ∈ payloadFloats overridingOptions overridingRecords, readsBack x = true) ∧
      ∃ (records : List Record) (entries : List (String × Fields)) (table : Table),
        Record.parse overridingRecords = .ok records ∧
        records.map (Record.keyed overridingOptions) = entries.map .ok ∧
        Table.parse out = .ok table ∧
        table.keys = (entries.map Prod.fst).eraseDups ∧
        ∀ key, table.get? key = entries.reverse.lookup key := by
  have hout : (convertText overridingOptions overridingRecords).toOption = some
      ("\x7b\"0xA\":\x7b\"x\":\"é\\\"\"\x7d,\"0x\\u0001\":\x7b\"c\":[1.5,-7]\x7d," ++
        "\"0xA\":\x7b\"x\":\"\\n\"\x7d\x7d") := by
    decide +kernel
  have hfloats : ∀ x ∈ payloadFloats overridingOptions overridingRecords, readsBack x = true := by
    decide +kernel
  exact ⟨_, eq_ok_of_toOption hout, hfloats, parse_convertText (eq_ok_of_toOption hout) hfloats⟩

end Conversion
end OpcodeTable
