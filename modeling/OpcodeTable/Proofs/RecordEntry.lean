import OpcodeTable.Proofs.Conversion.Progress

/-!
# The entry of a record

A record's entry is made by taking two fields out of it and leaving the others alone.  What comes of
it is said here by rules that speak of the members of the record only, one rule for each way that it
can go: which of several defects is reported, and which characters make up the key.  The rules say
the same as the definition, for every record whose fields have different names, as those of every
record that was read have.

## What is here

* `Json.Value.IsNumeral` and `afterMarker`, the values that a numeral field may hold, and their
  digits.
* `Record.Yields`, the rules.
* `Record.Yields.keyed_eq`, that they do not contradict the definition, `Record.exists_yields`, that
  there is a rule for every record, and `Record.toEntry_outcome_iff_yields`, both together.
-/

set_option autoImplicit false

namespace OpcodeTable

open Json

/-- A string of at least two characters. -/
def Json.Value.IsNumeral (value : Value) : Prop :=
  ∃ text, value = .string text ∧ 2 ≤ text.length

/-- A text without its first two characters. -/
def afterMarker (text : String) : String :=
  String.ofList (text.toList.drop 2)

theorem numeral_of_string {text : String} (h : 2 ≤ text.length) (index : Nat) (field : String) :
    numeral index field (.string text) = .ok (afterMarker text) := by
  rw [← String.length_toList] at h
  rw [numeral, numeral?, afterMarker]
  match hchars : text.toList with
  | [] | [_] => simp [hchars] at h
  | _ :: _ :: digits => rfl

theorem numeral_of_not_isNumeral {value : Value} (h : ¬value.IsNumeral) (index : Nat)
    (field : String) :
    numeral index field value = .error (.badNumeral index field (descriptionOf value)) := by
  cases value with
  | string text =>
    have hshort : ¬2 ≤ text.length := fun hlong => h ⟨text, rfl, hlong⟩
    rw [← String.length_toList] at hshort
    rw [numeral, numeral?]
    match hchars : text.toList with
    | [] | [_] => rfl
    | _ :: _ :: _ => simp [hchars] at hshort
  | _ => rfl

namespace Record

/-- The fields of a record that its entry keeps, in order. -/
def kept (options : Options) (record : Record) : Fields :=
  record.fields.filter fun field =>
    field.1 ≠ options.opcodeField ∧ field.1 ≠ options.prefixField

/-- What comes of a record.  The opcode field is looked at before the prefix field, and a prefix
field with the name of the opcode field is none. -/
inductive Yields (options : Options) (record : Record) : Except Error (String × Fields) → Prop
  | opcodeMissing (h : options.opcodeField ∉ record.fields.names) :
      Yields options record (.error (.missingField record.index options.opcodeField))
  | opcodeBad {opcode : Value} (h : (options.opcodeField, opcode) ∈ record.fields)
      (hopcode : ¬opcode.IsNumeral) :
      Yields options record
        (.error (.badNumeral record.index options.opcodeField (descriptionOf opcode)))
  | prefixBad {opcode value : Value} (h : (options.opcodeField, opcode) ∈ record.fields)
      (hopcode : opcode.IsNumeral) (hother : options.prefixField ≠ options.opcodeField)
      (hprefixed : (options.prefixField, value) ∈ record.fields) (hvalue : ¬value.IsNumeral) :
      Yields options record
        (.error (.badNumeral record.index options.prefixField (descriptionOf value)))
  | unprefixed {opcode : String} (h : (options.opcodeField, .string opcode) ∈ record.fields)
      (hopcode : 2 ≤ opcode.length)
      (hnone : options.prefixField = options.opcodeField ∨
        options.prefixField ∉ record.fields.names) :
      Yields options record (.ok ("0x" ++ afterMarker opcode, record.kept options))
  | prefixed {opcode text : String} (h : (options.opcodeField, .string opcode) ∈ record.fields)
      (hopcode : 2 ≤ opcode.length) (hother : options.prefixField ≠ options.opcodeField)
      (hprefixed : (options.prefixField, .string text) ∈ record.fields) (htext : 2 ≤ text.length) :
      Yields options record
        (.ok ("0x" ++ afterMarker text ++ afterMarker opcode, record.kept options))

variable {options : Options} {record : Record}

/-- The two fields go one after the other. -/
theorem remove_both (options : Options) (record : Record) :
    (record.fields.remove options.opcodeField).remove options.prefixField =
      record.kept options := by
  simp only [Members.remove, kept, List.filter_filter]
  congr 1
  funext field
  simp [Bool.and_comm]

/-- If there is no prefix field besides the opcode field, only the latter goes. -/
theorem remove_of_no_prefix
    (h : (record.fields.remove options.opcodeField).find? options.prefixField = none) :
    record.fields.remove options.opcodeField = record.kept options := by
  rw [← remove_both]
  refine (List.filter_eq_self.2 fun field hmem => ?_).symm
  have hne : field.1 ≠ options.prefixField := fun heq =>
    Members.find?_eq_none_iff.1 h (List.mem_map.2 ⟨field, hmem, heq⟩)
  simpa using hne

/-- The prefix field is looked for among the fields that are left. -/
theorem find?_prefix_eq_none_iff :
    (record.fields.remove options.opcodeField).find? options.prefixField = none ↔
      options.prefixField = options.opcodeField ∨ options.prefixField ∉ record.fields.names := by
  rw [Members.find?_remove, ← Members.find?_eq_none_iff]
  split
  · next heq => simp [heq]
  · next hne => simp [hne]

section

variable (hnames : record.fields.names.Nodup)

include hnames

theorem find?_prefix_eq_some_iff {value : Value} :
    (record.fields.remove options.opcodeField).find? options.prefixField = some value ↔
      options.prefixField ≠ options.opcodeField ∧
        (options.prefixField, value) ∈ record.fields := by
  rw [Members.find?_remove, ← Members.find?_eq_some_iff hnames]
  split
  · next heq => simp [heq]
  · next hne => simp [hne]

/-- What a rule yields is what comes of the record. -/
theorem Yields.keyed_eq {result : Except Error (String × Fields)}
    (h : record.Yields options result) : record.keyed options = result := by
  rw [Record.keyed_eq]
  cases h with
  | opcodeMissing h => rw [Members.find?_eq_none_iff.2 h]
  | opcodeBad h hopcode =>
    rw [(Members.find?_eq_some_iff hnames).2 h]
    dsimp only
    rw [numeral_of_not_isNumeral hopcode]
    rfl
  | prefixBad h hopcode hother hprefixed hvalue =>
    obtain ⟨opcode, rfl, hlong⟩ := hopcode
    rw [(Members.find?_eq_some_iff hnames).2 h]
    dsimp only
    rw [numeral_of_string hlong, Except.bind,
      (find?_prefix_eq_some_iff hnames).2 ⟨hother, hprefixed⟩]
    dsimp only
    rw [numeral_of_not_isNumeral hvalue]
    rfl
  | unprefixed h hopcode hnone =>
    have hprefixed := find?_prefix_eq_none_iff.2 hnone
    rw [(Members.find?_eq_some_iff hnames).2 h]
    dsimp only
    rw [numeral_of_string hopcode, Except.bind, hprefixed, remove_of_no_prefix hprefixed]
    rfl
  | prefixed h hopcode hother hprefixed htext =>
    rw [(Members.find?_eq_some_iff hnames).2 h]
    dsimp only
    rw [numeral_of_string hopcode, Except.bind,
      (find?_prefix_eq_some_iff hnames).2 ⟨hother, hprefixed⟩]
    dsimp only
    rw [numeral_of_string htext, Except.bind, remove_both]
    rfl

/-- There is a rule for every record. -/
theorem exists_yields (options : Options) : ∃ result, record.Yields options result := by
  cases hfind : record.fields.find? options.opcodeField with
  | none => exact ⟨_, .opcodeMissing (Members.find?_eq_none_iff.1 hfind)⟩
  | some opcode =>
    have hmem := (Members.find?_eq_some_iff hnames).1 hfind
    by_cases hopcode : opcode.IsNumeral
    · cases hprefixed : (record.fields.remove options.opcodeField).find? options.prefixField with
      | none =>
        obtain ⟨text, rfl, hlong⟩ := hopcode
        exact ⟨_, .unprefixed hmem hlong (find?_prefix_eq_none_iff.1 hprefixed)⟩
      | some value =>
        obtain ⟨hother, hvalue⟩ := (find?_prefix_eq_some_iff hnames).1 hprefixed
        by_cases hnumeral : value.IsNumeral
        · obtain ⟨text, rfl, hlong⟩ := hopcode
          obtain ⟨digits, rfl, hdigits⟩ := hnumeral
          exact ⟨_, .prefixed hmem hlong hother hvalue hdigits⟩
        · exact ⟨_, .prefixBad hmem hopcode hother hvalue hnumeral⟩
    · exact ⟨_, .opcodeBad hmem hopcode⟩

/-- **A record's entry is the record with the two numerals taken out.**  The rules hold of exactly
what comes of a record, so they leave nothing open and do not overlap: what is missing or no numeral
is reported for the opcode before it is for the prefix, the key is made of both numerals without
their first two characters, and all other fields stay as they are, in their order. -/
theorem toEntry_outcome_iff_yields (options : Options) (result : Except Error (String × Fields)) :
    (record.toEntry options).outcome = result ↔ record.Yields options result := by
  change record.keyed options = result ↔ _
  refine ⟨?_, Yields.keyed_eq hnames⟩
  rintro rfl
  obtain ⟨result, hresult⟩ := exists_yields hnames options
  rwa [hresult.keyed_eq hnames]

end

/-- A record whose numerals have markers of other characters, with fields before, between and behind
them. -/
def markedRecord : Record where
  index := 4
  fields :=
    [("note", .null), ("prefix", .string "$éCB"), ("bytes", .number (.integer 2)),
      ("opcode", .string "åäFF"), ("op", .string "opcode")]

theorem toEntry_outcome_markedRecord :
    markedRecord.fields.names.Nodup ∧
      markedRecord.Yields {} (.ok ("0xCBFF",
        [("note", .null), ("bytes", .number (.integer 2)), ("op", .string "opcode")])) := by
  have hnames : markedRecord.fields.names.Nodup := by decide
  exact ⟨hnames, (toEntry_outcome_iff_yields hnames {} _).1 (by rfl)⟩

end Record

end OpcodeTable
