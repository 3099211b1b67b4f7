import OpcodeTable.Conversion
import OpcodeTable.Proofs.Json.Members
import OpcodeTable.Proofs.Script

/-!
# What a conversion knows about the entries it has written

A conversion keeps a map from keys to the last record with each key, and a count of the entries
written.  `Conversion.Progress.Covers` says what the two have to do with the entries themselves,
and this file proves that dealing with one record keeps it that way.

## What is here

* `Record.keyed`, the key and the payload of a record, and `Record.keyed_eq`, what they are.
* `lastPlace?`, the last place of a key in a list.
* `TableText.body`, the text of entries with commas between them.
* `Conversion.entry_of_keyed_error`, `Conversion.entry_of_duplicate` and
  `Conversion.entry_of_accepted`, the three things that can become of a record.
-/

set_option autoImplicit false

namespace OpcodeTable

open Json

/-- The key and the payload of a record, or why it has none. -/
def Record.keyed (options : Options) (record : Record) : Except Error (String × Fields) :=
  (record.toEntry options).outcome

/-- The opcode field is looked at first, and then the prefix field among the others. -/
theorem Record.keyed_eq (options : Options) (record : Record) :
    record.keyed options =
      match record.fields.find? options.opcodeField with
      | none => .error (.missingField record.index options.opcodeField)
      | some opcode =>
        (numeral record.index options.opcodeField opcode).bind fun opcodeDigits =>
          let others := record.fields.remove options.opcodeField
          match others.find? options.prefixField with
          | none => .ok (tableKey "" opcodeDigits, others)
          | some prefixValue =>
            (numeral record.index options.prefixField prefixValue).bind fun prefixDigits =>
              .ok (tableKey prefixDigits opcodeDigits, others.remove options.prefixField) := by
  rw [keyed, toEntry]
  cases record.fields.find? options.opcodeField with
  | none => rfl
  | some opcode =>
    dsimp only
    cases numeral record.index options.opcodeField opcode with
    | error error => exact Script.outcome_bind_of_error rfl _
    | ok digits =>
      rw [Script.outcome_bind_of_ok rfl, Script.outcome_bind_of_ok rfl]
      dsimp only [Except.bind]
      cases (record.fields.remove options.opcodeField).find? options.prefixField with
      | none => rfl
      | some value =>
        dsimp only
        rw [Script.outcome_bind_of_ok rfl]
        cases numeral record.index options.prefixField value with
        | error error => exact Script.outcome_bind_of_error rfl _
        | ok more => exact Script.outcome_bind_of_ok rfl _

/-! ## The last place of a key -/

/-- The last place at which a key stands in a list. -/
def lastPlace? (keys : List String) (key : String) : Option Nat :=
  (keys.zipIdx.filter fun entry => entry.1 = key).getLast?.map Prod.snd

theorem lastPlace?_append_singleton (keys : List String) (new key : String) :
    lastPlace? (keys ++ [new]) key =
      if new = key then some keys.length else lastPlace? keys key := by
  rw [lastPlace?, List.zipIdx_append, List.filter_append]
  by_cases heq : new = key
  · simp [heq]
  · simp [heq, lastPlace?]

theorem lastPlace?_eq_none_iff {keys : List String} {key : String} :
    lastPlace? keys key = none ↔ key ∉ keys := by
  rw [lastPlace?, Option.map_eq_none_iff, List.getLast?_eq_none_iff, List.filter_eq_nil_iff]
  refine ⟨fun h hmem => ?_, fun h entry hentry heq => ?_⟩
  · obtain ⟨place, hplace⟩ := List.mem_iff_getElem?.1 hmem
    exact h (key, place) (List.mem_zipIdx_iff_getElem?.2 hplace) (by simp)
  · have hkey : entry.1 = key := of_decide_eq_true heq
    exact h (hkey ▸ List.mem_of_getElem? (List.mem_zipIdx_iff_getElem?.1 hentry))

/-- The last place of a key has the key, and no place behind it has. -/
theorem lastPlace?_eq_some_iff {keys : List String} {key : String} {place : Nat} :
    lastPlace? keys key = some place ↔
      keys[place]? = some key ∧ ∀ later, place < later → keys[later]? ≠ some key := by
  induction keys using List.reverseRecOn with
  | nil => simp [lastPlace?]
  | append_singleton before new ih =>
    rw [lastPlace?_append_singleton]
    constructor
    · intro h
      split at h
      · next heq =>
        cases h
        refine ⟨by simp [heq], fun later hlater => ?_⟩
        rw [List.getElem?_eq_none (by simp; omega)]
        exact (Option.some_ne_none key).symm
      · next hne =>
        obtain ⟨hkey, hlast⟩ := ih.1 h
        have hlt := (List.getElem?_eq_some_iff.1 hkey).1
        refine ⟨by rw [List.getElem?_append_left hlt, hkey], fun later hlater => ?_⟩
        rw [List.getElem?_append]
        split
        · exact hlast later hlater
        · intro hnew
          exact hne (List.mem_singleton.1 (List.mem_of_getElem? hnew)).symm
    · rintro ⟨hkey, hlast⟩
      split
      · next heq =>
        have hle : ¬place < before.length := fun hlt => hlast _ hlt (by simp [heq])
        have hlt := (List.getElem?_eq_some_iff.1 hkey).1
        rw [List.length_append, List.length_singleton] at hlt
        rw [show place = before.length by omega]
      · next hne =>
        rw [List.getElem?_append] at hkey
        split at hkey
        · refine ih.2 ⟨hkey, fun later hlater hother => ?_⟩
          have hlt := (List.getElem?_eq_some_iff.1 hother).1
          exact hlast later hlater (by rw [List.getElem?_append_left hlt, hother])
        · exact absurd (List.mem_singleton.1 (List.mem_of_getElem? hkey)).symm hne

/-! ## The text of the entries -/

namespace TableText

/-- The text of an entry. -/
def entryText (entry : String × Fields) : String :=
  Value.text (.string entry.1) ++ ":" ++ Value.text (.object entry.2)

/-- The text of entries, with a comma between two of them. -/
def body (entries : List (String × Fields)) : String :=
  ",".intercalate (entries.map entryText)

theorem join_entry (first : Bool) (key : String) (value : Value) :
    String.join (TableText.entry first key value) =
      (if first then "" else ",") ++ (Value.text (.string key) ++ ":" ++ Value.text value) := by
  cases first <;> simp [TableText.entry, Value.text, Value.fragments, String.append_assoc]

/-- A further text goes behind a comma, unless it is the first. -/
theorem intercalate_append_singleton (texts : List String) (last : String) :
    ",".intercalate (texts ++ [last]) =
      ",".intercalate texts ++ ((if texts.length = 0 then "" else ",") ++ last) := by
  cases texts with
  | nil => simp
  | cons first rest =>
    rw [String.intercalate_append_of_ne_nil (by simp) (by simp)]
    simp [String.append_assoc]

theorem body_append_singleton (entries : List (String × Fields)) (entry : String × Fields) :
    body (entries ++ [entry]) =
      body entries ++ ((if entries.length = 0 then "" else ",") ++ entryText entry) := by
  rw [body, body, List.map_append, List.map_singleton, intercalate_append_singleton,
    List.length_map]

end TableText

/-! ## One record -/

namespace Conversion

open Script

/-- The progress of a conversion is that of having written these entries. -/
structure Progress.Covers (progress : Progress) (entries : List (String × Fields)) : Prop where
  written : progress.written = entries.length
  owners : ∀ key, progress.owners[key]? = lastPlace? (entries.map Prod.fst) key
  size : progress.owners.size = (entries.map Prod.fst).eraseDups.length

theorem covers_start : Progress.start.Covers [] :=
  ⟨rfl, fun key => by simp [Progress.start, lastPlace?], rfl⟩

/-- The progress after one more entry. -/
theorem Progress.Covers.add {progress : Progress} {entries : List (String × Fields)}
    (h : progress.Covers entries) (entry : String × Fields) :
    Progress.Covers ⟨progress.owners.insert entry.1 entries.length, progress.written + 1⟩
      (entries ++ [entry]) := by
  have hmem : entry.1 ∈ progress.owners ↔ entry.1 ∈ entries.map Prod.fst := by
    rw [Std.TreeMap.mem_iff_isSome_getElem?, h.owners, Option.isSome_iff_ne_none, Ne,
      lastPlace?_eq_none_iff, Decidable.not_not]
  refine ⟨by simp [h.written], fun key => ?_, ?_⟩
  · rw [List.map_append, List.map_singleton, lastPlace?_append_singleton, List.length_map,
      ← h.owners, Std.TreeMap.getElem?_insert]
    simp only [Std.compare_eq_iff_eq]
  · rw [List.map_append, List.map_singleton, eraseDups_append_singleton,
      Std.TreeMap.size_insert, h.size]
    simp only [Std.TreeMap.contains_iff_mem, hmem]
    split
    · rfl
    · simp

/-- Taking the numeral fields out of a record only adds lines of the lowest severity to the log. -/
theorem traces_toEntry (options : Options) (record : Record) :
    (record.toEntry options).Takes Step.IsTrace := by
  rw [Record.toEntry]
  split
  · exact takes_done _
  · refine (takes_done _).bind fun digits => (takes_note _ ⟨_, rfl, rfl⟩).bind fun _ => ?_
    dsimp only
    split
    · exact takes_pure _
    · exact (takes_note _ ⟨_, rfl, rfl⟩).bind fun _ => (takes_done _).bind fun _ => takes_pure _

theorem takes_toEntry (options : Options) (record : Record) :
    (record.toEntry options).Takes Step.IsNote :=
  (traces_toEntry options record).mono fun _ h => h.isNote

/-- Deals with a key that an earlier record may have. -/
def checkOwner (options : Options) (progress : Progress) (record : Record) (key : String) :
    Script Unit :=
  match progress.owners[key]? with
  | none => pure ()
  | some earlier => duplicate options.duplicates record.index key earlier

/-- The steps of an entry, with the question of duplicates apart. -/
theorem entry_eq (options : Options) (progress : Progress) (record : Record) :
    entry options progress record = do
      let (key, payload) ← record.toEntry options
      checkOwner options progress record key
      note ⟨.debug, .conversion, "record " ++ toString record.index ++ " -> " ++ key⟩
      emit (TableText.entry (progress.written = 0) key (.object payload))
      return ⟨progress.owners.insert key record.index, progress.written + 1⟩ := by
  rw [entry]
  congr 1
  funext keyed
  obtain ⟨key, payload⟩ := keyed
  dsimp only [checkOwner]
  cases progress.owners[key]? with
  | none => rw [pure_bind]
  | some earlier => rfl

theorem takes_checkOwner (options : Options) (progress : Progress) (record : Record) (key : String) :
    (checkOwner options progress record key).Takes Step.IsNote := by
  rw [checkOwner]
  split
  · exact takes_pure ()
  · cases options.duplicates with
    | reject => exact takes_done _
    | overwrite => exact takes_note _ ⟨_, rfl⟩

/-- A key passes if it is new, or if duplicates may be overwritten. -/
theorem outcome_checkOwner {options : Options} {progress : Progress}
    {before : List (String × Fields)} (hbefore : progress.Covers before) {key : String}
    (hfresh : options.duplicates = .reject → key ∉ before.map Prod.fst) (record : Record) :
    (checkOwner options progress record key).outcome = .ok () := by
  rw [checkOwner]
  cases howner : progress.owners[key]? with
  | none => rfl
  | some earlier =>
    cases hrule : options.duplicates with
    | overwrite => rfl
    | reject =>
      rw [hbefore.owners, lastPlace?_eq_none_iff.2 (hfresh hrule)] at howner
      cases howner

/-- A record without a key stops the conversion. -/
theorem entry_of_keyed_error {options : Options} {record : Record} {error : Error}
    (h : record.keyed options = .error error) (progress : Progress) :
    (entry options progress record).outcome = .error error ∧
      (entry options progress record).bytes = [] := by
  rw [entry_eq, outcome_bind_of_error h, bytes_bind_of_error h]
  exact ⟨rfl, (takes_toEntry options record).bytes_eq_nil⟩

/-- So does a record with the key of an earlier one, if duplicates are rejected. -/
theorem entry_of_duplicate {options : Options} {record : Record} {key : String}
    {payload : Fields} (h : record.keyed options = .ok (key, payload))
    (hrule : options.duplicates = .reject) {progress : Progress} {earlier : Nat}
    (howner : progress.owners[key]? = some earlier) :
    (entry options progress record).outcome =
        .error (.duplicateKey record.index key earlier) ∧
      (entry options progress record).bytes = [] := by
  have hcheck : checkOwner options progress record key =
      .fail (.duplicateKey record.index key earlier) := by
    simp only [checkOwner, howner, hrule, duplicate]
  rw [entry_eq, outcome_bind_of_ok h, bytes_bind_of_ok h,
    (takes_toEntry options record).bytes_eq_nil]
  dsimp only
  rw [hcheck]
  exact ⟨rfl, rfl⟩

/-- Every other record is written behind the entries before it. -/
theorem entry_of_accepted {options : Options} {record : Record} {key : String}
    {payload : Fields} (h : record.keyed options = .ok (key, payload)) {progress : Progress}
    {before : List (String × Fields)} (hbefore : progress.Covers before)
    (hindex : record.index = before.length)
    (hfresh : options.duplicates = .reject → key ∉ before.map Prod.fst) :
    ∃ next, (entry options progress record).outcome = .ok next ∧
      next.Covers (before ++ [(key, payload)]) ∧
      textBytes (TableText.body before) ++ (entry options progress record).bytes =
        textBytes (TableText.body (before ++ [(key, payload)])) := by
  have hcheck := outcome_checkOwner hbefore hfresh record
  refine ⟨_, ?_, hbefore.add (key, payload), ?_⟩
  · rw [entry_eq, outcome_bind_of_ok h]
    dsimp only
    rw [outcome_bind_of_ok hcheck, outcome_bind_of_ok rfl, outcome_bind_of_ok rfl, hindex]
    rfl
  · rw [entry_eq, bytes_bind_of_ok h, (takes_toEntry options record).bytes_eq_nil]
    dsimp only
    rw [bytes_bind_of_ok hcheck, (takes_checkOwner options progress record key).bytes_eq_nil,
      bytes_bind_of_ok rfl, bytes_bind_of_ok rfl, bytes_note, bytes_emit, bytes_pure,
      TableText.join_entry, TableText.body_append_singleton, textBytes_append, hbefore.written]
    simp [TableText.entryText]

end Conversion

end OpcodeTable
