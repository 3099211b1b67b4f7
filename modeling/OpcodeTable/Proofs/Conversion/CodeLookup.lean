import OpcodeTable.Proofs.CodeKey
import OpcodeTable.Proofs.Conversion.ReadBack
import OpcodeTable.Proofs.Json.Equality
import OpcodeTable.Proofs.RecordEntry

/-!
# Looking up what was converted by its code

A decoder looks a record up by its numeric code, in the table that is read back.  A code has one
numeral in lower case and one in upper case, and the keys of both are looked at.  The key of a
record is put together of two numerals, which may have their letters in different cases, or a zero
in front that the numeral of the code would not have; such a record is not found by its code.

What is found is what was written, with the floating-point numbers as they are read again.

## What is here

* `Conversion.exists_table_of_convertText`, the table that is read back.
* `Conversion.atCode?_of_convertText`, what a look-up by code finds.
* `Record.AddressedBy`, records whose numerals are made of two hexadecimal digits, and
  `Conversion.Numbered`, such a record in a text that is converted.
* `Conversion.atCode?_of_numbered`, when its code finds it, and `Conversion.MissedByCode`, when not.
-/

set_option autoImplicit false

namespace OpcodeTable

open Json

/-! ## Records with a code -/

/-- The text is a marker of two characters and two hexadecimal digits, whose letters are in one
case. -/
structure CodeNumeral (text : String) (digits : List Char) : Prop where
  marked : ∃ first second, text.toList = first :: second :: digits
  pair : digits.length = 2
  oneCase : OneCase digits

instance (text : String) (digits : List Char) : Decidable (CodeNumeral text digits) :=
  decidable_of_iff
    ((text.toList.take 2).length = 2 ∧ text.toList.drop 2 = digits ∧ digits.length = 2 ∧
      OneCase digits)
    ⟨fun ⟨htaken, hrest, hpair, hone⟩ =>
      have ⟨first, second, hmarker⟩ := List.length_eq_two.1 htaken
      ⟨⟨first, second, by rw [← List.take_append_drop 2 text.toList, hmarker, hrest]; rfl⟩,
        hpair, hone⟩,
      fun ⟨⟨first, second, hchars⟩, hpair, hone⟩ => by
        rw [hchars]
        exact ⟨rfl, rfl, hpair, hone⟩⟩

/-- The numerals of a record are a prefix, if there is one, and an opcode with these digits. -/
inductive Record.AddressedBy (options : Options) (record : Record) : List Char → List Char → Prop
  | unprefixed {opcode : String} {digits : List Char}
      (h : (options.opcodeField, .string opcode) ∈ record.fields)
      (hopcode : CodeNumeral opcode digits)
      (hnone : options.prefixField = options.opcodeField ∨
        options.prefixField ∉ record.fields.names) :
      AddressedBy options record [] digits
  | prefixed {opcode text : String} {digits front : List Char}
      (h : (options.opcodeField, .string opcode) ∈ record.fields)
      (hopcode : CodeNumeral opcode digits)
      (hother : options.prefixField ≠ options.opcodeField)
      (hprefixed : (options.prefixField, .string text) ∈ record.fields)
      (htext : CodeNumeral text front) :
      AddressedBy options record front digits

theorem CodeNumeral.length_le {text : String} {digits : List Char} (h : CodeNumeral text digits) :
    2 ≤ text.length := by
  obtain ⟨first, second, hchars⟩ := h.marked
  rw [← String.length_toList, hchars]
  simp

theorem CodeNumeral.afterMarker_eq {text : String} {digits : List Char}
    (h : CodeNumeral text digits) : afterMarker text = String.ofList digits := by
  obtain ⟨first, second, hchars⟩ := h.marked
  rw [afterMarker, hchars]
  rfl

namespace Record.AddressedBy

variable {options : Options} {record : Record} {front digits : List Char}

/-- The key of such a record is made of the digits of both numerals. -/
theorem yields (h : record.AddressedBy options front digits) :
    record.Yields options
      (.ok ("0x" ++ String.ofList (front ++ digits), record.kept options)) := by
  cases h with
  | unprefixed h hopcode hnone =>
    rw [List.nil_append, ← hopcode.afterMarker_eq]
    exact .unprefixed h hopcode.length_le hnone
  | prefixed h hopcode hother hprefixed htext =>
    rw [String.ofList_append, ← String.append_assoc, ← hopcode.afterMarker_eq,
      ← htext.afterMarker_eq]
    exact .prefixed h hopcode.length_le hother hprefixed htext.length_le

theorem mem_anyDigits (h : record.AddressedBy options front digits) :
    ∀ c ∈ front ++ digits, c ∈ anyDigits := by
  cases h with
  | unprefixed h hopcode hnone => exact mem_anyDigits_of_oneCase hopcode.oneCase
  | prefixed h hopcode hother hprefixed htext =>
    exact List.forall_mem_append.2
      ⟨mem_anyDigits_of_oneCase htext.oneCase, mem_anyDigits_of_oneCase hopcode.oneCase⟩

theorem length_eq (h : record.AddressedBy options front digits) : digits.length = 2 := by
  cases h with
  | unprefixed h hopcode hnone => exact hopcode.pair
  | prefixed h hopcode hother hprefixed htext => exact hopcode.pair

end Record.AddressedBy

namespace Conversion

/-- **A converted table can be read back.**  It has the keys of the records, and under each key the
payload of the last record with that key, as it is read again. -/
theorem exists_table_of_convertText {options : Options} {text out : String}
    (h : convertText options text = .ok out) :
    ∃ records entries table, Record.parse text = .ok records ∧ Keyed options records entries ∧
      Table.parse out = .ok table ∧ table.keys = (entries.map Prod.fst).eraseDups ∧
      ∀ key, table.get? key = (entries.reverse.lookup key).map rereadFields := by
  obtain ⟨records, entries, hrecords, hkeyed, rfl⟩ := exists_keyed_of_convertText h
  obtain ⟨table, htable, hkeys, hget⟩ := exists_table_of_keyed hrecords hkeyed
  exact ⟨records, entries, table, hrecords, hkeyed, htable, hkeys, hget⟩

/-- **A code finds the last record under its numeral.**  What is found by a code is the payload of
the last record whose key is the numeral of the code in lower case or, if there is none, in upper
case, as it is read again.  An entry that is found stands under a key that denotes the code, and so
there is no entry that two codes find. -/
theorem atCode?_of_convertText {options : Options} {text out : String}
    (h : convertText options text = .ok out) :
    ∃ (records : List Record) (entries : List (String × Fields)) (table : Table),
      Record.parse text = .ok records ∧
      records.map (Record.keyed options) = entries.map .ok ∧
      Table.parse out = .ok table ∧
      (∀ (code : UInt16) (lower upper : List Char), Spells lowerDigits lower code.toNat →
        Spells upperDigits upper code.toNat →
        table.atCode? code =
          ((entries.reverse.lookup ("0x" ++ String.ofList lower)).or
            (entries.reverse.lookup ("0x" ++ String.ofList upper))).map rereadFields) ∧
      (∀ code, table.atCode? code = (table.keyAt? code).bind table.get?) ∧
      (∀ code key, table.keyAt? code = some key → key ∈ table.keys ∧ Denotes key code.toNat) ∧
      ∀ code other key, table.keyAt? code = some key → table.keyAt? other = some key →
        code = other := by
  obtain ⟨records, entries, table, hrecords, hkeyed, htable, -, hget⟩ :=
    exists_table_of_convertText h
  refine ⟨records, entries, table, hrecords, hkeyed, htable, ?_, table.atCode?_eq_bind,
    fun _ _ => Table.denotes_of_keyAt?, ?_⟩
  · intro code lower upper hlower hupper
    rw [table.atCode?_eq hlower hupper, hget, hget, Option.map_or]
  · intro code other key hcode hother
    have hsame := (Table.denotes_of_keyAt? hcode).2.unique (Table.denotes_of_keyAt? hother).2
    exact UInt16.toNat_inj.1 hsame

/-- The payload of a record with this number. -/
def numberPayload (n : Int) : Fields :=
  [("n", .number (.integer n))]

/-- The record of this opcode and this number. -/
def numberRecord (index : Nat) (opcode : String) (n : Int) : Record :=
  ⟨index, ("opcode", .string opcode) :: numberPayload n⟩

/-- Records of one code in both cases, one of them twice, and a record in upper case only. -/
def casedText : String :=
  "[\x7b\"opcode\":\"0xAF\",\"n\":1\x7d,\x7b\"opcode\":\"0xaf\",\"n\":2\x7d," ++
    "\x7b\"opcode\":\"0xaf\",\"n\":3\x7d,\x7b\"opcode\":\"0xBC\",\"n\":4\x7d]"

theorem atCode?_of_convertText_casedText :
    ∃ out table, convertText { duplicates := .overwrite } casedText = .ok out ∧
      Table.parse out = .ok table ∧ table.atCode? 0xAF = some (numberPayload 3) ∧
      table.atCode? 0xBC = some (numberPayload 4) := by
  have hout : (convertText { duplicates := .overwrite } casedText).toOption = some
      ("\x7b\"0xAF\":\x7b\"n\":1\x7d,\"0xaf\":\x7b\"n\":2\x7d,\"0xaf\":\x7b\"n\":3\x7d," ++
        "\"0xBC\":\x7b\"n\":4\x7d\x7d") := by
    decide +kernel
  have hparse : Record.parse casedText = .ok [numberRecord 0 "0xAF" 1, numberRecord 1 "0xaf" 2,
      numberRecord 2 "0xaf" 3, numberRecord 3 "0xBC" 4] := by
    decide +kernel
  obtain ⟨records, entries, table, hrecords, hkeyed, htable, hlookup, -⟩ :=
    atCode?_of_convertText (eq_ok_of_toOption hout)
  cases hrecords.symm.trans hparse
  obtain rfl : [("0xAF", numberPayload 1), ("0xaf", numberPayload 2), ("0xaf", numberPayload 3),
      ("0xBC", numberPayload 4)] = entries :=
    List.map_injective_iff.2 (fun _ _ => Except.ok.inj) (.trans (by decide +kernel) hkeyed)
  refine ⟨_, table, eq_ok_of_toOption hout, htable, ?_, ?_⟩
  · rw [hlookup 0xAF _ _ (spells_codeDigits _) (spells_upper_iff.2 rfl)]
    decide +kernel
  · rw [hlookup 0xBC _ _ (spells_codeDigits _) (spells_upper_iff.2 rfl)]
    decide +kernel

/-- The number that `1e-25` is read as, or the one above it, which is what its text is read as. -/
def driftingNumber (above : Bool) : Value :=
  .number (.float ⟨false, if above then 4233087679066701273 else 4233087679066701272,
    by cases above <;> decide⟩)

/-- The record at this place has a number that is not read back. -/
def driftingRecord (index : Nat) : Record :=
  ⟨index, [("opcode", .string "0x01"), ("x", driftingNumber false)]⟩

/-- The text of such a record. -/
def driftingText : String :=
  "[\x7b\"opcode\":\"0x01\",\"x\":1e-25\x7d]"

/-- The payload of the last record under the numeral of a code need not be what the code finds. -/
theorem atCode?_ne_of_driftingText :
    ∃ (out : String) (records : List Record) (entries : List (String × Fields)) (table : Table),
      convertText {} driftingText = .ok out ∧ Record.parse driftingText = .ok records ∧
      records.map (Record.keyed {}) = entries.map .ok ∧ Table.parse out = .ok table ∧
      table.atCode? 0x01 ≠ entries.reverse.lookup "0x01" := by
  have hout : (convertText {} driftingText).toOption = some
      "\x7b\"0x01\":\x7b\"x\":9.999999999999999e-26\x7d\x7d" := by
    decide +kernel
  have hrecords : Record.parse driftingText = .ok [driftingRecord 0] := by decide +kernel
  have hkeyed : [driftingRecord 0].map (Record.keyed {}) =
      [("0x01", [("x", driftingNumber false)])].map .ok := by
    decide +kernel
  have htable : Table.parse "\x7b\"0x01\":\x7b\"x\":9.999999999999999e-26\x7d\x7d" =
      .ok ⟨[("0x01", [("x", driftingNumber true)])]⟩ := by
    decide +kernel
  exact ⟨_, _, _, _, eq_ok_of_toOption hout, hrecords, hkeyed, htable, by decide +kernel⟩

/-! ## Finding a record by its code -/

theorem NumberedFrom.eq_of_index_eq {start : Nat} {records : List Record}
    (h : NumberedFrom start records) {first second : Record} (hfirst : first ∈ records)
    (hsecond : second ∈ records) (hindex : first.index = second.index) : first = second := by
  obtain ⟨place, hplace⟩ := List.getElem?_of_mem hfirst
  obtain ⟨place', hplace'⟩ := List.getElem?_of_mem hsecond
  have heq : place = place' := by
    have := h place first hplace
    have := h place' second hplace'
    omega
  subst heq
  exact Option.some.inj (hplace.symm.trans hplace')

/-- No other record has a key that differs from this one in the case of letters only. -/
def AloneBut (options : Options) (records : List Record) (record : Record) (key : String) : Prop :=
  ∀ other ∈ records, other.index ≠ record.index → ∀ entry, other.keyed options = .ok entry →
    ¬SameButCase entry.1 key

instance (options : Options) (records : List Record) (record : Record) (key : String) :
    Decidable (AloneBut options records record key) :=
  decidable_of_iff (∀ other ∈ records, other.index ≠ record.index →
      ∀ entry ∈ (other.keyed options).toOption, ¬SameButCase entry.1 key)
    ⟨fun h other hmem hindex entry hentry => h other hmem hindex entry (by rw [hentry]; rfl),
      fun h other hmem hindex entry hentry =>
        h other hmem hindex entry (eq_ok_of_toOption hentry)⟩

/-- Then under such keys there is only the record's own entry. -/
theorem lookup_of_alone {options : Options} {records : List Record}
    {entries : List (String × Fields)} (hkeyed : Keyed options records entries)
    (hnumbered : NumberedFrom 0 records) {record : Record} (hrecord : record ∈ records)
    {key : String} {payload : Fields} (hentry : record.keyed options = .ok (key, payload))
    (halone : AloneBut options records record key) {other : String}
    (hother : SameButCase other key) :
    entries.reverse.lookup other = if other = key then some payload else none := by
  have honly : ∀ entry ∈ entries, entry.1 = other → entry = (key, payload) := by
    rintro entry hmem rfl
    obtain ⟨found, hfound, hkeyed⟩ := hkeyed.exists_record hmem
    by_cases hindex : found.index = record.index
    · rw [hnumbered.eq_of_index_eq hfound hrecord hindex] at hkeyed
      exact Except.ok.inj (hkeyed.symm.trans hentry)
    · exact absurd hother (halone found hfound hindex entry hkeyed)
  have hown : (key, payload) ∈ entries := by
    have hmem := List.mem_map_of_mem (f := Record.keyed options) hrecord
    rw [hkeyed, hentry] at hmem
    obtain ⟨entry, hentry, heq⟩ := List.mem_map.1 hmem
    exact Except.ok.inj heq ▸ hentry
  cases hlookup : entries.reverse.lookup other with
  | none =>
    have hne : other ≠ key := by
      rintro rfl
      simpa using List.lookup_eq_none_iff.1 hlookup _ (List.mem_reverse.2 hown)
    rw [if_neg hne]
  | some found =>
    obtain ⟨before, after, hsplit, -⟩ := List.lookup_eq_some_iff.1 hlookup
    have hmem : (other, found) ∈ entries.reverse :=
      hsplit ▸ List.mem_append_right _ (List.mem_cons_self ..)
    obtain ⟨rfl, rfl⟩ := Prod.mk.inj (honly _ (List.mem_reverse.1 hmem) rfl)
    rw [if_pos rfl]

theorem sameButCase_marked {digits : List Char} {f : Char → Char}
    (hf : ∀ c ∈ digits, (f c).toLower = c.toLower) :
    SameButCase ("0x" ++ String.ofList (digits.map f)) ("0x" ++ String.ofList digits) := by
  have hsame : digits.map (Char.toLower ∘ f) = digits.map Char.toLower := List.map_congr_left hf
  simp only [SameButCase, String.toList_append, String.toList_ofList, List.map_append, List.map_map,
    hsame]

theorem marked_inj {digits others : List Char} :
    "0x" ++ String.ofList digits = "0x" ++ String.ofList others ↔ digits = others := by
  rw [String.append_right_inj, String.ofList_inj]

/-- A text is converted, and in it is a record whose numerals have these digits and make this code,
while no other record has its key but for the case of letters. -/
structure Numbered (options : Options) (text out : String) (record : Record)
    (front digits : List Char) (code : UInt16) : Prop where
  converted : convertText options text = .ok out
  listed : ∃ records, Record.parse text = .ok records ∧ record ∈ records ∧
    AloneBut options records record ("0x" ++ String.ofList (front ++ digits))
  addressed : record.AddressedBy options front digits
  codeOf : ∃ high low, hexNumber? front = some high ∧ hexNumber? digits = some low ∧
    code.toNat = 256 * high + low

namespace Numbered

variable {options : Options} {text out : String} {record : Record} {front digits : List Char}
  {code : UInt16}

/-- The digits are the numeral of the code, unless the prefix begins with a zero. -/
theorem spells_iff (h : Numbered options text out record front digits code) :
    Spells anyDigits (front ++ digits) code.toNat ↔ front.head? ≠ some '0' := by
  obtain ⟨high, low, hhigh, hlow, hcode⟩ := h.codeOf
  obtain ⟨first, second, rfl⟩ := List.length_eq_two.1 h.addressed.length_eq
  constructor
  · intro hspells hzero
    obtain ⟨more, rfl⟩ := List.head?_eq_some_iff.1 hzero
    simpa using hspells.short _ rfl
  · intro hfront
    rw [hcode]
    refine ⟨hexNumber?_append_pair hhigh hlow, h.addressed.mem_anyDigits, by simp, ?_⟩
    cases front with
    | nil =>
      intro rest hrest
      rfl
    | cons c more =>
      intro rest hrest
      obtain ⟨rfl, -⟩ := List.cons.inj hrest
      exact absurd rfl hfront

/-- Under the key of the record, and under the keys that differ from it in the case of letters, the
table that is read back has the record's payload only. -/
theorem exists_table (h : Numbered options text out record front digits code) :
    ∃ table, Table.parse out = .ok table ∧
      ∀ other, SameButCase other ("0x" ++ String.ofList (front ++ digits)) →
        table.get? other = if other = "0x" ++ String.ofList (front ++ digits) then
          some (rereadFields (record.kept options)) else none := by
  obtain ⟨records, hrecords, hrecord, halone⟩ := h.listed
  obtain ⟨found, entries, table, hfound, hkeyed, htable, -, hget⟩ :=
    exists_table_of_convertText h.converted
  cases hfound.symm.trans hrecords
  have hnames := (readable_of_parse hrecords record hrecord).names_nodup
  have hentry := h.addressed.yields.keyed_eq hnames
  refine ⟨table, htable, fun other hother => ?_⟩
  rw [hget, lookup_of_alone hkeyed (numberedFrom_of_parse hrecords) hrecord hentry halone hother]
  split <;> rfl

end Numbered

/-- **A record is found by its code if its letters are in one case.**  In a text that is converted,
take a record whose opcode, and prefix if there is one, have a marker of two characters and two
hexadecimal digits with letters in one case, and let no other record have the same key but for the
case of letters.  The table holds an entry under the record's key, which is the record's payload if
its floating-point numbers are read back.  If the prefix does not begin with a zero, then the code
made of both numerals finds just this entry when the letters of both are in the same case, and
nothing when they are not.  If the prefix does begin with a zero, the code does not find it. -/
theorem atCode?_of_numbered {options : Options} {text out : String} {record : Record}
    {front digits : List Char} {code : UInt16}
    (h : Numbered options text out record front digits code) :
    ∃ table payload, Table.parse out = .ok table ∧
      table.get? ("0x" ++ String.ofList (front ++ digits)) = some payload ∧
      ((∀ x ∈ Value.memberFloats (record.kept options), readsBack x = true) →
        payload = record.kept options) ∧
      (front.head? ≠ some '0' → OneCase (front ++ digits) → table.atCode? code = some payload) ∧
      (front.head? ≠ some '0' → ¬OneCase (front ++ digits) → table.atCode? code = none) ∧
      (front.head? = some '0' →
        table.keyAt? code ≠ some ("0x" ++ String.ofList (front ++ digits))) := by
  obtain ⟨table, htable, hget⟩ := h.exists_table
  have hany := h.addressed.mem_anyDigits
  have hlookup : ∀ f : Char → Char, (∀ c ∈ anyDigits, (f c).toLower = c.toLower) →
      table.get? ("0x" ++ String.ofList ((front ++ digits).map f)) =
        if (front ++ digits).map f = front ++ digits then
          some (rereadFields (record.kept options)) else none := by
    intro f hf
    rw [hget _ (sameButCase_marked fun c hc => hf c (hany c hc))]
    simp only [marked_inj]
  have hfound : front.head? ≠ some '0' → table.atCode? code =
      if OneCase (front ++ digits) then some (rereadFields (record.kept options)) else none := by
    intro hfront
    obtain ⟨hlower, hupper⟩ := (h.spells_iff.2 hfront).toCases
    rw [table.atCode?_eq hlower hupper, hlookup _ toLower_toLower, hlookup _ toLower_toUpper]
    simp only [oneCase_iff hany]
    by_cases hsame : (front ++ digits).map Char.toLower = front ++ digits
    · rw [if_pos hsame, Option.some_or, if_pos (.inl hsame)]
    · rw [if_neg hsame, Option.none_or]
      simp only [hsame, false_or]
  refine ⟨table, rereadFields (record.kept options), htable, ?_, rereadFields_of_readsBack,
    ?_, ?_, ?_⟩
  · rw [hget _ rfl, if_pos rfl]
  · intro hfront hone
    rw [hfound hfront, if_pos hone]
  · intro hfront hmixed
    rw [hfound hfront, if_neg hmixed]
  · intro hzero hkey
    obtain ⟨others, heq, hspells⟩ := Table.spells_of_keyAt? hkey
    obtain rfl := marked_inj.1 heq
    exact h.spells_iff.1 hspells hzero

/-- A record in upper case, before one without a prefix. -/
def prefixedText : String :=
  "[\x7b\"opcode\":\"$éAF\",\"prefix\":\"0xCB\",\"n\":\"x\"\x7d,\x7b\"opcode\":\"0xaf\"\x7d]"

theorem atCode?_of_numbered_prefixedText : ∃ out record table,
    Numbered {} prefixedText out record ['C', 'B'] ['A', 'F'] 0xCBAF ∧
      Table.parse out = .ok table ∧ table.atCode? 0xCBAF = some [("n", .string "x")] := by
  have hout : (convertText {} prefixedText).toOption = some
      "\x7b\"0xCBAF\":\x7b\"n\":\"x\"\x7d,\"0xaf\":\x7b\x7d\x7d" := by
    decide +kernel
  have hrecords : Record.parse prefixedText = .ok
      [⟨0, [("opcode", .string "$éAF"), ("prefix", .string "0xCB"), ("n", .string "x")]⟩,
        ⟨1, [("opcode", .string "0xaf")]⟩] := by
    decide +kernel
  have hopcode : CodeNumeral "$éAF" ['A', 'F'] := by decide
  have htext : CodeNumeral "0xCB" ['C', 'B'] := by decide
  have hnumbered : Numbered {} prefixedText
      "\x7b\"0xCBAF\":\x7b\"n\":\"x\"\x7d,\"0xaf\":\x7b\x7d\x7d"
      ⟨0, [("opcode", .string "$éAF"), ("prefix", .string "0xCB"), ("n", .string "x")]⟩
      ['C', 'B'] ['A', 'F'] 0xCBAF :=
    { converted := eq_ok_of_toOption hout
      listed := ⟨_, hrecords, by decide, by decide +kernel⟩
      addressed := .prefixed (by decide) hopcode (by decide) (by decide) htext
      codeOf := ⟨0xCB, 0xAF, by decide⟩ }
  obtain ⟨table, payload, htable, -, hpayload, hfound, -⟩ := atCode?_of_numbered hnumbered
  refine ⟨_, _, table, hnumbered, htable, ?_⟩
  rw [hfound (by decide) (by decide), hpayload (by decide +kernel)]
  decide +kernel

/-- A record, the prefix of which is not zero, is not what the code made of its numerals finds. -/
def MissedByCode (text out : String) (record : Record) (front digits : List Char) (code : UInt16) :
    Prop :=
  Numbered {} text out record front digits code ∧ front ≠ ['0', '0'] ∧
    ∃ table, Table.parse out = .ok table ∧ table.atCode? code ≠ some (record.kept {})

/-- The numerals of this record have letters in different cases. -/
def mixedRecord : Record :=
  ⟨0, [("opcode", .string "0xAF"), ("prefix", .string "0xcb")]⟩

/-- The prefix of this record begins with a zero. -/
def paddedRecord : Record :=
  ⟨1, [("opcode", .string "0x11"), ("prefix", .string "0x0c")]⟩

/-- The text of these records. -/
def missedText : String :=
  "[\x7b\"opcode\":\"0xAF\",\"prefix\":\"0xcb\"\x7d," ++
    "\x7b\"opcode\":\"0x11\",\"prefix\":\"0x0c\"\x7d,\x7b\"opcode\":\"0x01\",\"x\":1e-25\x7d]"

/-- What it is converted to. -/
def missedTable : String :=
  "\x7b\"0xcbAF\":\x7b\x7d,\"0x0c11\":\x7b\x7d,\"0x01\":\x7b\"x\":9.999999999999999e-26\x7d\x7d"

/-- Letters in different cases, a zero in front and a number that is not read back each keep a
record from being found by its code. -/
theorem missedByCode_records :
    MissedByCode missedText missedTable mixedRecord ['c', 'b'] ['A', 'F'] 0xCBAF ∧
      MissedByCode missedText missedTable paddedRecord ['0', 'c'] ['1', '1'] 0x0C11 ∧
      MissedByCode missedText missedTable (driftingRecord 2) [] ['0', '1'] 0x01 := by
  have hout : (convertText {} missedText).toOption = some missedTable := by decide +kernel
  have hrecords : Record.parse missedText = .ok [mixedRecord, paddedRecord, driftingRecord 2] := by
    decide +kernel
  have htable : Table.parse missedTable =
      .ok ⟨[("0xcbAF", []), ("0x0c11", []), ("0x01", [("x", driftingNumber true)])]⟩ := by
    decide +kernel
  have hupper : CodeNumeral "0xAF" ['A', 'F'] := by decide
  have hlower : CodeNumeral "0xcb" ['c', 'b'] := by decide
  have hmixed : Numbered {} missedText missedTable mixedRecord ['c', 'b'] ['A', 'F'] 0xCBAF :=
    { converted := eq_ok_of_toOption hout
      listed := ⟨_, hrecords, by decide, by decide +kernel⟩
      addressed := .prefixed (by decide) hupper (by decide) (by decide) hlower
      codeOf := ⟨0xCB, 0xAF, by decide⟩ }
  have heleven : CodeNumeral "0x11" ['1', '1'] := by decide
  have htwelve : CodeNumeral "0x0c" ['0', 'c'] := by decide
  have hpadded : Numbered {} missedText missedTable paddedRecord ['0', 'c'] ['1', '1'] 0x0C11 :=
    { converted := eq_ok_of_toOption hout
      listed := ⟨_, hrecords, by decide, by decide +kernel⟩
      addressed := .prefixed (by decide) heleven (by decide) (by decide) htwelve
      codeOf := ⟨0x0C, 0x11, by decide⟩ }
  have hone : CodeNumeral "0x01" ['0', '1'] := by decide
  have hdrifting : Numbered {} missedText missedTable (driftingRecord 2) [] ['0', '1'] 0x01 :=
    { converted := eq_ok_of_toOption hout
      listed := ⟨_, hrecords, by decide, by decide +kernel⟩
      addressed := .unprefixed (by decide) hone (.inr (by decide))
      codeOf := ⟨0, 1, by decide⟩ }
  exact ⟨⟨hmixed, by decide, _, htable, by decide +kernel⟩,
    ⟨hpadded, by decide, _, htable, by decide +kernel⟩,
    ⟨hdrifting, by decide, _, htable, by decide +kernel⟩⟩

end Conversion

end OpcodeTable
