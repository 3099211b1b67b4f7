import OpcodeTable.Proofs.Conversion.CodeLookup
import OpcodeTable.Proofs.Json.Places

/-!
# Floating-point numbers on their way through a conversion

If duplicates are rejected, every record has an entry of its own in the table that is read back.
Its floating-point numbers are those of the record as they are read again from their own text: each
at its place and with its sign, but perhaps as a neighbour.

## What is here

* `Conversion.nodup_of_convertText` and `Conversion.exists_own_entry`, the entry of a record.
* `Conversion.floats_of_convertText`, how near its numbers are to those of the record, and which of
  them are the same.
* `Conversion.float_ne_of_wholeText`, a whole number that does not come back as itself.
-/

set_option autoImplicit false

namespace OpcodeTable
namespace Conversion

open Json

/-- If duplicates are rejected, the keys of what is converted are all different. -/
theorem nodup_of_convertText {options : Options} {text out : String}
    (h : convertText options text = .ok out) (hrule : options.duplicates = .reject)
    {records : List Record} (hrecords : Record.parse text = .ok records)
    {entries : List (String × Fields)} (hkeyed : Keyed options records entries) :
    (entries.map Prod.fst).Nodup := by
  obtain ⟨found, summary, hfound, houtcome, -⟩ := outcome_of_convertText h
  cases hfound.symm.trans hrecords
  have hgoes := not_stops_of_ok (numberedFrom_of_parse hrecords) houtcome
  obtain ⟨accepted, haccepted, hnodup⟩ :=
    exists_keyed_of_not_stops (Nat.le_refl _) fun place _ => hgoes place
  rw [List.take_length] at haccepted
  exact haccepted.unique hkeyed ▸ hnodup hrule

/-- Then each record has its own entry in the table that is read back. -/
theorem exists_own_entry {options : Options} {text out : String}
    (h : convertText options text = .ok out) (hrule : options.duplicates = .reject) :
    ∃ records table, Record.parse text = .ok records ∧ Table.parse out = .ok table ∧
      ∀ record ∈ records, ∃ key payload, record.keyed options = .ok (key, payload) ∧
        table.get? key = some (rereadFields payload) := by
  obtain ⟨records, entries, table, hrecords, hkeyed, htable, -, hget⟩ :=
    exists_table_of_convertText h
  have hnodup := nodup_of_convertText h hrule hrecords hkeyed
  refine ⟨records, table, hrecords, htable, fun record hrecord => ?_⟩
  have hmem := List.mem_map_of_mem (f := Record.keyed options) hrecord
  rw [hkeyed] at hmem
  obtain ⟨⟨key, payload⟩, hentry, heq⟩ := List.mem_map.1 hmem
  refine ⟨key, payload, heq.symm, ?_⟩
  have hreverse : (entries.reverse.map Prod.fst).Nodup := by
    rwa [List.map_reverse, List.nodup_reverse]
  rw [hget, (lookup_eq_some_iff hreverse).2 (List.mem_reverse.2 hentry)]
  rfl

/-- A floating-point number stands at the same place when it has been read again. -/
theorem at?_rereadFields {payload : Fields} {place : Place} {x : Binary64}
    (h : (Value.object payload).at? place = some (.number (.float x))) :
    (Value.object (rereadFields payload)).at? place = some (.number (rereadNumber x)) := by
  change ((Value.object payload).mapFloats rereadNumber).at? place = _
  rw [Value.at?_mapFloats, h]
  rfl

/-- **Floating-point numbers come back at their places, with their signs, and no farther than five
places away.**  If duplicates are rejected, every record of a text that is converted has an entry
under its key in the table that is read back, and wherever there is a floating-point number in its
payload, there is one in the entry as well.  Among all floating-point numbers in order these two
have no more than four between them, and they are the same if the number is zero or written as a
short decimal. -/
theorem floats_of_convertText {options : Options} {text out : String}
    (h : convertText options text = .ok out) (hrule : options.duplicates = .reject) :
    ∃ records table, Record.parse text = .ok records ∧ Table.parse out = .ok table ∧
      ∀ record ∈ records, ∃ key payload entry, record.keyed options = .ok (key, payload) ∧
        table.get? key = some entry ∧
        ∀ (place : Place) (x : Binary64),
          (Value.object payload).at? place = some (.number (.float x)) →
          ∃ y : Binary64, (Value.object entry).at? place = some (.number (.float y)) ∧
            y.negative = x.negative ∧ y.rank ≤ x.rank + 5 ∧ x.rank ≤ y.rank + 5 ∧
            (x.IsShort → y = x) := by
  obtain ⟨records, table, hrecords, htable, hown⟩ := exists_own_entry h hrule
  refine ⟨records, table, hrecords, htable, fun record hrecord => ?_⟩
  obtain ⟨key, payload, hkeyed, hget⟩ := hown record hrecord
  refine ⟨key, payload, _, hkeyed, hget, fun place x hx => ?_⟩
  obtain ⟨y, hy, hnegative, hnear, hshort⟩ := exists_reread? x
  have hnumber : rereadNumber x = .float y := by
    rw [rereadNumber, hy, Option.getD_some]
  exact ⟨y, hnumber ▸ at?_rereadFields hx, hnegative, hnear.1, hnear.2, hshort⟩

/-- The whole number `9007199254740991`, or the one below it, as floating-point numbers. -/
def wholeNumber (below : Bool) : Binary64 :=
  ⟨false, if below then 4845873199050653694 else 4845873199050653695, by cases below <;> decide⟩

/-- The number that is written as `1.5`. -/
def shortNumber : Binary64 :=
  ⟨false, 4609434218613702656, by decide⟩

/-- A payload with the two. -/
def wholePayload (below : Bool) : Fields :=
  [("x", .array [.number (.float (wholeNumber below)), .number (.float shortNumber)])]

/-- The text of a record with this payload. -/
def wholeText : String :=
  "[\x7b\"opcode\":\"0x01\",\"x\":[9007199254740991e0,1.5]\x7d]"

/-- What it is converted to. -/
def wholeTable : String :=
  "\x7b\"0x01\":\x7b\"x\":[9007199254740991.0,1.5]\x7d\x7d"

theorem convertText_wholeText : convertText {} wholeText = .ok wholeTable :=
  eq_ok_of_toOption (by decide +kernel)

theorem parse_wholeText :
    Record.parse wholeText = .ok [⟨0, ("opcode", .string "0x01") :: wholePayload false⟩] := by
  decide +kernel

theorem keyed_wholeText :
    Record.keyed {} ⟨0, ("opcode", .string "0x01") :: wholePayload false⟩ =
      .ok ("0x01", wholePayload false) := by
  decide +kernel

theorem floats_of_wholeText : ∃ table entry, convertText {} wholeText = .ok wholeTable ∧
    ({} : Options).duplicates = .reject ∧ Table.parse wholeTable = .ok table ∧
    table.get? "0x01" = some entry ∧
    (Value.object entry).at? [.member "x", .item 1] = some (.number (.float shortNumber)) := by
  obtain ⟨records, table, hrecords, htable, hfloats⟩ :=
    floats_of_convertText convertText_wholeText rfl
  cases hrecords.symm.trans parse_wholeText
  obtain ⟨key, payload, entry, hkeyed, hget, hplaces⟩ := hfloats _ (List.mem_cons_self ..)
  cases hkeyed.symm.trans keyed_wholeText
  obtain ⟨y, hy, -, -, -, hshort⟩ := hplaces [.member "x", .item 1] shortNumber rfl
  rw [hshort (by decide +kernel)] at hy
  exact ⟨table, entry, convertText_wholeText, rfl, htable, hget, hy⟩

/-- A floating-point number that was read need not come back as itself, be it a whole number. -/
theorem float_ne_of_wholeText :
    ∃ record key payload table entry, convertText {} wholeText = .ok wholeTable ∧
      ({} : Options).duplicates = .reject ∧ Record.parse wholeText = .ok [record] ∧
      record.keyed {} = .ok (key, payload) ∧ Table.parse wholeTable = .ok table ∧
      table.get? key = some entry ∧
      (Value.object payload).at? [.member "x", .item 0] =
        some (.number (.float (wholeNumber false))) ∧
      (Value.object entry).at? [.member "x", .item 0] ≠
        some (.number (.float (wholeNumber false))) := by
  have htable : Table.parse wholeTable = .ok ⟨[("0x01", wholePayload true)]⟩ := by decide +kernel
  refine ⟨_, _, _, _, _, convertText_wholeText, rfl, parse_wholeText, keyed_wholeText, htable, rfl,
    rfl, ?_⟩
  decide +kernel

end Conversion
end OpcodeTable
