import OpcodeTable.Proofs.Conversion.ReadBack
import OpcodeTable.Proofs.Json.Equality
import OpcodeTable.Proofs.Json.Sameness

/-!
# Tables and records that are equal

Tables are compared as the objects that they were read from, and lists of records one record after
the other, with the places of the records.  Whatever was read has different names in every object,
and so the equality of tables, and that of records, is an equivalence and is what is left when the
order of members and the signs of zeros do not count.  Equal tables answer every look-up alike.

## What is here

* `Table.value`, a table as an object, and `Table.distinct_of_parse`.
* `Table.AnswersAlike`, two tables that no question tells apart, and `Table.answersAlike_of_same`.
* `Record.sameAll_iff` and `Record.sameAll_iff_map`, the comparison of records one by one.
* `ReadTable` and `ReadRecords`, what can be read at all, and `equality_is_rearrangement`.
-/

set_option autoImplicit false

namespace OpcodeTable

open Json

/-- The fields are equal up to the order of members. -/
def SameFields (first second : Fields) : Prop :=
  Value.Same (.object first) (.object second)

/-! ## Tables -/

namespace Table

/-- The entries as members that hold objects. -/
def members (table : Table) : Fields :=
  table.entries.map fun entry => (entry.1, .object entry.2)

/-- The table as an object. -/
def value (table : Table) : Value :=
  .object table.members

theorem same_iff {first second : Table} :
    first.same second = true ↔ first.value.Same second.value :=
  Iff.rfl

theorem distinct_of_parse {text : String} {table : Table} (h : parse text = .ok table) :
    table.value.Distinct := by
  rw [parse] at h
  split at h
  · cases h
  · next fields hfields =>
    split at h
    · cases h
    · next entries hentries =>
      cases h
      rw [value, members, ← entries?_eq_ok_iff.1 hentries]
      obtain ⟨front, hfront⟩ := (readObject_eq_ok_iff.1 hfields).exists_text
      exact (hfront.readable ValueText.readable).distinct

theorem child?_value (table : Table) (key : String) :
    table.value.child? (.member key) = (table.get? key).map .object :=
  Members.find?_map Value.object table.entries key

theorem names_members (table : Table) : table.members.names = table.keys :=
  Members.names_map Value.object table.entries

/-- No question tells the two tables apart: they have as many entries, under the same keys, and
every look-up finds equal fields in both, or none in either. -/
structure AnswersAlike (first second : Table) : Prop where
  size : first.size = second.size
  keys : ∀ key, key ∈ first.keys ↔ key ∈ second.keys
  get? : ∀ key, Option.Rel SameFields (first.get? key) (second.get? key)
  atCode? : ∀ code, Option.Rel SameFields (first.atCode? code) (second.atCode? code)

/-- Equal tables answer alike. -/
theorem answersAlike_of_same {first second : Table} (hfirst : first.value.Distinct)
    (hsecond : second.value.Distinct) (h : first.same second = true) :
    first.AnswersAlike second := by
  obtain ⟨-, hchildren⟩ := (hfirst.same_iff_children hsecond).1 (same_iff.1 h)
  have hget : ∀ key, Option.Rel SameFields (first.get? key) (second.get? key) := by
    intro key
    have hchild := hchildren (.member key)
    rw [child?_value, child?_value, rel_map_iff] at hchild
    exact hchild
  have hperm : first.keys.Perm second.keys := by
    rw [← names_members, ← names_members]
    exact Members.names_perm_of_rel hfirst.names hsecond.names fun key => hchildren (.member key)
  exact
    { size := by simpa [keys, size, Members.names] using hperm.length_eq
      keys := fun key => hperm.mem_iff
      get? := hget
      atCode? := fun code => rel_or (hget _) (hget _) }

end Table

/-! ## Records -/

namespace Record

variable {first second : List Record}

/-- Records are compared one by one, each with the one at its place in the other list. -/
theorem sameAll_iff : sameAll first second = true ↔
    List.Forall₂ (fun a b => a.index = b.index ∧ SameFields a.fields b.fields) first second := by
  induction first generalizing second with
  | nil => cases second <;> simp [sameAll]
  | cons a rest ih => cases second <;> simp [sameAll, same, ih, SameFields]

variable (hfirst : ∀ record ∈ first, (Value.object record.fields).Distinct)
  (hsecond : ∀ record ∈ second, (Value.object record.fields).Distinct)

include hfirst hsecond

theorem sameAll_iff_rearranged : sameAll first second = true ↔
    List.Forall₂ (fun a b => a.index = b.index ∧
      (Value.object a.fields).Rearranged (.object b.fields)) first second := by
  rw [sameAll_iff]
  refine forall₂_congr fun a ha b hb => and_congr_right' ?_
  exact (hfirst a ha).same_iff_rearranged (hsecond b hb)

/-- Lists are equal if the same is seen of both, record by record. -/
theorem sameAll_iff_map : sameAll first second = true ↔
    first.map (fun record => (record.index, (Value.object record.fields).seenAt?)) =
      second.map fun record => (record.index, (Value.object record.fields).seenAt?) := by
  rw [sameAll_iff, ← List.forall₂_eq_eq_eq, List.forall₂_map_left_iff, List.forall₂_map_right_iff]
  refine forall₂_congr fun a ha b hb => ?_
  rw [Prod.mk.injEq]
  exact and_congr_right' ((hfirst a ha).same_iff_seenAt? (hsecond b hb))

end Record

/-! ## What is read -/

/-- A table that is read from some text. -/
abbrev ReadTable : Type :=
  { table : Table // ∃ text, Table.parse text = .ok table }

/-- Records that are read from some text. -/
abbrev ReadRecords : Type :=
  { records : List Record // ∃ text, Record.parse text = .ok records }

theorem ReadTable.distinct (table : ReadTable) : table.1.value.Distinct := by
  obtain ⟨table, text, h⟩ := table
  exact Table.distinct_of_parse h

theorem ReadRecords.distinct (records : ReadRecords) :
    ∀ record ∈ records.1, (Value.object record.fields).Distinct := by
  obtain ⟨records, text, h⟩ := records
  intro record hmem
  exact (Conversion.readable_of_parse h record hmem).distinct

/-- What compares one thing that is seen is an equivalence. -/
theorem equivalence_of_seen {α β : Type} {r : α → α → Prop} (seen : α → β)
    (h : ∀ a b, r a b ↔ seen a = seen b) : Equivalence r where
  refl a := (h a a).2 rfl
  symm hab := (h _ _).2 ((h _ _).1 hab).symm
  trans hab hbc := (h _ _).2 (((h _ _).1 hab).trans ((h _ _).1 hbc))

/-- **Equality of what was read.**  The equality of tables is an equivalence.  Two tables are equal
if and only if the one can be rearranged into the other, by putting the members of objects at any
depth in another order and by changing the signs of zeros.  Equal tables answer alike.  The equality
of lists of records is an equivalence too, and two lists are equal if and only if they have records
with the same places, one by one and in order, whose fields can be rearranged into each other. -/
theorem equality_is_rearrangement :
    Equivalence (fun first second : ReadTable => first.1.same second.1 = true) ∧
    (∀ first second : ReadTable,
      first.1.same second.1 = true ↔ first.1.value.Rearranged second.1.value) ∧
    (∀ first second : ReadTable,
      first.1.same second.1 = true → first.1.AnswersAlike second.1) ∧
    Equivalence (fun first second : ReadRecords => Record.sameAll first.1 second.1 = true) ∧
    ∀ first second : ReadRecords, Record.sameAll first.1 second.1 = true ↔
      List.Forall₂ (fun a b => a.index = b.index ∧
        (Value.object a.fields).Rearranged (.object b.fields)) first.1 second.1 := by
  refine ⟨?_, fun first second => ?_, fun first second h => ?_, ?_, fun first second => ?_⟩
  · exact equivalence_of_seen (fun table : ReadTable => table.1.value.seenAt?)
      fun first second => first.distinct.same_iff_seenAt? second.distinct
  · exact first.distinct.same_iff_rearranged second.distinct
  · exact Table.answersAlike_of_same first.distinct second.distinct h
  · exact equivalence_of_seen _ fun first second =>
      Record.sameAll_iff_map first.distinct second.distinct
  · exact Record.sameAll_iff_rearranged first.distinct second.distinct

/-- A table with an array and a zero in one of its entries. -/
def plainTable : Table :=
  ⟨[("0x01", [("a", .array [.number (.integer 1), .number (.integer 2)]),
      ("z", .number (.float (.zero false)))]), ("0xAB", [])]⟩

/-- The text of the table. -/
def plainText : String :=
  "\x7b\"0x01\":\x7b\"a\":[1,2],\"z\":0.0\x7d,\"0xAB\":\x7b\x7d\x7d"

/-- The table with its members the other way round and the zero with the other sign, and with the
items of the array either way. -/
def turnedTable (items : Bool) : Table :=
  ⟨[("0xAB", []), ("0x01", [("z", .number (.float (.zero true))),
      ("a", .array (if items then [.number (.integer 2), .number (.integer 1)]
        else [.number (.integer 1), .number (.integer 2)]))])]⟩

/-- The text of that table. -/
def turnedText (items : Bool) : String :=
  "\x7b\"0xAB\":\x7b\x7d,\"0x01\":\x7b\"z\":-0.0,\"a\":" ++
    (if items then "[2,1]" else "[1,2]") ++ "\x7d\x7d"

theorem equality_is_rearrangement_turnedTable : Table.parse plainText = .ok plainTable ∧
    (∀ items, Table.parse (turnedText items) = .ok (turnedTable items)) ∧
    plainTable.same (turnedTable false) = true ∧
    plainTable.value.Rearranged (turnedTable false).value ∧
    plainTable.AnswersAlike (turnedTable false) ∧
    ¬plainTable.value.Rearranged (turnedTable true).value := by
  have hplain : Table.parse plainText = .ok plainTable := by decide +kernel
  have hturned : ∀ items, Table.parse (turnedText items) = .ok (turnedTable items) := by
    decide +kernel
  have hsame : plainTable.same (turnedTable false) = true := by decide
  have hother : ¬plainTable.same (turnedTable true) = true := by decide
  obtain ⟨-, hrearranged, hanswers, -⟩ := equality_is_rearrangement
  let first : ReadTable := ⟨plainTable, plainText, hplain⟩
  let turned (items : Bool) : ReadTable := ⟨turnedTable items, turnedText items, hturned items⟩
  refine ⟨hplain, hturned, hsame, ?_, ?_, ?_⟩
  · exact (hrearranged first (turned false)).1 hsame
  · exact hanswers first (turned false) hsame
  · exact fun h => hother ((hrearranged first (turned true)).2 h)

end OpcodeTable
