import OpcodeTable.Proofs.Json.Matching
import OpcodeTable.Proofs.Json.Printed
import OpcodeTable.Proofs.TableDocument

/-!
# What stands where in a value

A place in a value is given by the way that leads to it: from an array to the item with an index,
from an object to the member with a name.  The same way leads through what is written; where a name
is written more than once, it leads to the last of its values, since that is the one that counts.

## What is here

* `Place`, `Value.at?` and `Written.at?`.
* `Written.rel_at?`, by which the place in a value has what the same place in the text means, by
  induction on the way.
* `Value.at?_mapFloats`, what other floating-point numbers in a value change of a place.
* `WrittenText.of_at?`, that what is written at a place has a text of its own.
-/

set_option autoImplicit false

namespace OpcodeTable
namespace Json

/-- One step of the way to a place. -/
inductive Child where
  | item (index : Nat)
  | member (name : String)
deriving DecidableEq, Repr

/-- The way to a place. -/
abbrev Place := List Child

/-- The item or member of a value. -/
def Value.child? : Value → Child → Option Value
  | .array items, .item index => items[index]?
  | .object fields, .member name => Members.find? fields name
  | _, _ => none

/-- What stands at a place in a value. -/
def Value.at? : Value → Place → Option Value
  | value, [] => some value
  | value, child :: rest => (value.child? child).bind fun inner => inner.at? rest

/-- The item or member that is written; of the members with one name the last one. -/
def Written.child? : Written → Child → Option Written
  | .array items, .item index => items[index]?
  | .object members, .member name => Members.find? members.reverse name
  | _, _ => none

/-- What is written at a place. -/
def Written.at? : Written → Place → Option Written
  | written, [] => some written
  | written, child :: rest => (written.child? child).bind fun inner => inner.at? rest

/-! ## What is meant at a place -/

namespace Written

/-- The written value, whatever its depth, stands for the value. -/
def Gives (written : Written) (value : Value) : Prop :=
  written.value? = some value

theorem Gives.means {written : Written} {value : Value} (h : written.Gives value) :
    Means written.nesting written value :=
  ⟨Nat.le_refl _, h⟩

/-- An item or member has what the written item or member means. -/
theorem rel_child? {written : Written} {value : Value} (h : written.Gives value)
    (child : Child) : Option.Rel Gives (written.child? child) (value.child? child) := by
  have hmeans := h.means
  cases written with
  | null | boolean | string =>
    cases h
    exact .none
  | numeral n =>
    obtain ⟨number, -, rfl⟩ := Option.map_eq_some_iff.1 h
    exact .none
  | array items =>
    obtain ⟨values, hall, rfl⟩ := means_array_iff.1 hmeans
    cases child with
    | item index => exact rel_imp (forall₂_iff_getElem?.1 hall index) fun _ _ _ _ h => h.2
    | member name => exact .none
  | object members =>
    obtain ⟨fields, rfl⟩ := hmeans.object_iff.1 ⟨members, rfl⟩
    cases child with
    | item index => exact .none
    | member name => exact rel_imp (hmeans.lasts.2 name) fun _ _ _ _ h => h.2

/-- **A place in a value has what is written at the same place in its text**, if anything is. -/
theorem rel_at? {written : Written} {value : Value} (h : written.Gives value)
    (place : Place) : Option.Rel Gives (written.at? place) (value.at? place) := by
  induction place generalizing written value with
  | nil => exact .some h
  | cons child rest ih => exact rel_bind (rel_child? h child) fun _ _ hinner => ih hinner

theorem exists_of_at? {written : Written} {value : Value} (h : written.Gives value)
    {place : Place} {inner : Value} (hinner : value.at? place = some inner) :
    ∃ found, written.at? place = some found ∧ found.Gives inner := by
  have hrel := rel_at? h place
  rw [hinner] at hrel
  exact rel_some_right_iff.1 hrel

theorem exists_value_of_at? {written : Written} {value : Value} (h : written.Gives value)
    {place : Place} {inner : Written} (hinner : written.at? place = some inner) :
    ∃ found, value.at? place = some found ∧ inner.Gives found := by
  have hrel := rel_at? h place
  rw [hinner] at hrel
  exact rel_some_left_iff.1 hrel

end Written

/-! ## Other floating-point numbers -/

namespace Value

theorem child?_mapFloats (f : Binary64 → Number) (value : Value) (child : Child) :
    (value.mapFloats f).child? child = (value.child? child).map (mapFloats f) := by
  cases value with
  | null | boolean | string => rfl
  | number n => cases n <;> rfl
  | array items =>
    rw [mapFloats, mapItemFloats_eq_map]
    cases child with
    | item index => exact List.getElem?_map
    | member name => rfl
  | object fields =>
    rw [mapFloats, mapMemberFloats_eq_map]
    cases child with
    | item index => rfl
    | member name => exact Members.find?_map _ _ _

/-- Places stay what they are. -/
theorem at?_mapFloats (f : Binary64 → Number) (value : Value) (place : Place) :
    (value.mapFloats f).at? place = (value.at? place).map (mapFloats f) := by
  induction place generalizing value with
  | nil => rfl
  | cons child rest ih =>
    rw [at?, at?, child?_mapFloats]
    cases value.child? child with
    | none => rfl
    | some inner => exact ih inner

end Value

/-! ## Texts at a place -/

theorem WrittenText.of_member {text : List Char} {members : List (String × Written)}
    (h : WrittenText text (.object members)) {member : String × Written} (hmem : member ∈ members) :
    ∃ front, WrittenText front member.2 := by
  cases h with
  | object h =>
    obtain ⟨front, hmember⟩ := h.exists_text member hmem
    cases hmember with
    | member _ _ _ hvalue => exact ⟨_, hvalue⟩

theorem WrittenText.of_child? {text : List Char} {written inner : Written} {child : Child}
    (h : WrittenText text written) (hinner : written.child? child = some inner) :
    ∃ front, WrittenText front inner := by
  cases written with
  | array items =>
    rcases child with index | name
    · cases h with
      | array h => exact h.exists_text inner (List.mem_of_getElem? hinner)
    · cases hinner
  | object members =>
    rcases child with index | name
    · cases hinner
    · exact h.of_member (List.mem_reverse.1 (Members.mem_of_find? hinner))
  | null | boolean | numeral | string => cases hinner

/-- What is written at a place has a text of its own. -/
theorem WrittenText.of_at? {text : List Char} {written inner : Written} {place : Place}
    (h : WrittenText text written) (hinner : written.at? place = some inner) :
    ∃ front, WrittenText front inner := by
  induction place generalizing text written with
  | nil =>
    cases hinner
    exact ⟨text, h⟩
  | cons child rest ih =>
    obtain ⟨found, hfound, hrest⟩ := Option.bind_eq_some_iff.1 hinner
    obtain ⟨front, hfront⟩ := h.of_child? hfound
    exact ih hfront hrest

end Json
end OpcodeTable
