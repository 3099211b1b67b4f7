import OpcodeTable.Proofs.Conversion.Batch

/-!
# What a conversion can be at fault with

A conversion fails for two kinds of reasons only: a record has no key, or it has the key of an
earlier record.  Which of them it is does not depend on a device, so no error of a conversion speaks
of one, and saying which file the error concerns leaves it as it is.

## What is here

* `Error.Blames`, which says of an error that some record has no key, and `Record.blames_of_keyed`,
  that such is the error of a record without one.
* `Conversion.blames_or_duplicate`, the two kinds of errors of a conversion.
-/

set_option autoImplicit false

namespace OpcodeTable

open Json

/-- The error says that the record at this place has no key: a field is missing, or it holds no
numeral. -/
def Error.Blames (error : Error) (place : Nat) : Prop :=
  match error with
  | .missingField index _ => index = place
  | .badNumeral index _ _ => index = place
  | _ => False

theorem blames_of_numeral {index : Nat} {field : String} {value : Value} {error : Error}
    (h : numeral index field value = .error error) : error.Blames index := by
  rw [numeral] at h
  split at h
  · cases h
  · cases h
    rfl

/-- A record without a key is what its error blames. -/
theorem Record.blames_of_keyed {options : Options} {record : Record} {error : Error}
    (h : record.keyed options = .error error) : error.Blames record.index := by
  rw [Record.keyed_eq] at h
  split at h
  · cases h
    rfl
  · next opcode hopcode =>
    cases hdigits : numeral record.index options.opcodeField opcode with
    | error other =>
      rw [hdigits] at h
      cases h
      exact blames_of_numeral hdigits
    | ok digits =>
      simp only [hdigits, Except.bind] at h
      split at h
      · cases h
      · next value hvalue =>
        split at h
        · next other hmore =>
          cases h
          exact blames_of_numeral hmore
        · cases h

namespace Conversion

/-- An error of a conversion blames a record, or it names two records with one key. -/
theorem blames_or_duplicate {options : Options} {records : List Record}
    (hnumbered : NumberedFrom 0 records) {error : Error}
    (h : (script options records).outcome = .error error) :
    (∃ place, error.Blames place) ∨
      ∃ index key earlier, error = .duplicateKey index key earlier := by
  by_cases hstops : ∃ place, Stops options records place
  · obtain ⟨place, hplace⟩ := hstops
    obtain ⟨first, hfirst, hbefore⟩ := exists_first_stop hplace
    obtain ⟨_, -, -, record, -, hresult⟩ := script_of_stops hnumbered hfirst hbefore
    rw [h] at hresult
    split at hresult
    · next other hother =>
      cases hresult
      exact .inl ⟨record.index, Record.blames_of_keyed hother⟩
    · obtain ⟨-, earlier, -, hduplicate, -⟩ := hresult
      exact .inr ⟨_, _, earlier, Except.error.inj hduplicate⟩
  · obtain ⟨_, -, houtcome, -⟩ :=
      script_of_not_stops hnumbered fun place hplace => hstops ⟨place, hplace⟩
    rw [houtcome] at h
    cases h

/-- No error of a conversion speaks of a device. -/
theorem onFile_eq_of_error {options : Options} {records : List Record}
    (hnumbered : NumberedFrom 0 records) {error : Error}
    (h : (script options records).outcome = .error error) (path : String) :
    error.onFile path = error := by
  rcases blames_or_duplicate hnumbered h with ⟨place, hblames⟩ | ⟨index, key, earlier, rfl⟩
  · cases error with
    | device cause => cases hblames
    | _ => rfl
  · rfl

end Conversion

end OpcodeTable
