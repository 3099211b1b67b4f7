import OpcodeTable.Record
import OpcodeTable.TableText
import Std.Data.TreeMap

/-!
# Converting records to a table

Every record becomes an entry of the table under the key made of its numeral fields, in the order
of the records.  The conversion stops at the first record that has no key or, if duplicates are
rejected, has the key of an earlier one; what belongs to the records before it has been written by
then.
-/

set_option autoImplicit false

namespace OpcodeTable

/-- What a conversion has done: how many entries it has written, and how many different keys they
have. -/
structure Summary where
  records : Nat
  distinctKeys : Nat
deriving DecidableEq, Repr

namespace Conversion

/-- How far a conversion has come: the last record with each key, and the number of entries. -/
structure Progress where
  owners : Std.TreeMap String Nat
  written : Nat

/-- No entry has been written yet. -/
def Progress.start : Progress :=
  ⟨{}, 0⟩

/-- The entries that have been written. -/
def Progress.summary (progress : Progress) : Summary :=
  ⟨progress.written, progress.owners.size⟩

/-- Deals with a record whose key is that of an earlier one. -/
def duplicate (rule : DuplicateRule) (index : Nat) (key : String) (earlier : Nat) :
    Script Unit :=
  match rule with
  | .reject => .fail (.duplicateKey index key earlier)
  | .overwrite =>
    .note ⟨.warn, .conversion, "record " ++ toString index ++ ": key '" ++ key
      ++ "' overrides record " ++ toString earlier⟩

/-- Writes the entry of a record. -/
def entry (options : Options) (progress : Progress) (record : Record) : Script Progress := do
  let (key, payload) ← record.toEntry options
  match progress.owners[key]? with
  | none => pure ()
  | some earlier => duplicate options.duplicates record.index key earlier
  Script.note ⟨.debug, .conversion, "record " ++ toString record.index ++ " -> " ++ key⟩
  Script.emit (TableText.entry (progress.written = 0) key (.object payload))
  return ⟨progress.owners.insert key record.index, progress.written + 1⟩

/-- Writes the entries of records. -/
def entries (options : Options) (progress : Progress) : List Record → Script Progress
  | [] => return progress
  | record :: rest => do
    let next ← entry options progress record
    entries options next rest

/-- Writes the table of records. -/
def script (options : Options) (records : List Record) : Script Summary := do
  Script.emit [TableText.opening]
  let progress ← entries options .start records
  Script.emit [TableText.closing]
  Script.flush
  return progress.summary

/-- Converts a text that holds records to the text of the table. -/
def convertText (options : Options) (text : String) : Except Error String := do
  let records ← Record.parse text
  let script := script options records
  let _ ← script.outcome
  return String.join script.texts

end Conversion

end OpcodeTable
