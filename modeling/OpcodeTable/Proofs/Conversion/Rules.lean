import Mathlib.Data.List.Basic
import OpcodeTable.Proofs.Conversion.Faults

/-!
# Rejecting and overwriting duplicates

The same records are converted under both rules for duplicates, and the two conversions are
compared.  They take the same steps up to the first record that has the key of an earlier one.
There the conversion that rejects duplicates ends, and the other one goes on: what the first one has
written is the front of what the second one writes, which may come to an end later on, but then
because of a record without a key.

## What is here

* `Options.under`, the options with one rule or the other; the keys of records do not depend on it.
* `Conversion.exists_append_of_keyed` and `Conversion.bytes_of_keyed`, by which what is written up
  to an earlier place is the front of what is written up to a later one.
* `Conversion.both_of_not_stops`, `Conversion.both_of_keyless` and `Conversion.both_of_duplicate`,
  the three ways that the two conversions can compare.
* `Conversion.reject_against_overwrite`, the comparison of the two.
-/

set_option autoImplicit false

namespace OpcodeTable

open Json

/-- The options with this rule for duplicates. -/
def Options.under (options : Options) (rule : DuplicateRule) : Options :=
  { options with duplicates := rule }

theorem Record.keyed_under (options : Options) (rule : DuplicateRule) (record : Record) :
    record.keyed (options.under rule) = record.keyed options :=
  rfl

/-! ## More entries -/

theorem TableText.entryText_ne_empty (entry : String × Fields) : entryText entry ≠ "" := by
  simp [entryText]

/-- Further entries are written behind the others, and they are not nothing. -/
theorem TableText.exists_body_append (first : List (String × Fields)) (entry : String × Fields)
    (more : List (String × Fields)) :
    ∃ rest, rest ≠ "" ∧ body (first ++ entry :: more) = body first ++ rest := by
  induction more using List.reverseRecOn with
  | nil =>
    refine ⟨_, ?_, body_append_singleton first entry⟩
    simp [entryText_ne_empty]
  | append_singleton before last ih =>
    obtain ⟨rest, hrest, hbody⟩ := ih
    have hsplit : first ++ entry :: (before ++ [last]) = (first ++ entry :: before) ++ [last] := by
      simp
    rw [hsplit, body_append_singleton, hbody, String.append_assoc]
    exact ⟨_, by simp [hrest], rfl⟩

/-- A text with something behind it has more bytes. -/
theorem textBytes_append_of_ne_empty (text : String) {rest : String} (h : rest ≠ "") :
    textBytes text <+: textBytes (text ++ rest) ∧ textBytes text ≠ textBytes (text ++ rest) := by
  refine ⟨?_, fun heq => h ?_⟩
  · rw [textBytes_append]
    exact List.prefix_append ..
  · have htext : text ++ "" = text ++ rest := String.append_empty.trans (textBytes_inj.1 heq)
    exact ((String.append_right_inj text).1 htext).symm

namespace Conversion

theorem Keyed.take {options : Options} {records : List Record}
    {entries : List (String × Fields)} (h : Keyed options records entries) (count : Nat) :
    Keyed options (records.take count) (entries.take count) := by
  rw [Keyed, List.map_take, List.map_take, h]

theorem Keyed.length_eq {options : Options} {records : List Record}
    {entries : List (String × Fields)} (h : Keyed options records entries) :
    entries.length = records.length := by
  simpa using (congrArg List.length h).symm

/-- The entries up to an earlier place are the first of those up to a later one. -/
theorem exists_append_of_keyed {options : Options} {records : List Record} {place later : Nat}
    {first all : List (String × Fields)} (hfirst : Keyed options (records.take place) first)
    (hall : Keyed options (records.take later) all) (hplace : place < later)
    (hless : place < records.length) : ∃ entry more, all = first ++ entry :: more := by
  have hlength : place < all.length := by
    rw [hall.length_eq, List.length_take]
    omega
  have hfront : all.take place = first := by
    have hkeyed := hall.take place
    rw [List.take_take, Nat.min_eq_left (Nat.le_of_lt hplace)] at hkeyed
    exact hkeyed.unique hfirst
  refine ⟨all[place], all.drop (place + 1), ?_⟩
  rw [← hfront, ← List.drop_eq_getElem_cons hlength, List.take_append_drop]

/-- What is written up to an earlier place is the front of what is written up to a later one,
whatever stands behind that, and not all of it. -/
theorem bytes_of_keyed {options : Options} {records : List Record} {place later : Nat}
    {first all : List (String × Fields)} (hfirst : Keyed options (records.take place) first)
    (hall : Keyed options (records.take later) all) (hplace : place < later)
    (hless : place < records.length) (rear : String) :
    textBytes (TableText.opening ++ TableText.body first) <+:
        textBytes (TableText.opening ++ TableText.body all ++ rear) ∧
      textBytes (TableText.opening ++ TableText.body first) ≠
        textBytes (TableText.opening ++ TableText.body all ++ rear) := by
  obtain ⟨entry, more, rfl⟩ := exists_append_of_keyed hfirst hall hplace hless
  obtain ⟨rest, hrest, hbody⟩ := TableText.exists_body_append first entry more
  have hrear : rest ++ rear ≠ "" := by simp [hrest]
  have hsplit : TableText.opening ++ TableText.body (first ++ entry :: more) ++ rear =
      TableText.opening ++ TableText.body first ++ (rest ++ rear) := by
    rw [hbody]
    simp only [String.append_assoc]
  rw [hsplit]
  exact textBytes_append_of_ne_empty _ hrear

/-- If two of the records have one key, there are fewer keys than records. -/
theorem Keyed.length_eraseDups_lt {options : Options} {records : List Record}
    {entries : List (String × Fields)} (h : Keyed options records entries) {earlier place : Nat}
    {key : String} (hlt : earlier < place) (hearlier : KeyAt options records earlier key)
    (hplace : KeyAt options records place key) :
    (entries.map Prod.fst).eraseDups.length < records.length := by
  have hall : Keyed options (records.take records.length) entries := by rwa [List.take_length]
  have hless : place < records.length := by
    obtain ⟨record, payload, hrecord, -⟩ := hplace
    exact (List.getElem?_eq_some_iff.1 hrecord).1
  have hduplicate : ¬(entries.map Prod.fst).Nodup := fun hnodup => by
    have hsame := hall.keyAt_unique hnodup (by omega) hearlier hless hplace
    omega
  have hle := length_eraseDups_le (entries.map Prod.fst)
  have hne := mt length_eraseDups_eq_iff.1 hduplicate
  rw [List.length_map, h.length_eq] at hle hne
  omega

/-- The keys do not depend on the rule. -/
theorem keyed_under {options : Options} {rule : DuplicateRule} {records : List Record}
    {entries : List (String × Fields)} :
    Keyed (options.under rule) records entries ↔ Keyed options records entries :=
  Iff.rfl

/-! ## The two conversions -/

/-- If duplicates may be overwritten, only a record without a key stops a conversion. -/
theorem stops_overwrite_iff {options : Options} {records : List Record} {place : Nat} :
    Stops (options.under .overwrite) records place ↔
      ∃ record error, records[place]? = some record ∧ record.keyed options = .error error := by
  constructor
  · rintro ⟨record, hrecord, ⟨error, herror⟩ | ⟨hrule, -⟩⟩
    · exact ⟨record, error, hrecord, herror⟩
    · cases hrule
  · rintro ⟨record, error, hrecord, herror⟩
    exact ⟨record, hrecord, .inl ⟨error, herror⟩⟩

/-- Whatever stops it then stops it also if duplicates are rejected. -/
theorem stops_reject_of_overwrite {options : Options} {records : List Record} {place : Nat}
    (h : Stops (options.under .overwrite) records place) :
    Stops (options.under .reject) records place := by
  obtain ⟨record, error, hrecord, herror⟩ := stops_overwrite_iff.1 h
  exact ⟨record, hrecord, .inl ⟨error, herror⟩⟩

section

variable {options : Options} {records : List Record} (hnumbered : NumberedFrom 0 records)

include hnumbered

/-- Records with different keys are converted in the same way. -/
theorem both_of_not_stops (hgoes : ∀ place, ¬Stops (options.under .reject) records place) :
    ∃ summary, (script (options.under .reject) records).outcome = .ok summary ∧
      (script (options.under .overwrite) records).outcome = .ok summary ∧
      (script (options.under .overwrite) records).bytes =
        (script (options.under .reject) records).bytes ∧
      summary.records = summary.distinctKeys := by
  obtain ⟨written, hkeyed, hstrict, hstrictBytes⟩ := script_of_not_stops hnumbered hgoes
  obtain ⟨others, hothers, hlenient, hlenientBytes⟩ := script_of_not_stops hnumbered
    fun place hstops => hgoes place (stops_reject_of_overwrite hstops)
  obtain ⟨accepted, haccepted, hnodup⟩ :=
    exists_keyed_of_not_stops (Nat.le_refl records.length) fun place _ => hgoes place
  rw [List.take_length] at haccepted
  have hsame : others = written := (keyed_under.1 hothers).unique (keyed_under.1 hkeyed)
  have hdifferent : (written.map Prod.fst).Nodup :=
    Keyed.unique haccepted hkeyed ▸ hnodup rfl
  have hlength := length_eraseDups_eq_iff.2 hdifferent
  rw [List.length_map, hkeyed.length_eq] at hlength
  refine ⟨_, hstrict, by rw [hlenient, hsame], by rw [hlenientBytes, hstrictBytes, hsame], ?_⟩
  exact hlength.symm

/-- A record without a key stops both if it is the first that stops one. -/
theorem both_of_keyless {place : Nat} {record : Record} {error : Error}
    (hrecord : records[place]? = some record) (herror : record.keyed options = .error error)
    (hbefore : ∀ before < place, ¬Stops (options.under .reject) records before) :
    (script (options.under .reject) records).outcome = .error error ∧
      (script (options.under .overwrite) records).outcome = .error error ∧
      (script (options.under .overwrite) records).bytes =
        (script (options.under .reject) records).bytes := by
  have hstops := stops_overwrite_iff.2 ⟨record, error, hrecord, herror⟩
  obtain ⟨written, hkeyed, hstrictBytes, other, hother, hstrict⟩ :=
    script_of_stops hnumbered (stops_reject_of_overwrite hstops) hbefore
  obtain ⟨others, hothers, hlenientBytes, another, hanother, hlenient⟩ :=
    script_of_stops hnumbered hstops
      fun before hlt h => hbefore before hlt (stops_reject_of_overwrite h)
  have hsame : others = written := (keyed_under.1 hothers).unique (keyed_under.1 hkeyed)
  rw [hrecord, Option.some_inj] at hother hanother
  subst hother hanother
  rw [Record.keyed_under, herror] at hstrict hlenient
  exact ⟨hstrict, hlenient, by rw [hlenientBytes, hstrictBytes, hsame]⟩

/-- A record with the key of an earlier one stops only the conversion that rejects it.  The other
one writes more, and either sees in the end that keys are fewer than records, or comes upon a record
without a key. -/
theorem both_of_duplicate {place : Nat} {record : Record} {key : String} {payload : Fields}
    (hrecord : records[place]? = some record) (hkey : record.keyed options = .ok (key, payload))
    (hstops : Stops (options.under .reject) records place)
    (hbefore : ∀ before < place, ¬Stops (options.under .reject) records before) :
    ∃ earlier,
      (script (options.under .reject) records).outcome =
        .error (.duplicateKey place key earlier) ∧
      (script (options.under .reject) records).bytes <+:
        (script (options.under .overwrite) records).bytes ∧
      (script (options.under .reject) records).bytes ≠
        (script (options.under .overwrite) records).bytes ∧
      ((∃ summary, (script (options.under .overwrite) records).outcome = .ok summary ∧
          summary.distinctKeys < summary.records) ∨
        ∃ error later, (script (options.under .overwrite) records).outcome = .error error ∧
          error.Blames later ∧ place < later) := by
  obtain ⟨written, hkeyed, hstrictBytes, other, hother, hstrict⟩ :=
    script_of_stops hnumbered hstops hbefore
  rw [hrecord, Option.some_inj] at hother
  subst hother
  rw [Record.keyed_under, hkey] at hstrict
  obtain ⟨-, earlier, hearlier, hstrict, hat⟩ := hstrict
  have hearlierAt : KeyAt options records earlier key := (hat earlier hearlier).2 rfl
  have hplaceAt : KeyAt options records place key := ⟨record, payload, hrecord, hkey⟩
  have hless : place < records.length := (List.getElem?_eq_some_iff.1 hrecord).1
  refine ⟨earlier, hstrict, ?_⟩
  by_cases hlater : ∃ later, Stops (options.under .overwrite) records later
  · obtain ⟨some, hsome⟩ := hlater
    obtain ⟨later, hlater, hnone⟩ := exists_first_stop hsome
    have hnext : place < later := by
      obtain ⟨keyless, error, hkeyless, herror⟩ := stops_overwrite_iff.1 hlater
      rcases Nat.lt_trichotomy later place with hlt | rfl | hgt
      · exact absurd (stops_reject_of_overwrite hlater) (hbefore later hlt)
      · rw [hrecord, Option.some_inj] at hkeyless
        subst hkeyless
        rw [hkey] at herror
        cases herror
      · exact hgt
    obtain ⟨all, hall, hlenientBytes, keyless, hkeyless, hlenient⟩ :=
      script_of_stops hnumbered hlater hnone
    obtain ⟨hfront, hne⟩ :=
      bytes_of_keyed (keyed_under.1 hkeyed) (keyed_under.1 hall) hnext hless ""
    rw [String.append_empty] at hfront hne
    rw [hstrictBytes, hlenientBytes]
    refine ⟨hfront, hne, .inr ?_⟩
    split at hlenient
    · next error herror =>
      have hindex : keyless.index = later := by simpa using hnumbered later keyless hkeyless
      exact ⟨error, later, hlenient, hindex ▸ Record.blames_of_keyed herror, hnext⟩
    · cases hlenient.1
  · obtain ⟨all, hall, hlenient, hlenientBytes⟩ :=
      script_of_not_stops hnumbered fun later hstops => hlater ⟨later, hstops⟩
    have hfewer := (keyed_under.1 hall).length_eraseDups_lt hearlier hearlierAt hplaceAt
    rw [keyed_under, ← List.take_length (l := records)] at hall
    obtain ⟨hfront, hne⟩ :=
      bytes_of_keyed (keyed_under.1 hkeyed) hall hless hless TableText.closing
    rw [hstrictBytes, hlenientBytes]
    exact ⟨hfront, hne, .inl ⟨_, hlenient, hfewer⟩⟩

end

/-- **The two rules for duplicates differ from the first duplicate on, and not before.**  If
rejecting duplicates goes well, overwriting them is the same conversion, and there are as many keys
as records.  If a record without a key is at fault, it is at fault under both rules, with the same
bytes written by then.  If a duplicate is at fault, overwriting writes more than what was written by
then, and it goes well with fewer keys than records, or a later record without a key is at fault.
So rejecting goes well if and only if overwriting does, with as many keys as records. -/
theorem reject_against_overwrite (options : Options) (objects : List Fields) :
    let records := Record.ofFields objects
    let strict := ({} : Sink).run (script (options.under .reject) records)
    let lenient := ({} : Sink).run (script (options.under .overwrite) records)
    let strictBytes := strict.sink.stored.bytes
    let lenientBytes := lenient.sink.stored.bytes
    (∀ summary, strict.result = .ok summary →
      lenient.result = .ok summary ∧ lenientBytes = strictBytes ∧
        summary.records = summary.distinctKeys) ∧
    (∀ error place, error.Blames place → strict.result = .error error →
      lenient.result = .error error ∧ lenientBytes = strictBytes) ∧
    (∀ index key earlier, strict.result = .error (.duplicateKey index key earlier) →
      strictBytes <+: lenientBytes ∧ strictBytes ≠ lenientBytes ∧
        ((∃ summary, lenient.result = .ok summary ∧ summary.distinctKeys < summary.records) ∨
          ∃ error later, lenient.result = .error error ∧ error.Blames later ∧ index < later)) ∧
    ((∃ summary, strict.result = .ok summary) ↔
      ∃ summary, lenient.result = .ok summary ∧ summary.records = summary.distinctKeys) := by
  intro records strict lenient strictBytes lenientBytes
  have hnumbered : NumberedFrom 0 records := numberedFrom_ofFields objects
  have hstrict : strict.result = _ ∧ strictBytes = _ :=
    Sink.run_endless (flushesLast_script (options.under .reject) records)
  have hlenient : lenient.result = _ ∧ lenientBytes = _ :=
    Sink.run_endless (flushesLast_script (options.under .overwrite) records)
  rw [hstrict.1, hstrict.2, hlenient.1, hlenient.2]
  by_cases hstops : ∃ place, Stops (options.under .reject) records place
  · obtain ⟨some, hsome⟩ := hstops
    obtain ⟨place, hplace, hbefore⟩ := exists_first_stop hsome
    obtain ⟨record, hrecord, -⟩ := id hplace
    cases hkeyed : record.keyed options with
    | error error =>
      obtain ⟨hstrict, hlenient, hbytes⟩ := both_of_keyless hnumbered hrecord hkeyed hbefore
      have hblames := Record.blames_of_keyed hkeyed
      rw [hstrict, hlenient, hbytes]
      refine ⟨by simp, ?_, ?_, by simp⟩
      · intro other _ _ hother
        exact ⟨hother, rfl⟩
      · rintro index key earlier ⟨⟩
        exact hblames.elim
    | ok entry =>
      obtain ⟨key, payload⟩ := entry
      obtain ⟨earlier, hstrict, hfront, hne, hlenient⟩ :=
        both_of_duplicate hnumbered hrecord hkeyed hplace hbefore
      rw [hstrict]
      refine ⟨by simp, ?_, ?_, ?_⟩
      · rintro error other hblames ⟨⟩
        exact hblames.elim
      · rintro index key earlier ⟨⟩
        exact ⟨hfront, hne, hlenient⟩
      · refine iff_of_false (by simp) ?_
        rintro ⟨summary, hok, hsame⟩
        rcases hlenient with ⟨other, hother, hfewer⟩ | ⟨error, later, herror, -⟩
        · rw [hok] at hother
          cases hother
          omega
        · rw [hok] at herror
          cases herror
  · obtain ⟨summary, hstrict, hlenient, hbytes, hsame⟩ :=
      both_of_not_stops hnumbered fun place hplace => hstops ⟨place, hplace⟩
    rw [hstrict, hlenient, hbytes]
    refine ⟨?_, by simp, by simp, ?_⟩
    · rintro other ⟨⟩
      exact ⟨rfl, rfl, hsame⟩
    · exact iff_of_true ⟨summary, rfl⟩ ⟨summary, rfl, hsame⟩

end Conversion

end OpcodeTable
