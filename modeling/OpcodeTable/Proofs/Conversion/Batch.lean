import OpcodeTable.Proofs.Conversion.FailingSink

/-!
# The conversion of all records at once

A conversion deals with one record after the other, and what it has seen so far decides how it goes
on.  Here it is described without going through the records: where it stops, if it does, what has
been written by then, and what comes of it.

## What is here

* `Conversion.Stops`, the places that a conversion cannot get past.
* `Conversion.entries_of_accepted`, by induction on the records: the records before the first such
  place are written in full, and the progress covers them.
* `Conversion.script_of_not_stops` and `Conversion.script_of_stops`, the two ways that a conversion
  ends.
* `Conversion.run_eq_batch`, the description of the whole conversion.
-/

set_option autoImplicit false

namespace OpcodeTable
namespace Conversion

open Json Script

/-- The record at this place has this key. -/
def KeyAt (options : Options) (records : List Record) (place : Nat) (key : String) : Prop :=
  ∃ record payload, records[place]? = some record ∧ record.keyed options = .ok (key, payload)

/-- A conversion cannot get past the record at this place: it has no key, or it has the key of an
earlier one and duplicates are rejected. -/
def Stops (options : Options) (records : List Record) (place : Nat) : Prop :=
  ∃ record, records[place]? = some record ∧
    ((∃ error, record.keyed options = .error error) ∨
      options.duplicates = .reject ∧ ∃ key payload, record.keyed options = .ok (key, payload) ∧
        ∃ earlier < place, KeyAt options records earlier key)

/-- The records have these keys and payloads, in this order. -/
def Keyed (options : Options) (records : List Record) (entries : List (String × Fields)) : Prop :=
  records.map (Record.keyed options) = entries.map .ok

theorem Keyed.unique {options : Options} {records : List Record}
    {first second : List (String × Fields)} (hfirst : Keyed options records first)
    (hsecond : Keyed options records second) : first = second := by
  have hinjective : Function.Injective
      (Except.ok : String × Fields → Except Error (String × Fields)) :=
    fun _ _ h => Except.ok.inj h
  exact List.map_injective_iff.2 hinjective (hfirst.symm.trans hsecond)

/-- The records are numbered by their places, from a number on. -/
def NumberedFrom (start : Nat) (records : List Record) : Prop :=
  ∀ place record, records[place]? = some record → record.index = start + place

theorem NumberedFrom.take {start : Nat} {records : List Record} (h : NumberedFrom start records)
    (count : Nat) : NumberedFrom start (records.take count) := by
  intro place record hrecord
  rw [List.getElem?_take] at hrecord
  split at hrecord
  · exact h place record hrecord
  · cases hrecord

theorem numberedFrom_ofFields (objects : List Fields) :
    NumberedFrom 0 (Record.ofFields objects) := by
  intro place record hrecord
  rw [Record.ofFields, List.getElem?_map, List.getElem?_zipIdx] at hrecord
  obtain ⟨entry, hentry, rfl⟩ := Option.map_eq_some_iff.1 hrecord
  obtain ⟨fields, -, rfl⟩ := Option.map_eq_some_iff.1 hentry
  rfl

theorem exists_objects_of_parse {text : String} {records : List Record}
    (h : Record.parse text = .ok records) :
    ∃ objects, readObjects text = .ok objects ∧ records = Record.ofFields objects := by
  rw [Record.parse] at h
  split at h
  · next objects hobjects =>
    cases h
    exact ⟨objects, hobjects, rfl⟩
  · cases h

theorem numberedFrom_of_parse {text : String} {records : List Record}
    (h : Record.parse text = .ok records) : NumberedFrom 0 records := by
  obtain ⟨objects, -, rfl⟩ := exists_objects_of_parse h
  exact numberedFrom_ofFields objects

/-! ## The records that are written -/

theorem entries_append (options : Options) (progress : Progress) (first second : List Record) :
    entries options progress (first ++ second) =
      entries options progress first >>= fun next => entries options next second := by
  induction first generalizing progress with
  | nil => rw [List.nil_append, entries, pure_bind]
  | cons record rest ih =>
    rw [List.cons_append, entries, entries, bind_assoc]
    congr 1
    funext next
    exact ih next

/-- Records with keys, which are all different if duplicates are rejected, are written behind the
entries before them. -/
theorem entries_of_accepted {options : Options} {records : List Record}
    {accepted : List (String × Fields)} (hkeyed : Keyed options records accepted)
    {progress : Progress} {before : List (String × Fields)} (hbefore : progress.Covers before)
    (hnumbered : NumberedFrom before.length records)
    (hfresh : options.duplicates = .reject → ((before ++ accepted).map Prod.fst).Nodup) :
    ∃ next, (entries options progress records).outcome = .ok next ∧
      next.Covers (before ++ accepted) ∧
      textBytes (TableText.body before) ++ (entries options progress records).bytes =
        textBytes (TableText.body (before ++ accepted)) := by
  -- what is known of the progress is what it covers, so the induction is for any entries before
  induction records generalizing progress before accepted with
  | nil =>
    rw [Keyed, List.map_nil, eq_comm, List.map_eq_nil_iff] at hkeyed
    subst hkeyed
    rw [List.append_nil, entries]
    exact ⟨progress, rfl, hbefore, List.append_nil _⟩
  | cons record rest ih =>
    obtain ⟨⟨key, payload⟩, others, rfl⟩ : ∃ first others, accepted = first :: others := by
      cases accepted with
      | nil => cases hkeyed
      | cons first others => exact ⟨first, others, rfl⟩
    obtain ⟨hrecord, hrest⟩ := List.cons.inj hkeyed
    have hindex : record.index = before.length := hnumbered 0 record rfl
    have hnew : options.duplicates = .reject → key ∉ before.map Prod.fst := by
      intro hrule hmem
      have hnodup := hfresh hrule
      rw [List.map_append, List.nodup_append] at hnodup
      exact hnodup.2.2 key hmem key (by simp) rfl
    obtain ⟨middle, houtcome, hmiddle, hbytes⟩ :=
      entry_of_accepted hrecord hbefore hindex hnew
    obtain ⟨next, hnext, hcovers, hall⟩ := ih hrest hmiddle
      (fun place later hlater => by
        have := hnumbered (place + 1) later hlater
        rw [List.length_append, List.length_singleton]
        omega)
      (by simpa using hfresh)
    rw [List.append_assoc, List.singleton_append] at hcovers hall
    refine ⟨next, ?_, hcovers, ?_⟩
    · rw [entries, bind_of_ok houtcome]
      exact hnext
    · rw [entries, bytes_bind_of_ok houtcome, ← List.append_assoc, hbytes]
      exact hall

/-- The same from the start of a conversion on. -/
theorem entries_start_of_keyed {options : Options} {records : List Record}
    {accepted : List (String × Fields)} (hkeyed : Keyed options records accepted)
    (hnumbered : NumberedFrom 0 records)
    (hfresh : options.duplicates = .reject → (accepted.map Prod.fst).Nodup) :
    ∃ last, (entries options .start records).outcome = .ok last ∧ last.Covers accepted ∧
      (entries options .start records).bytes = textBytes (TableText.body accepted) := by
  obtain ⟨last, houtcome, hcovers, hbytes⟩ :=
    entries_of_accepted hkeyed covers_start hnumbered hfresh
  have hnone : textBytes (TableText.body []) = [] := rfl
  rw [hnone, List.nil_append, List.nil_append] at hbytes
  exact ⟨last, houtcome, hcovers, hbytes⟩

/-- The keys at the places before `count`, read off the entries. -/
theorem Keyed.keyAt_iff {options : Options} {records : List Record} {count : Nat}
    {accepted : List (String × Fields)} (h : Keyed options (records.take count) accepted)
    {place : Nat} {key : String} :
    (accepted.map Prod.fst)[place]? = some key ↔
      place < count ∧ KeyAt options records place key := by
  have hplace : ((records.take count)[place]?).map (Record.keyed options) =
      (accepted[place]?).map .ok := by
    rw [← List.getElem?_map, ← List.getElem?_map]
    exact congrArg (·[place]?) h
  rw [List.getElem?_map, Option.map_eq_some_iff]
  constructor
  · rintro ⟨entry, hentry, rfl⟩
    rw [hentry] at hplace
    obtain ⟨record, hrecord, hkeyed⟩ := Option.map_eq_some_iff.1 hplace
    rw [List.getElem?_take] at hrecord
    split at hrecord
    · next hlt => exact ⟨hlt, record, entry.2, hrecord, hkeyed⟩
    · cases hrecord
  · rintro ⟨hlt, record, payload, hrecord, hkeyed⟩
    rw [List.getElem?_take, if_pos hlt, hrecord, Option.map_some, hkeyed] at hplace
    obtain ⟨entry, hentry, heq⟩ := Option.map_eq_some_iff.1 hplace.symm
    exact ⟨entry, hentry, by rw [Except.ok.inj heq]⟩

/-- Of different keys each stands at one place. -/
theorem Keyed.keyAt_unique {options : Options} {records : List Record} {count : Nat}
    {accepted : List (String × Fields)} (h : Keyed options (records.take count) accepted)
    (hnodup : (accepted.map Prod.fst).Nodup) {first second : Nat} {key : String}
    (hfirst : first < count) (hfirstAt : KeyAt options records first key)
    (hsecond : second < count) (hsecondAt : KeyAt options records second key) :
    first = second := by
  have hplace := h.keyAt_iff.2 ⟨hfirst, hfirstAt⟩
  have hother := h.keyAt_iff.2 ⟨hsecond, hsecondAt⟩
  exact (List.getElem?_inj (List.getElem?_eq_some_iff.1 hplace).1 hnodup).1
    (hplace.trans hother.symm)

/-- The owner of a key that stands at one place is the record there. -/
theorem Progress.Covers.owner_of_keyAt {options : Options} {records : List Record} {count : Nat}
    {accepted : List (String × Fields)} {progress : Progress} (h : progress.Covers accepted)
    (hkeyed : Keyed options (records.take count) accepted)
    (hnodup : (accepted.map Prod.fst).Nodup) {place : Nat} {key : String}
    (hplace : place < count) (hat : KeyAt options records place key) :
    progress.owners[key]? = some place := by
  have hmem : key ∈ accepted.map Prod.fst :=
    List.mem_of_getElem? (hkeyed.keyAt_iff.2 ⟨hplace, hat⟩)
  cases hlast : lastPlace? (accepted.map Prod.fst) key with
  | none => exact absurd hmem (lastPlace?_eq_none_iff.1 hlast)
  | some last =>
    obtain ⟨hlastLess, hlastAt⟩ := hkeyed.keyAt_iff.1 (lastPlace?_eq_some_iff.1 hlast).1
    rw [h.owners, hlast, hkeyed.keyAt_unique hnodup hlastLess hlastAt hplace hat]

/-- Up to the first place that a conversion cannot get past, records have keys, and different ones
if duplicates are rejected. -/
theorem exists_keyed_of_not_stops {options : Options} {records : List Record} {count : Nat}
    (hcount : count ≤ records.length) (h : ∀ place < count, ¬Stops options records place) :
    ∃ accepted, Keyed options (records.take count) accepted ∧
      (options.duplicates = .reject → (accepted.map Prod.fst).Nodup) := by
  induction count with
  | zero => exact ⟨[], rfl, fun _ => List.nodup_nil⟩
  | succ count ih =>
    obtain ⟨accepted, hkeyed, hnodup⟩ := ih (by omega) fun place hlt => h place (by omega)
    have hplace : records[count]? = some records[count] := List.getElem?_eq_getElem hcount
    have hgoes := h count (by omega)
    cases hrecord : records[count].keyed options with
    | error error => exact absurd ⟨_, hplace, .inl ⟨error, hrecord⟩⟩ hgoes
    | ok entry =>
      refine ⟨accepted ++ [entry], ?_, fun hrule => ?_⟩
      · rw [Keyed, List.take_succ_eq_append_getElem hcount, List.map_append, List.map_append, hkeyed]
        simp [hrecord]
      · rw [List.map_append, List.map_singleton, List.nodup_append]
        refine ⟨hnodup hrule, by simp, fun key hkey other hother heq => hgoes ?_⟩
        rw [List.mem_singleton.1 hother] at heq
        subst heq
        obtain ⟨earlier, hearlier⟩ := List.mem_iff_getElem?.1 hkey
        obtain ⟨hlt, hat⟩ := hkeyed.keyAt_iff.1 hearlier
        exact ⟨_, hplace, .inr ⟨hrule, _, _, hrecord, earlier, hlt, hat⟩⟩

/-! ## The end of a conversion -/

/-- If all records are written, the table is closed. -/
theorem script_of_entries_ok {options : Options} {records : List Record} {last : Progress}
    (h : (entries options .start records).outcome = .ok last) :
    (script options records).outcome = .ok last.summary ∧
      (script options records).bytes = textBytes TableText.opening ++
        (entries options .start records).bytes ++ textBytes TableText.closing := by
  rw [script, outcome_bind_of_ok rfl, outcome_bind_of_ok h, bytes_bind_of_ok rfl,
    bytes_bind_of_ok h, bytes_bind_of_ok rfl, bytes_bind_of_ok rfl]
  exact ⟨rfl, by simp⟩

/-- If not, it is not. -/
theorem script_of_entries_error {options : Options} {records : List Record} {error : Error}
    (h : (entries options .start records).outcome = .error error) :
    (script options records).outcome = .error error ∧
      (script options records).bytes = textBytes TableText.opening ++
        (entries options .start records).bytes := by
  rw [script, outcome_bind_of_ok rfl, outcome_bind_of_error h, bytes_bind_of_ok rfl,
    bytes_bind_of_error h]
  exact ⟨rfl, by simp⟩

/-- If the record at a place is refused after the entries before it, the conversion ends there. -/
theorem entries_of_refused {options : Options} {records : List Record}
    (hnumbered : NumberedFrom 0 records) {place : Nat} {record : Record}
    (hrecord : records[place]? = some record) {accepted : List (String × Fields)}
    (hkeyed : Keyed options (records.take place) accepted)
    (hnodup : options.duplicates = .reject → (accepted.map Prod.fst).Nodup) {error : Error}
    (hrefused : ∀ progress : Progress, progress.Covers accepted →
      (entry options progress record).outcome = .error error ∧
        (entry options progress record).bytes = []) :
    (entries options .start records).outcome = .error error ∧
      (entries options .start records).bytes = textBytes (TableText.body accepted) := by
  obtain ⟨hlt, hget⟩ := List.getElem?_eq_some_iff.1 hrecord
  have hsplit : records = records.take place ++ record :: records.drop (place + 1) := by
    rw [← hget, ← List.drop_eq_getElem_cons hlt, List.take_append_drop]
  have hfirst : NumberedFrom 0 (records.take place) := hnumbered.take place
  obtain ⟨next, houtcome, hcovers, hbytes⟩ := entries_start_of_keyed hkeyed hfirst hnodup
  obtain ⟨herror, hnothing⟩ := hrefused next hcovers
  rw [hsplit, entries_append, outcome_bind_of_ok houtcome, bytes_bind_of_ok houtcome, hbytes,
    entries, outcome_bind_of_error herror, bytes_bind_of_error herror, hnothing, List.append_nil]
  exact ⟨rfl, rfl⟩

/-- Without a place that it cannot get past, a conversion writes the table of all entries. -/
theorem script_of_not_stops {options : Options} {records : List Record}
    (hnumbered : NumberedFrom 0 records) (hgoes : ∀ place, ¬Stops options records place) :
    ∃ written : List (String × Fields), Keyed options records written ∧
      (script options records).outcome =
        .ok ⟨records.length, (written.map Prod.fst).eraseDups.length⟩ ∧
      (script options records).bytes =
        textBytes (TableText.opening ++ TableText.body written ++ TableText.closing) := by
  obtain ⟨written, hkeyed, hnodup⟩ :=
    exists_keyed_of_not_stops (Nat.le_refl records.length) fun place _ => hgoes place
  rw [List.take_length] at hkeyed
  obtain ⟨last, houtcome, hcovers, hbytes⟩ := entries_start_of_keyed hkeyed hnumbered hnodup
  obtain ⟨hresult, hwritten⟩ := script_of_entries_ok houtcome
  have hlength : written.length = records.length := by
    simpa using (congrArg List.length hkeyed).symm
  refine ⟨written, hkeyed, ?_, ?_⟩
  · rw [hresult, Progress.summary, hcovers.written, hcovers.size, hlength]
  · rw [hwritten, hbytes, textBytes_append, textBytes_append]

/-- At the first such place it ends, and the entries before it are what is written. -/
theorem script_of_stops {options : Options} {records : List Record}
    (hnumbered : NumberedFrom 0 records) {place : Nat} (hstops : Stops options records place)
    (hbefore : ∀ before < place, ¬Stops options records before) :
    ∃ written : List (String × Fields), Keyed options (records.take place) written ∧
      (script options records).bytes = textBytes (TableText.opening ++ TableText.body written) ∧
      ∃ record, records[place]? = some record ∧
        match record.keyed options with
        | .error error => (script options records).outcome = .error error
        | .ok (key, _) =>
          options.duplicates = .reject ∧ ∃ earlier < place,
            (script options records).outcome = .error (.duplicateKey place key earlier) ∧
            ∀ other < place, KeyAt options records other key ↔ other = earlier := by
  obtain ⟨record, hrecord, hstop⟩ := hstops
  obtain ⟨hlt, -⟩ := List.getElem?_eq_some_iff.1 hrecord
  obtain ⟨written, hkeyed, hnodup⟩ := exists_keyed_of_not_stops (Nat.le_of_lt hlt) hbefore
  have hend : ∀ error, (∀ progress : Progress, progress.Covers written →
      (entry options progress record).outcome = .error error ∧
        (entry options progress record).bytes = []) →
      (script options records).outcome = .error error ∧
        (script options records).bytes =
          textBytes (TableText.opening ++ TableText.body written) := by
    intro error hrefused
    obtain ⟨houtcome, hbytes⟩ := entries_of_refused hnumbered hrecord hkeyed hnodup hrefused
    obtain ⟨hresult, hwritten⟩ := script_of_entries_error houtcome
    exact ⟨hresult, by rw [hwritten, hbytes, textBytes_append]⟩
  rcases hstop with ⟨error, herror⟩ | ⟨hrule, key, payload, hkey, earlier, hless, hat⟩
  · obtain ⟨hresult, hwritten⟩ := hend error fun progress _ =>
      entry_of_keyed_error herror progress
    refine ⟨written, hkeyed, hwritten, record, hrecord, ?_⟩
    rw [herror]
    exact hresult
  · have hindex : record.index = place := by simpa using hnumbered place record hrecord
    obtain ⟨hresult, hwritten⟩ := hend (.duplicateKey place key earlier) fun progress hcovers => by
      have howner := hcovers.owner_of_keyAt hkeyed (hnodup hrule) hless hat
      simpa only [hindex] using entry_of_duplicate hkey hrule howner
    refine ⟨written, hkeyed, hwritten, record, hrecord, ?_⟩
    rw [hkey]
    refine ⟨hrule, earlier, hless, hresult, fun other hother => ⟨fun hotherAt => ?_, ?_⟩⟩
    · exact hkeyed.keyAt_unique (hnodup hrule) hother hotherAt hless hat
    · rintro rfl
      exact hat

/-- If there is such a place, there is a first one. -/
theorem exists_first_stop {options : Options} {records : List Record} {place : Nat}
    (h : Stops options records place) :
    ∃ first, Stops options records first ∧ ∀ before < first, ¬Stops options records before := by
  induction place using Nat.strongRecOn with
  | _ place ih =>
    by_cases hbefore : ∃ before < place, Stops options records before
    · obtain ⟨before, hlt, hstops⟩ := hbefore
      exact ih before hlt hstops
    · exact ⟨place, h, fun before hlt hstops => hbefore ⟨before, hlt, hstops⟩⟩

/-- A conversion that fails has written the entries of the first records, and has not closed the
table. -/
theorem exists_body_of_error {options : Options} {records : List Record}
    (hnumbered : NumberedFrom 0 records) {error : Error}
    (h : (script options records).outcome = .error error) :
    ∃ written : List (String × Fields), (script options records).bytes =
      textBytes (TableText.opening ++ TableText.body written) := by
  by_cases hstops : ∃ place, Stops options records place
  · obtain ⟨place, hstops⟩ := hstops
    obtain ⟨first, hfirst, hbefore⟩ := exists_first_stop hstops
    obtain ⟨written, -, hbytes, -⟩ := script_of_stops hnumbered hfirst hbefore
    exact ⟨written, hbytes⟩
  · obtain ⟨written, -, houtcome, -⟩ :=
      script_of_not_stops hnumbered fun place hplace => hstops ⟨place, hplace⟩
    rw [houtcome] at h
    cases h

/-- A conversion that succeeds gets past all records. -/
theorem not_stops_of_ok {options : Options} {records : List Record}
    (hnumbered : NumberedFrom 0 records) {summary : Summary}
    (h : (script options records).outcome = .ok summary) (place : Nat) :
    ¬Stops options records place := by
  intro hstops
  obtain ⟨first, hfirst, hbefore⟩ := exists_first_stop hstops
  obtain ⟨_, -, -, record, -, hresult⟩ := script_of_stops hnumbered hfirst hbefore
  rw [h] at hresult
  split at hresult
  · cases hresult
  · obtain ⟨-, earlier, -, herror, -⟩ := hresult
    cases herror

/-- It has written the table of all entries, and counted them. -/
theorem exists_keyed_of_ok {options : Options} {records : List Record}
    (hnumbered : NumberedFrom 0 records) {summary : Summary}
    (h : (script options records).outcome = .ok summary) :
    ∃ written : List (String × Fields), Keyed options records written ∧
      summary = ⟨records.length, (written.map Prod.fst).eraseDups.length⟩ ∧
      (script options records).bytes =
        textBytes (TableText.opening ++ TableText.body written ++ TableText.closing) := by
  obtain ⟨written, hkeyed, houtcome, hbytes⟩ :=
    script_of_not_stops hnumbered (not_stops_of_ok hnumbered h)
  exact ⟨written, hkeyed, Except.ok.inj (h.symm.trans houtcome), hbytes⟩

/-- **A conversion is the conversion of all records at once.**  If there is no place that it cannot
get past, the table of all entries is written in the order of the records, and the summary counts
the records and the different keys among them.  Otherwise what is written is the opening bracket
and the entries of the records before the first such place, with nothing behind them, and the
result says what is wrong with the record there: it has no key, or its key is that of an earlier
record, and of one only. -/
theorem run_eq_batch (options : Options) (objects : List Fields) :
    let records := Record.ofFields objects
    let run := ({} : Sink).run (script options records)
    ((∀ place, ¬Stops options records place) →
      ∃ written : List (String × Fields), Keyed options records written ∧
        run.result = .ok ⟨records.length, (written.map Prod.fst).eraseDups.length⟩ ∧
        run.sink.stored.bytes =
          textBytes (TableText.opening ++ TableText.body written ++ TableText.closing)) ∧
    ∀ place, Stops options records place → (∀ before < place, ¬Stops options records before) →
      ∃ written : List (String × Fields), Keyed options (records.take place) written ∧
        run.sink.stored.bytes = textBytes (TableText.opening ++ TableText.body written) ∧
        ∃ record, records[place]? = some record ∧
          match record.keyed options with
          | .error error => run.result = .error error
          | .ok (key, _) =>
            options.duplicates = .reject ∧ ∃ earlier < place,
              run.result = .error (.duplicateKey place key earlier) ∧
              ∀ other < place, KeyAt options records other key ↔ other = earlier := by
  intro records run
  obtain ⟨hresult, hstored⟩ := Sink.run_endless (flushesLast_script options records)
  have hnumbered : NumberedFrom 0 records := numberedFrom_ofFields objects
  refine ⟨fun hgoes => ?_, fun place hstops hbefore => ?_⟩
  · rw [hresult, hstored]
    exact script_of_not_stops hnumbered hgoes
  · rw [hresult, hstored]
    exact script_of_stops hnumbered hstops hbefore

end Conversion
end OpcodeTable
