import OpcodeTable.Proofs.Conversion.Rules

/-!
# What the log says of a conversion

The log can be read in place of the table.  Leaving the lines of the lowest severity out, a
conversion adds one line for every entry that it writes, and before it another one if the entry
overrides an earlier one.  All of these lines are given by the keys that are written, in their
order, whether the conversion comes to its end or not.

## What is here

* `Conversion.account`, the lines for keys that are written, and `Conversion.overrides`, the
  warnings among them.
* `Conversion.mem_overrides_iff`, `Conversion.pairwise_overrides` and `Conversion.length_overrides`,
  which entries override others, in which order, and how many do.
* `Conversion.lines_entry_of_accepted` for one record, and from it `Conversion.lines_entries` by
  induction on the records.
* `Conversion.log_tells_entries`, the log of a whole conversion.
-/

set_option autoImplicit false

namespace OpcodeTable

open Json

/-- The lines of one severity. -/
def Log.linesAt (level : Log.Level) (events : List Log.Event) : List Log.Event :=
  events.filter fun event => event.level = level

/-- A script that is run on an endless sink adds all its lines to the log. -/
theorem Sink.events_run_endless {α : Type} (script : Script α) :
    (({} : Sink).run script).events = script.events := by
  -- no step takes room away or has a flush refused, so the induction is for any such sink
  have hperform : ∀ (steps : List Step) (sink : Sink), sink.room = none →
      sink.whenFlushed = none →
      (sink.perform script.outcome steps).events = steps.filterMap Step.event? := by
    intro steps
    induction steps with
    | nil => exact fun _ _ _ => rfl
    | cons step rest ih =>
      intro sink hroom hflush
      obtain ⟨after, htake, hafterRoom, hafterFlush⟩ : ∃ after, sink.take step = (.ok (), after) ∧
          after.room = none ∧ after.whenFlushed = none := by
        cases step with
        | note event => exact ⟨sink, rfl, hroom, hflush⟩
        | emit text =>
          refine ⟨{ sink with stored := sink.stored.add (textBytes text) }, ?_, hroom, hflush⟩
          simp only [take, write, hroom]
        | flush => exact ⟨sink, by rw [take, flush, hflush], hroom, hflush⟩
      rw [perform, htake]
      dsimp only
      rw [ih after hafterRoom hafterFlush]
      cases step <;> rfl
  exact hperform script.steps {} rfl rfl

namespace Conversion

open Script

/-! ## The lines for keys that are written -/

/-- The line for an entry that is written. -/
def entryLine (place : Nat) (key : String) : Log.Event :=
  ⟨.debug, .conversion, "record " ++ toString place ++ " -> " ++ key⟩

/-- An entry that overrides an earlier one. -/
structure Override where
  place : Nat
  key : String
  earlier : Nat

/-- The line for such an entry. -/
def Override.line (override : Override) : Log.Event :=
  ⟨.warn, .conversion, "record " ++ toString override.place ++ ": key '" ++ override.key
    ++ "' overrides record " ++ toString override.earlier⟩

/-- The override that a further key makes, if it is one of the keys already. -/
def overrideOf? (keys : List String) (key : String) : Option Override :=
  (lastPlace? keys key).map fun earlier => ⟨keys.length, key, earlier⟩

/-- The overrides among keys. -/
def overrides (keys : List String) : List Override :=
  keys.zipIdx.filterMap fun (key, place) => overrideOf? (keys.take place) key

/-- The lines for keys: each has its own, and a warning before it if it overrides an earlier one. -/
def account (keys : List String) : List Log.Event :=
  keys.zipIdx.flatMap fun (key, place) =>
    ((overrideOf? (keys.take place) key).map Override.line).toList ++ [entryLine place key]

section

variable (keys : List String) (key : String)

theorem zipIdx_append_singleton :
    (keys ++ [key]).zipIdx = keys.zipIdx ++ [(key, keys.length)] := by
  simp [List.zipIdx_append]

variable {keys} in
/-- What stands before a place does not depend on what follows. -/
theorem take_append_of_mem_zipIdx {entry : String × Nat} (h : entry ∈ keys.zipIdx) :
    (keys ++ [key]).take entry.2 = keys.take entry.2 :=
  List.take_append_of_le_length (Nat.le_of_lt (List.snd_lt_of_mem_zipIdx h))

theorem overrides_append_singleton :
    overrides (keys ++ [key]) = overrides keys ++ (overrideOf? keys key).toList := by
  have hbefore : keys.zipIdx.filterMap (fun entry =>
      overrideOf? ((keys ++ [key]).take entry.2) entry.1) = overrides keys :=
    List.filterMap_congr fun entry hentry => by rw [take_append_of_mem_zipIdx key hentry]
  rw [overrides, zipIdx_append_singleton, List.filterMap_append, hbefore]
  cases h : overrideOf? keys key <;> simp [h]

theorem account_append_singleton :
    account (keys ++ [key]) =
      account keys ++ (((overrideOf? keys key).map Override.line).toList ++
        [entryLine keys.length key]) := by
  have hbefore : keys.zipIdx.flatMap (fun entry =>
      ((overrideOf? ((keys ++ [key]).take entry.2) entry.1).map Override.line).toList ++
        [entryLine entry.2 entry.1]) = account keys :=
    List.flatMap_congr fun entry hentry => by rw [take_append_of_mem_zipIdx key hentry]
  rw [account, zipIdx_append_singleton, List.flatMap_append, hbefore]
  simp

/-- The lines for the keys themselves. -/
theorem linesAt_debug_account :
    Log.linesAt .debug (account keys) =
      keys.zipIdx.map fun entry => entryLine entry.2 entry.1 := by
  induction keys using List.reverseRecOn with
  | nil => rfl
  | append_singleton before new ih =>
    rw [account_append_singleton, zipIdx_append_singleton, List.map_append, ← ih, Log.linesAt,
      List.filter_append]
    congr 1
    cases overrideOf? before new <;> rfl

/-- The warnings. -/
theorem linesAt_warn_account :
    Log.linesAt .warn (account keys) = (overrides keys).map Override.line := by
  induction keys using List.reverseRecOn with
  | nil => rfl
  | append_singleton before new ih =>
    rw [account_append_singleton, overrides_append_singleton, List.map_append, ← ih, Log.linesAt,
      List.filter_append]
    congr 1
    cases overrideOf? before new <;> rfl

/-! ## Overrides -/

variable {keys} in
/-- A key overrides the last of the equal ones before it. -/
theorem mem_overrides_iff {override : Override} :
    override ∈ overrides keys ↔ keys[override.place]? = some override.key ∧
      override.earlier < override.place ∧ keys[override.earlier]? = some override.key ∧
      ∀ between, override.earlier < between → between < override.place →
        keys[between]? ≠ some override.key := by
  rw [overrides, List.mem_filterMap]
  constructor
  · rintro ⟨⟨key, place⟩, hentry, hoverride⟩
    have hkey := List.mem_zipIdx_iff_getElem?.1 hentry
    have hlt := (List.getElem?_eq_some_iff.1 hkey).1
    obtain ⟨earlier, hlast, rfl⟩ := Option.map_eq_some_iff.1 hoverride
    obtain ⟨hearlier, hlatest⟩ := lastPlace?_eq_some_iff.1 hlast
    have hless := (List.getElem?_eq_some_iff.1 hearlier).1
    rw [List.length_take_of_le (Nat.le_of_lt hlt)] at hless ⊢
    refine ⟨hkey, hless, by rwa [List.getElem?_take_of_lt hless] at hearlier, ?_⟩
    intro between hafter hbefore
    rw [← List.getElem?_take_of_lt hbefore]
    exact hlatest between hafter
  · obtain ⟨place, key, earlier⟩ := override
    rintro ⟨hkey, hless, hearlier, hlatest⟩
    have hlt := (List.getElem?_eq_some_iff.1 hkey).1
    refine ⟨(key, place), List.mem_zipIdx_iff_getElem?.2 hkey, ?_⟩
    have hlast : lastPlace? (keys.take place) key = some earlier := by
      refine lastPlace?_eq_some_iff.2 ⟨by rwa [List.getElem?_take_of_lt hless], ?_⟩
      intro later hlater hother
      have hplace := (List.getElem?_eq_some_iff.1 hother).1
      rw [List.length_take_of_le (Nat.le_of_lt hlt)] at hplace
      rw [List.getElem?_take_of_lt hplace] at hother
      exact hlatest later hlater hplace hother
    dsimp only
    rw [overrideOf?, hlast, List.length_take_of_le (Nat.le_of_lt hlt)]
    rfl

/-- The second of three equal keys overrides the first, and the third the second. -/
example : overrides ["A", "B", "A", "A"] = [⟨2, "A", 0⟩, ⟨3, "A", 2⟩] := rfl

/-- Overrides are in the order of the entries that override. -/
theorem pairwise_overrides :
    (overrides keys).Pairwise fun first second => first.place < second.place := by
  induction keys using List.reverseRecOn with
  | nil => exact .nil
  | append_singleton before new ih =>
    rw [overrides_append_singleton, List.pairwise_append]
    refine ⟨ih, ?_, fun first hfirst second hsecond => ?_⟩
    · cases overrideOf? before new <;> simp
    · obtain ⟨earlier, -, rfl⟩ := Option.map_eq_some_iff.1 (Option.mem_toList.1 hsecond)
      exact (List.getElem?_eq_some_iff.1 (mem_overrides_iff.1 hfirst).1).1

/-- Every key but the first of its kind overrides one. -/
theorem length_overrides : (overrides keys).length + keys.eraseDups.length = keys.length := by
  induction keys using List.reverseRecOn with
  | nil => rfl
  | append_singleton before new ih =>
    rw [overrides_append_singleton, eraseDups_append_singleton, List.length_append,
      List.length_append, List.length_singleton, ← ih, overrideOf?]
    cases hlast : lastPlace? before new with
    | none =>
      rw [if_neg (lastPlace?_eq_none_iff.1 hlast)]
      simp
      omega
    | some place =>
      rw [if_pos (List.mem_of_getElem? (lastPlace?_eq_some_iff.1 hlast).1)]
      simp
      omega

/-- Different keys override none. -/
theorem overrides_of_nodup (h : keys.Nodup) : overrides keys = [] := by
  have hlength := length_overrides keys
  rw [length_eraseDups_eq_iff.2 h] at hlength
  exact List.eq_nil_of_length_eq_zero (by omega)

end

/-! ## The lines of a conversion -/

/-- The check of a key adds a warning if an earlier entry is overridden. -/
theorem lines_checkOwner {options : Options} {progress : Progress}
    {before : List (String × Fields)} (hbefore : progress.Covers before) {key : String}
    (hfresh : options.duplicates = .reject → key ∉ before.map Prod.fst) {record : Record}
    (hindex : record.index = before.length) :
    (checkOwner options progress record key).lines =
      ((overrideOf? (before.map Prod.fst) key).map Override.line).toList := by
  rw [checkOwner, overrideOf?, ← hbefore.owners, List.length_map, ← hindex]
  cases howner : progress.owners[key]? with
  | none => rfl
  | some earlier =>
    cases hrule : options.duplicates with
    | overwrite => exact lines_note (by decide) _ _
    | reject =>
      rw [hbefore.owners, lastPlace?_eq_none_iff.2 (hfresh hrule)] at howner
      cases howner

/-- A record that is written adds its lines behind those of the records before it. -/
theorem lines_entry_of_accepted {options : Options} {record : Record} {key : String}
    {payload : Fields} (h : record.keyed options = .ok (key, payload)) {progress : Progress}
    {before : List (String × Fields)} (hbefore : progress.Covers before)
    (hindex : record.index = before.length)
    (hfresh : options.duplicates = .reject → key ∉ before.map Prod.fst) :
    account (before.map Prod.fst) ++ (entry options progress record).lines =
      account ((before ++ [(key, payload)]).map Prod.fst) := by
  have hcheck := outcome_checkOwner hbefore hfresh record
  rw [List.map_append, List.map_singleton, account_append_singleton, entry_eq,
    lines_bind_of_ok h, (traces_toEntry options record).lines_eq_nil, List.nil_append]
  dsimp only
  rw [lines_bind_of_ok hcheck, lines_checkOwner hbefore hfresh hindex, lines_bind_of_ok rfl,
    lines_note (by decide), lines_bind_of_ok rfl, lines_emit, lines_pure, hindex, List.length_map]
  rfl

/-- The check of a key that does not pass adds none. -/
theorem lines_checkOwner_of_error {options : Options} {progress : Progress} {record : Record}
    {key : String} {error : Error}
    (h : (checkOwner options progress record key).outcome = .error error) :
    (checkOwner options progress record key).lines = [] := by
  rw [checkOwner] at h ⊢
  cases howner : progress.owners[key]? with
  | none => rfl
  | some earlier =>
    rw [howner] at h
    cases hrule : options.duplicates with
    | reject => rfl
    | overwrite =>
      rw [hrule] at h
      cases h

/-- Nor does a record that is refused. -/
theorem lines_entry_of_error {options : Options} {progress : Progress} {record : Record}
    {error : Error} (h : (entry options progress record).outcome = .error error) :
    (entry options progress record).lines = [] := by
  have htraces := (traces_toEntry options record).lines_eq_nil
  rw [entry_eq] at h ⊢
  cases hkeyed : (record.toEntry options).outcome with
  | error fault => rw [lines_bind_of_error hkeyed, htraces]
  | ok keyed =>
    rw [outcome_bind_of_ok hkeyed] at h
    rw [lines_bind_of_ok hkeyed, htraces, List.nil_append]
    dsimp only at h ⊢
    cases hcheck : (checkOwner options progress record keyed.1).outcome with
    | error fault => rw [lines_bind_of_error hcheck, lines_checkOwner_of_error hcheck]
    | ok done =>
      rw [outcome_bind_of_ok hcheck] at h
      cases h

/-- Records with keys are a list of them with a last one. -/
theorem Keyed.of_append_singleton {options : Options} {records : List Record} {last : Record}
    {entries : List (String × Fields)} (h : Keyed options (records ++ [last]) entries) :
    ∃ before entry, entries = before ++ [entry] ∧ Keyed options records before ∧
      last.keyed options = .ok entry := by
  rw [Keyed, List.map_append, List.map_singleton] at h
  obtain ⟨before, rest, rfl, hbefore, hrest⟩ := List.map_eq_append_iff.1 h.symm
  obtain ⟨entry, rfl, hentry⟩ := List.map_eq_singleton_iff.1 hrest
  exact ⟨before, entry, rfl, hbefore.symm, hentry.symm⟩

/-- The lines of records that are written. -/
theorem lines_entries {options : Options} {records : List Record}
    {accepted : List (String × Fields)} (hkeyed : Keyed options records accepted)
    (hnumbered : NumberedFrom 0 records)
    (hfresh : options.duplicates = .reject → (accepted.map Prod.fst).Nodup) :
    (entries options .start records).lines = account (accepted.map Prod.fst) := by
  induction records using List.reverseRecOn generalizing accepted with
  | nil =>
    obtain rfl : accepted = [] := by simpa [Keyed, eq_comm] using hkeyed
    rfl
  | append_singleton front last ih =>
    obtain ⟨before, ⟨key, payload⟩, rfl, hfront, hlast⟩ := hkeyed.of_append_singleton
    have hbefore : options.duplicates = .reject →
        (before.map Prod.fst).Nodup ∧ key ∉ before.map Prod.fst := by
      intro hrule
      have hnodup := hfresh hrule
      rw [List.map_append, List.map_singleton, List.nodup_append] at hnodup
      exact ⟨hnodup.1, fun hmem => hnodup.2.2 key hmem key (List.mem_singleton.2 rfl) rfl⟩
    have hfrontNumbered : NumberedFrom 0 front := by
      intro place record hrecord
      have hlt := (List.getElem?_eq_some_iff.1 hrecord).1
      exact hnumbered place record (by rwa [List.getElem?_append_left hlt])
    obtain ⟨next, houtcome, hcovers, -⟩ :=
      entries_start_of_keyed hfront hfrontNumbered fun hrule => (hbefore hrule).1
    have hindex : last.index = before.length := by
      have hplace := hnumbered front.length last (by simp)
      rw [hplace, hfront.length_eq, Nat.zero_add]
    obtain ⟨after, hafter, -⟩ := entry_of_accepted hlast hcovers hindex fun hrule =>
      (hbefore hrule).2
    rw [entries_append, lines_bind_of_ok houtcome,
      ih hfront hfrontNumbered fun hrule => (hbefore hrule).1, entries, lines_bind_of_ok hafter,
      entries, lines_pure, List.append_nil]
    exact lines_entry_of_accepted hlast hcovers hindex fun hrule => (hbefore hrule).2

/-- A conversion adds no lines but those of its records. -/
theorem lines_script (options : Options) (records : List Record) :
    (script options records).lines = (entries options .start records).lines := by
  rw [script, lines_bind_of_ok rfl, lines_emit, List.nil_append]
  cases houtcome : (entries options .start records).outcome with
  | error error => rw [lines_bind_of_error houtcome]
  | ok last =>
    rw [lines_bind_of_ok houtcome, lines_bind_of_ok rfl, lines_emit, lines_bind_of_ok rfl,
      lines_flush, lines_pure, List.append_nil, List.append_nil, List.append_nil]

/-- A conversion that stops at a place has the lines of the records before it. -/
theorem lines_script_of_stops {options : Options} {records : List Record}
    (hnumbered : NumberedFrom 0 records) {place : Nat} (hstops : Stops options records place)
    {written : List (String × Fields)} (hkeyed : Keyed options (records.take place) written)
    (hnodup : options.duplicates = .reject → (written.map Prod.fst).Nodup) :
    (script options records).lines = account (written.map Prod.fst) := by
  obtain ⟨record, hrecord, hstop⟩ := hstops
  have hrefused : ∀ progress : Progress, progress.Covers written →
      ∃ error, (entry options progress record).outcome = .error error := by
    intro progress hcovers
    rcases hstop with ⟨error, herror⟩ | ⟨hrule, key, payload, hkey, earlier, hless, hat⟩
    · exact ⟨error, (entry_of_keyed_error herror progress).1⟩
    · have howner := hcovers.owner_of_keyAt hkeyed (hnodup hrule) hless hat
      exact ⟨_, (entry_of_duplicate hkey hrule howner).1⟩
  obtain ⟨hlt, hget⟩ := List.getElem?_eq_some_iff.1 hrecord
  have hsplit : records = records.take place ++ record :: records.drop (place + 1) := by
    rw [← hget, ← List.drop_eq_getElem_cons hlt, List.take_append_drop]
  have hfirst : NumberedFrom 0 (records.take place) := hnumbered.take place
  obtain ⟨next, houtcome, hcovers, -⟩ := entries_start_of_keyed hkeyed hfirst hnodup
  obtain ⟨error, herror⟩ := hrefused next hcovers
  rw [lines_script, hsplit, entries_append, lines_bind_of_ok houtcome,
    lines_entries hkeyed hfirst hnodup, entries, lines_bind_of_error herror,
    lines_entry_of_error herror, List.append_nil]

/-- The record at the place of an override has the key of earlier ones, and overrides the last of
these. -/
structure Override.Holds (options : Options) (records : List Record) (override : Override) :
    Prop where
  key : KeyAt options records override.place override.key
  less : override.earlier < override.place
  same : KeyAt options records override.earlier override.key
  latest : ∀ between, override.earlier < between → between < override.place →
    ¬KeyAt options records between override.key

/-- The overrides among the keys that are written are those of the records. -/
theorem Keyed.mem_overrides_iff {options : Options} {records : List Record} {count : Nat}
    {written : List (String × Fields)} (h : Keyed options (records.take count) written)
    {override : Override} :
    override ∈ overrides (written.map Prod.fst) ↔
      override.place < count ∧ override.Holds options records := by
  rw [Conversion.mem_overrides_iff, h.keyAt_iff, h.keyAt_iff]
  constructor
  · rintro ⟨⟨hplace, hkey⟩, hless, ⟨-, hsame⟩, hlatest⟩
    refine ⟨hplace, hkey, hless, hsame, fun between hafter hbefore hat => ?_⟩
    exact hlatest between hafter hbefore (h.keyAt_iff.2 ⟨by omega, hat⟩)
  · rintro ⟨hplace, hkey, hless, hsame, hlatest⟩
    refine ⟨⟨hplace, hkey⟩, hless, ⟨by omega, hsame⟩, fun between hafter hbefore hat => ?_⟩
    exact hlatest between hafter hbefore (h.keyAt_iff.1 hat).2

/-- What a conversion writes and the lines that it adds, however it ends: both are given by the
entries of the first records. -/
theorem exists_written (options : Options) {records : List Record}
    (hnumbered : NumberedFrom 0 records) :
    ∃ written : List (String × Fields),
      Keyed options (records.take written.length) written ∧
      (options.duplicates = .reject → (written.map Prod.fst).Nodup) ∧
      (script options records).bytes = textBytes (TableText.opening ++ TableText.body written ++
        if (script options records).outcome.isOk then TableText.closing else "") ∧
      (script options records).lines = account (written.map Prod.fst) ∧
      ∀ summary, (script options records).outcome = .ok summary →
        summary = ⟨written.length, (written.map Prod.fst).eraseDups.length⟩ := by
  by_cases hstops : ∃ place, Stops options records place
  · obtain ⟨some, hsome⟩ := hstops
    obtain ⟨place, hplace, hbefore⟩ := exists_first_stop hsome
    obtain ⟨written, hkeyed, hbytes, record, hrecord, hend⟩ :=
      script_of_stops hnumbered hplace hbefore
    have hless := (List.getElem?_eq_some_iff.1 hrecord).1
    obtain ⟨accepted, haccepted, hnodup⟩ := exists_keyed_of_not_stops (Nat.le_of_lt hless) hbefore
    obtain rfl := haccepted.unique hkeyed
    have hlength : accepted.length = place := by
      rw [hkeyed.length_eq, List.length_take_of_le (Nat.le_of_lt hless)]
    obtain ⟨error, herror⟩ : ∃ error, (script options records).outcome = .error error := by
      split at hend
      · exact ⟨_, hend⟩
      · obtain ⟨-, earlier, -, herror, -⟩ := hend
        exact ⟨_, herror⟩
    refine ⟨accepted, hlength ▸ hkeyed, hnodup, ?_,
      lines_script_of_stops hnumbered hplace hkeyed hnodup, ?_⟩
    · rw [hbytes, herror]
      simp [Except.isOk, Except.toBool]
    · rw [herror]
      exact nofun
  · have hgoes : ∀ place, ¬Stops options records place := fun place h => hstops ⟨place, h⟩
    obtain ⟨written, hkeyed, houtcome, hbytes⟩ := script_of_not_stops hnumbered hgoes
    obtain ⟨accepted, haccepted, hnodup⟩ :=
      exists_keyed_of_not_stops (Nat.le_refl records.length) fun place _ => hgoes place
    rw [List.take_length] at haccepted
    obtain rfl := haccepted.unique hkeyed
    refine ⟨accepted, ?_, hnodup, ?_, ?_, ?_⟩
    · rwa [hkeyed.length_eq, List.take_length]
    · rw [hbytes, houtcome]
      rfl
    · rw [lines_script, lines_entries hkeyed hnumbered hnodup]
    · rw [houtcome, ← hkeyed.length_eq]
      rintro _ ⟨⟩
      rfl

/-- The lines of a severity but the lowest are among those that are kept. -/
theorem linesAt_lines {α : Type} (script : Script α) {level : Log.Level} (h : level ≠ .trace) :
    Log.linesAt level script.events = Log.linesAt level script.lines := by
  rw [Log.linesAt, Log.linesAt, lines, List.filter_filter]
  refine List.filter_congr fun event _ => ?_
  by_cases hlevel : event.level = level <;> simp [hlevel, h]

/-- **The log tells what was written and what was overridden.**  However the conversion ends, there
is one line for each entry that it has written, in the order of the entries, with the place and the
key of its record.  If duplicates are rejected there are no warnings.  If they are overwritten there
is one for each record that has the key of an earlier one, in the order of the records, and it names
the last of these.  So if all records are written, the warnings and the different keys together are
as many as the records. -/
theorem log_tells_entries (options : Options) (objects : List Fields) :
    let records := Record.ofFields objects
    let run := ({} : Sink).run (script options records)
    ∃ (written : List (String × Fields)) (overridden : List Override),
      Keyed options (records.take written.length) written ∧
      run.sink.stored.bytes = textBytes (TableText.opening ++ TableText.body written ++
        if run.result.isOk then TableText.closing else "") ∧
      Log.linesAt .debug run.events =
        (written.map Prod.fst).zipIdx.map (fun entry => entryLine entry.2 entry.1) ∧
      Log.linesAt .warn run.events = overridden.map Override.line ∧
      (options.duplicates = .reject → overridden = []) ∧
      (options.duplicates = .overwrite →
        overridden.Pairwise (fun first second => first.place < second.place) ∧
        ∀ override, override ∈ overridden ↔
          override.place < written.length ∧ override.Holds options records) ∧
      ∀ summary, run.result = .ok summary →
        summary.records = written.length ∧
          overridden.length + summary.distinctKeys = summary.records := by
  intro records run
  have hnumbered : NumberedFrom 0 records := numberedFrom_ofFields objects
  have hrun : run.result = _ ∧ run.sink.stored.bytes = _ :=
    Sink.run_endless (flushesLast_script options records)
  have hevents : run.events = _ := Sink.events_run_endless (script options records)
  obtain ⟨written, hkeyed, hnodup, hbytes, hlines, hsummary⟩ := exists_written options hnumbered
  refine ⟨written, overrides (written.map Prod.fst), hkeyed, ?_, ?_, ?_, ?_, ?_, ?_⟩
  · rw [hrun.1, hrun.2, hbytes]
  · rw [hevents, linesAt_lines _ (by decide), hlines, linesAt_debug_account]
  · rw [hevents, linesAt_lines _ (by decide), hlines, linesAt_warn_account]
  · intro hrule
    exact overrides_of_nodup _ (hnodup hrule)
  · intro _
    exact ⟨pairwise_overrides _, fun override => hkeyed.mem_overrides_iff⟩
  · intro summary hok
    rw [hrun.1] at hok
    rw [hsummary summary hok]
    refine ⟨rfl, ?_⟩
    rw [length_overrides, List.length_map]

end Conversion

end OpcodeTable
