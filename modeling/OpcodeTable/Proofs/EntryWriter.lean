import OpcodeTable.EntryWriter
import OpcodeTable.Proofs.Conversion.Progress
import OpcodeTable.Proofs.Json.Printed
import OpcodeTable.Proofs.Sink

/-!
# Writing entries onto a sink that fills up

A table is written entry by entry by separate calls, and the caller may go on after a call that
failed.  All that counts is how many bytes have been offered to the sink: while they fit, calls
succeed, and once a byte was refused the sink is full for good, wherever in an entry that byte
stands.  What later calls write then differs from what they would have written otherwise, since the
failed entry does not count when it comes to the comma, but of that the sink takes nothing any more.

## What is here

* `Sink.Offered`, what a sink with so much room holds once these bytes have been offered to it, and
  `Sink.Offered.run`, by which a script offers it some more.
* `EntryWriter.enter`, a row of calls, and `EntryWriter.Took`, which calls of a row have succeeded.
* `EntryWriter.Took.entry`, what one more call does, and `EntryWriter.exists_took`, by induction
  from it, what a row of them does.
* `EntryWriter.calls_on_limited_sink`, the outcome of every row of calls on a sink of every size.
-/

set_option autoImplicit false

namespace OpcodeTable

open Json

namespace Sink

/-- A sink that takes `limit` bytes in all has been offered these, and holds those that fit. -/
structure Offered (sink : Sink) (limit : Nat) (cause : DeviceError) (bytes : List UInt8) :
    Prop where
  stored : sink.stored.bytes = bytes.take limit
  room : sink.room = some (limit - bytes.length)
  whenFull : sink.whenFull = cause
  whenFlushed : sink.whenFlushed = none

variable {sink : Sink} {limit : Nat} {cause : DeviceError} {bytes : List UInt8}

theorem offered_nil (limit : Nat) (cause : DeviceError) :
    Offered { room := some limit, whenFull := cause } limit cause [] :=
  ⟨by simp, rfl, rfl, rfl⟩

/-- Once the sink is full it does not matter what else it has been offered. -/
theorem Offered.of_full {others : List UInt8} (h : sink.Offered limit cause bytes)
    (hfull : limit ≤ bytes.length) (hsame : others.take limit = bytes.take limit)
    (hothers : limit ≤ others.length) : sink.Offered limit cause others := by
  refine ⟨h.stored.trans hsame.symm, h.room.trans ?_, h.whenFull, h.whenFlushed⟩
  rw [Nat.sub_eq_zero_of_le hfull, Nat.sub_eq_zero_of_le hothers]

/-- A step offers its bytes.  It succeeds if there is room for them. -/
theorem Offered.take (h : sink.Offered limit cause bytes) (step : Step) :
    (sink.take step).1 =
        (if step.bytes.length ≤ limit - bytes.length then .ok () else .error cause) ∧
      (sink.take step).2.Offered limit cause (bytes ++ step.bytes) := by
  cases step with
  | note event => simpa [Sink.take, Step.bytes] using h
  | flush => simpa [Sink.take, Step.bytes, flush, h.whenFlushed] using h
  | emit text =>
    simp only [Sink.take, write, h.room, Step.bytes, h.whenFull]
    refine ⟨rfl, ?_, ?_, rfl, h.whenFlushed⟩
    · rw [Buffer.bytes_add, h.stored, List.take_append]
    · rw [List.length_append, Nat.sub_sub]

/-- Steps offer their bytes one after the other, up to the first one for which there is no room. -/
theorem Offered.perform {α : Type} (h : sink.Offered limit cause bytes)
    (outcome : Except Error α) (steps : List Step) :
    (sink.perform outcome steps).result =
        (if (steps.flatMap Step.bytes).length ≤ limit - bytes.length then outcome
          else .error (.device cause)) ∧
      (sink.perform outcome steps).sink.Offered limit cause
        (bytes ++ steps.flatMap Step.bytes) := by
  induction steps generalizing sink bytes with
  | nil => simpa [Sink.perform] using h
  | cons step rest ih =>
    obtain ⟨hanswer, hafter⟩ := h.take step
    rw [List.flatMap_cons, List.length_append]
    by_cases hfits : step.bytes.length ≤ limit - bytes.length
    · rw [if_pos hfits] at hanswer
      have htake : sink.take step = (.ok (), (sink.take step).2) := Prod.ext hanswer rfl
      obtain ⟨hresult, hlast⟩ := ih hafter
      rw [Sink.perform, htake]
      refine ⟨hresult.trans ?_, by rwa [List.append_assoc] at hlast⟩
      have hiff : (rest.flatMap Step.bytes).length ≤ limit - (bytes ++ step.bytes).length ↔
          step.bytes.length + (rest.flatMap Step.bytes).length ≤ limit - bytes.length := by
        rw [List.length_append]
        omega
      simp only [hiff]
    · rw [if_neg hfits] at hanswer
      have htake : sink.take step = (.error cause, (sink.take step).2) := Prod.ext hanswer rfl
      rw [Sink.perform, htake, if_neg (by omega)]
      -- the steps behind this one are not taken, but the sink is full as it is
      refine ⟨rfl, hafter.of_full ?_ ?_ ?_⟩
      · rw [List.length_append]
        omega
      · rw [← List.append_assoc, List.take_append_of_le_length]
        rw [List.length_append]
        omega
      · simp only [List.length_append]
        omega

/-- A script offers its bytes, and succeeds only if there is room for all of them. -/
theorem Offered.run {α : Type} (h : sink.Offered limit cause bytes) (script : Script α) :
    (sink.run script).result =
        (if script.bytes.length ≤ limit - bytes.length then script.outcome
          else .error (.device cause)) ∧
      (sink.run script).sink.Offered limit cause (bytes ++ script.bytes) :=
  h.perform script.outcome script.steps

end Sink

/-- The bytes of a table without its closing bracket. -/
def TableText.openBytes (entries : List (String × Value)) : List UInt8 :=
  textBytes (opening ++ ",".intercalate (entries.map Value.memberText))

theorem TableText.openBytes_append_singleton (entries : List (String × Value))
    (entry : String × Value) :
    openBytes (entries ++ [entry]) =
      openBytes entries ++
        textBytes ((if entries.length = 0 then "" else ",") ++ Value.memberText entry) := by
  rw [openBytes, openBytes, List.map_append, List.map_singleton, intercalate_append_singleton,
    List.length_map, ← String.append_assoc, textBytes_append]

namespace EntryWriter

variable {limit : Nat} {cause : DeviceError}

/-- The bytes of an entry are those of its text, with a comma before it or not. -/
theorem bytes_entry (writer : EntryWriter) (entry : String × Value) :
    (Script.emit (TableText.entry (writer.entries = 0) entry.1 entry.2)).bytes =
      textBytes ((if writer.entries = 0 then "" else ",") ++ Value.memberText entry) := by
  rw [Script.bytes_emit, TableText.join_entry, Value.memberText]
  simp

theorem bytes_ending : ending.bytes = textBytes TableText.closing := by
  rw [ending, Script.bytes_bind_of_ok rfl, Script.bytes_emit, Script.bytes_flush,
    List.append_nil]
  rfl

/-- Makes calls one after the other, whatever comes of them. -/
def enter (writer : EntryWriter) : List (String × Value) → List (Except Error Unit) × EntryWriter
  | [] => ([], writer)
  | call :: rest =>
    let (result, after) := writer.entry call.1 call.2
    let (results, last) := after.enter rest
    (result :: results, last)

theorem enter_append_singleton (writer : EntryWriter) (calls : List (String × Value))
    (call : String × Value) :
    let run := writer.enter calls
    let next := run.2.entry call.1 call.2
    writer.enter (calls ++ [call]) = (run.1 ++ [next.1], next.2) := by
  induction calls generalizing writer with
  | nil => rfl
  | cons first rest ih => simp only [List.cons_append, enter, ih]

/-- Of these calls, the first `taken` have succeeded, because they fit. -/
structure Took (limit : Nat) (cause : DeviceError) (calls : List (String × Value)) (taken : Nat)
    (run : List (Except Error Unit) × EntryWriter) : Prop where
  le_length : taken ≤ calls.length
  fits : ∀ count ≤ calls.length,
    (TableText.openBytes (calls.take count)).length ≤ limit ↔ count ≤ taken
  results : run.1 = List.replicate taken (.ok ()) ++
    List.replicate (calls.length - taken) (.error (.device cause))
  entries : run.2.entries = taken
  offered : run.2.sink.Offered limit cause (TableText.openBytes calls)

/-! ## One call -/

/-- A call offers an entry to the sink, and counts it if there is room. -/
theorem entry_of_offered {writer : EntryWriter} {bytes : List UInt8}
    (h : writer.sink.Offered limit cause bytes) (call : String × Value) :
    let new := textBytes ((if writer.entries = 0 then "" else ",") ++ Value.memberText call)
    let next := writer.entry call.1 call.2
    (next.1 = if new.length ≤ limit - bytes.length then .ok () else .error (.device cause)) ∧
      (next.2.entries =
        if new.length ≤ limit - bytes.length then writer.entries + 1 else writer.entries) ∧
      next.2.sink.Offered limit cause (bytes ++ new) := by
  intro new next
  obtain ⟨hresult, hoffered⟩ :=
    h.run (Script.emit (TableText.entry (writer.entries = 0) call.1 call.2))
  rw [bytes_entry] at hresult hoffered
  rw [show next = writer.entry call.1 call.2 from rfl, entry]
  by_cases hfits : new.length ≤ limit - bytes.length
  · rw [if_pos hfits] at hresult
    simp only [hresult, if_pos hfits]
    exact ⟨rfl, rfl, hoffered⟩
  · rw [if_neg hfits] at hresult
    simp only [hresult, if_neg hfits]
    exact ⟨trivial, trivial, hoffered⟩

theorem textBytes_memberText_ne_nil (before : String) (call : String × Value) :
    textBytes (before ++ Value.memberText call) ≠ [] := by
  intro hnil
  have hempty : before ++ Value.memberText call = "" :=
    textBytes_inj.1 (hnil.trans (by simp [textBytes]))
  simp [Value.memberText] at hempty

/-- The front of a row of calls is told from the calls before the last and from all of them. -/
theorem fits_append_singleton {calls : List (String × Value)} {taken total : Nat}
    (hle : taken ≤ total) (htotal : total ≤ taken ∨ calls.length ≤ taken)
    (hfits : ∀ count ≤ calls.length,
      (TableText.openBytes (calls.take count)).length ≤ limit ↔ count ≤ taken)
    {call : String × Value}
    (hall : (TableText.openBytes (calls ++ [call])).length ≤ limit ↔ calls.length + 1 ≤ total) :
    ∀ count ≤ (calls ++ [call]).length,
      (TableText.openBytes ((calls ++ [call]).take count)).length ≤ limit ↔ count ≤ total := by
  intro count hcount
  rw [List.length_append, List.length_singleton] at hcount
  rcases Nat.lt_or_ge calls.length count with hlast | hbefore
  · obtain rfl : count = calls.length + 1 := by omega
    rw [List.take_of_length_le (by simp), hall]
  · rw [List.take_append_of_le_length hbefore, hfits count hbefore]
    omega

/-- One more call succeeds if the sink has taken all of the others and there is room for it. -/
theorem Took.entry {calls : List (String × Value)} {taken : Nat}
    {run : List (Except Error Unit) × EntryWriter} (h : Took limit cause calls taken run)
    (call : String × Value) :
    let next := run.2.entry call.1 call.2
    ∃ total, Took limit cause (calls ++ [call]) total (run.1 ++ [next.1], next.2) := by
  dsimp only
  obtain ⟨hresult, hentries, hoffered⟩ := entry_of_offered h.offered call
  -- from here on it does not matter how the call was made
  generalize run.2.entry call.1 call.2 = next at hresult hentries hoffered ⊢
  have hle := h.le_length
  have hopen : (TableText.openBytes calls).length ≤ limit ↔ calls.length ≤ taken := by
    simpa using h.fits calls.length (Nat.le_refl _)
  have happend := TableText.openBytes_append_singleton calls call
  rcases Nat.lt_or_ge taken calls.length with hfailed | hall
  · -- a call has failed, so the sink is full and the comma does not matter
    have hfull : limit < (TableText.openBytes calls).length := by omega
    have hnew := List.length_pos_iff.2
      (textBytes_memberText_ne_nil (if run.2.entries = 0 then "" else ",") call)
    rw [if_neg (by omega)] at hresult hentries
    refine ⟨taken, by simp; omega, fits_append_singleton (Nat.le_refl _) (.inl (Nat.le_refl _))
      h.fits ?_, ?_, hentries.trans h.entries, hoffered.of_full ?_ ?_ ?_⟩
    · rw [happend, List.length_append]
      omega
    · have hmore : (calls ++ [call]).length - taken = calls.length - taken + 1 := by
        rw [List.length_append, List.length_singleton]
        omega
      rw [h.results, hresult, hmore, List.replicate_succ', List.append_assoc]
    · rw [List.length_append]
      omega
    · rw [happend, List.take_append_of_le_length (by omega),
        List.take_append_of_le_length (by omega)]
    · rw [happend, List.length_append]
      omega
  · obtain rfl : taken = calls.length := by omega
    rw [h.entries, ← happend] at hoffered
    rw [h.entries] at hresult hentries
    have hroom : (textBytes ((if calls.length = 0 then "" else ",") ++
        Value.memberText call)).length ≤ limit - (TableText.openBytes calls).length ↔
          (TableText.openBytes (calls ++ [call])).length ≤ limit := by
      rw [happend, List.length_append]
      omega
    have hresults : run.1 = List.replicate calls.length (.ok ()) := by simpa using h.results
    by_cases hfits : (TableText.openBytes (calls ++ [call])).length ≤ limit
    · rw [if_pos (hroom.2 hfits)] at hresult hentries
      refine ⟨calls.length + 1, by simp, fits_append_singleton (by omega) (.inr (Nat.le_refl _))
        h.fits (iff_of_true hfits (Nat.le_refl _)), ?_, hentries, hoffered⟩
      rw [hresults, hresult, ← List.replicate_succ']
      simp
    · rw [if_neg (mt hroom.1 hfits)] at hresult hentries
      refine ⟨calls.length, by simp, fits_append_singleton (by omega) (.inr (Nat.le_refl _))
        h.fits (iff_of_false hfits (by omega)), ?_, hentries, hoffered⟩
      rw [hresults, hresult]
      simp

/-! ## A row of calls -/

/-- The table is begun if there is room for the opening bracket. -/
theorem begin_result (limit : Nat) (cause : DeviceError) :
    (EntryWriter.begin { room := some limit, whenFull := cause }).1 =
      if limit = 0 then .error (.device cause) else .ok () := by
  obtain ⟨hresult, -⟩ := (Sink.offered_nil limit cause).run (Script.emit [TableText.opening])
  have hone : (Script.emit [TableText.opening]).bytes.length = 1 := by
    rw [Script.bytes_emit]
    rfl
  rw [EntryWriter.begin, hresult, hone, List.length_nil, Nat.sub_zero]
  by_cases hzero : limit = 0
  · rw [if_neg (by omega), if_pos hzero]
  · rw [if_pos (by omega), if_neg hzero]
    rfl

/-- Before the first call there is only the opening bracket. -/
theorem took_nil (hlimit : 0 < limit) (cause : DeviceError) :
    Took limit cause [] 0
      ([], (EntryWriter.begin { room := some limit, whenFull := cause }).2) := by
  obtain ⟨-, hoffered⟩ := (Sink.offered_nil limit cause).run (Script.emit [TableText.opening])
  have hopening : (Script.emit [TableText.opening]).bytes = TableText.openBytes [] := by
    rw [Script.bytes_emit]
    rfl
  rw [List.nil_append, hopening] at hoffered
  refine ⟨Nat.le_refl _, fun count hcount => ?_, rfl, rfl, hoffered⟩
  obtain rfl : count = 0 := by simpa using hcount
  exact iff_of_true hlimit (Nat.le_refl _)

theorem exists_took (hlimit : 0 < limit) (cause : DeviceError) (calls : List (String × Value)) :
    ∃ taken, Took limit cause calls taken
      ((EntryWriter.begin { room := some limit, whenFull := cause }).2.enter calls) := by
  induction calls using List.reverseRecOn with
  | nil => exact ⟨0, took_nil hlimit cause⟩
  | append_singleton before call ih =>
    obtain ⟨taken, htook⟩ := ih
    rw [enter_append_singleton]
    exact htook.entry call

/-- Of the front of a row, the calls succeed that succeed in the whole row. -/
theorem Took.eq_min {calls : List (String × Value)} {taken made fewer : Nat}
    {run other : List (Except Error Unit) × EntryWriter} (h : Took limit cause calls taken run)
    (hmade : made ≤ calls.length) (hfront : Took limit cause (calls.take made) fewer other) :
    fewer = min made taken := by
  have hle := hfront.le_length
  rw [List.length_take_of_le hmade] at hle
  have hsame : ∀ count ≤ made, count ≤ fewer ↔ count ≤ taken := by
    intro count hcount
    rw [← h.fits count (by omega), ← hfront.fits count (by rwa [List.length_take_of_le hmade]),
      List.take_take, Nat.min_eq_left hcount]
  have hfewer := (hsame fewer hle).1 (Nat.le_refl _)
  have hmin := (hsame (min made taken) (by omega)).2 (by omega)
  omega

/-- The table is ended if there is room for the closing bracket as well. -/
theorem Took.finish {calls : List (String × Value)} {taken : Nat}
    {run : List (Except Error Unit) × EntryWriter} (h : Took limit cause calls taken run) :
    (run.2.finish.1 =
        if (TableText.openBytes calls).length + 1 ≤ limit then .ok ()
        else .error (.device cause)) ∧
      run.2.finish.2.stored.bytes =
        (TableText.openBytes calls ++ textBytes TableText.closing).take limit := by
  obtain ⟨hresult, hoffered⟩ := h.offered.run ending
  rw [bytes_ending] at hresult hoffered
  have hone : (textBytes TableText.closing).length = 1 := rfl
  refine ⟨hresult.trans ?_, hoffered.stored⟩
  rw [hone]
  by_cases hfits : (TableText.openBytes calls).length + 1 ≤ limit
  · rw [if_pos (by omega), if_pos hfits]
    rfl
  · rw [if_neg (by omega), if_neg hfits]

/-- **A sink that fills up cuts a row of calls once and for good.**  A table is begun unless there
is no room at all.  There is a number of entries that fit, and whatever number of calls has been
made, those within that number have succeeded and all others have failed with the sink's refusal;
the writer counts those that have succeeded, and the sink holds as much as it takes of what all the
calls should have written.  The table can be ended if the closing bracket fits as well, which it
does not once a call has failed. -/
theorem calls_on_limited_sink (limit : Nat) (cause : DeviceError)
    (calls : List (String × Value)) :
    let opened := EntryWriter.begin { room := some limit, whenFull := cause }
    (opened.1 = if limit = 0 then .error (.device cause) else .ok ()) ∧
    (0 < limit → ∃ taken ≤ calls.length,
      (∀ count ≤ calls.length,
        (TableText.openBytes (calls.take count)).length ≤ limit ↔ count ≤ taken) ∧
      ∀ made ≤ calls.length,
        let written := TableText.openBytes (calls.take made)
        let (results, writer) := opened.2.enter (calls.take made)
        results = List.replicate (min made taken) (.ok ()) ++
            List.replicate (made - taken) (.error (.device cause)) ∧
          writer.entries = min made taken ∧
          writer.sink.stored.bytes = written.take limit ∧
          (writer.finish.1 =
            if written.length + 1 ≤ limit then .ok () else .error (.device cause)) ∧
          writer.finish.2.stored.bytes =
            (written ++ textBytes TableText.closing).take limit) := by
  refine ⟨begin_result limit cause, fun hlimit => ?_⟩
  obtain ⟨taken, htook⟩ := exists_took hlimit cause calls
  refine ⟨taken, htook.le_length, htook.fits, fun made hmade => ?_⟩
  obtain ⟨fewer, hfront⟩ := exists_took hlimit cause (calls.take made)
  obtain rfl := htook.eq_min hmade hfront
  obtain ⟨hfinish, hstored⟩ := hfront.finish
  refine ⟨?_, hfront.entries, hfront.offered.stored, hfinish, hstored⟩
  have hrest : (calls.take made).length - min made taken = made - taken := by
    rw [List.length_take_of_le hmade]
    omega
  rw [hfront.results, hrest]

end EntryWriter
end OpcodeTable
