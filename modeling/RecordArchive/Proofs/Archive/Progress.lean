import RecordArchive.Proofs.Archive.CutArchive
import RecordArchive.Proofs.Archive.ReadingEffects
import RecordArchive.Proofs.Archive.RoundTrip
import RecordArchive.Proofs.Driver

/-! # Progress on arbitrary bytes

Nothing is assumed here of the bytes behind the marker. Whoever reads them, record after record or
entry after entry, and chooses at each step whether to read or to skip, gets on with every step that
succeeds, so an error comes within as many steps as there are bytes. It is never one for being out of
order, since every success leaves the handle where the next step is allowed.

* `Archive.stepsLeft`: a step of a reader takes a record, which is at least two bytes, or a piece of
  payload, or it leaves a payload that may be empty.
* `Archive.progress_recordChoice`, `Archive.progress_entryChoice`: what one step makes of a handle.
* `Archive.meetsError_behind_marker`: what follows for drivers, and for the rounds of single calls. -/

namespace RecordArchive

open Program Call

variable {σ τ : Type}

namespace Archive

/-! ## Reading records -/

/-- What a driver of the reader does next. -/
inductive RecordChoice
  /-- Reads the next record or, inside a payload, up to `room + 1` bytes of that. -/
  | take (room : Nat)
  /-- Skips what is left of the current record, or the next one. -/
  | skip

/-- What a step of the reader gave. -/
inductive RecordAnswer
  | record (record : Record)
  | payload (bytes : List UInt8)
  | skipped

/-- The call that a driver of the reader chooses. -/
def RecordChoice.call [ByteSource σ] : RecordChoice → Call σ RecordAnswer
  | .take room => do
    let state ← Call.state
    if state.mode = .reading .atAddedData then do
      let bytes ← readAddedData (room + 1)
      pure (.payload bytes)
    else do
      let record ← readRecord
      pure (.record record)
  | .skip => do
    skipRecord
    pure .skipped

/-- **A bound on the steps of a reader**: one for each byte, and one to leave the current payload. -/
def stepsLeft (handle : Archive (List UInt8)) : Nat :=
  handle.stream.length + if handle.state.mode = .reading .atAddedData then 1 else 0

/-- A payload that is left takes a step. -/
theorem stepsLeft_of_atAddedData {bytes : List UInt8} {state : HandleState}
    (h : state.mode = .reading .atAddedData) : stepsLeft ⟨bytes, state⟩ = bytes.length + 1 := by
  rw [stepsLeft, if_pos h]

/-- Between two records every step takes a byte. -/
theorem stepsLeft_of_atRecordHeader {bytes : List UInt8} {state : HandleState}
    (h : state.mode = .reading .atRecordHeader) : stepsLeft ⟨bytes, state⟩ = bytes.length := by
  rw [stepsLeft, if_neg (by rw [h]; decide)]
  rfl

/-- Leaving a payload is one step at most. -/
theorem stepsLeft_le (bytes : List UInt8) (state : HandleState) :
    stepsLeft ⟨bytes, state⟩ ≤ bytes.length + 1 := by
  rw [stepsLeft]
  split
  · exact Nat.le_refl _
  · exact Nat.le_add_right _ _

/-- A record is at least two bytes. -/
theorem two_le_length_toBytes (record : Record) : 2 ≤ record.toBytes.length := by
  have hheader := RecordFlags.fixedHeaderLength_le_headerLength record.flags
  rw [RecordFlags.fixedHeaderLength] at hheader
  rw [Record.length_toBytes, Record.encodedLength, Record.headerLength]
  omega

/-- A record or a piece of payload that is read is a step. -/
theorem progress_take (room : Nat) {start : Archive (List UInt8)} (hstart : start.state.IsPlaced) :
    Outcome (fun _ final => final.state.IsPlaced ∧ final.stepsLeft < start.stepsLeft)
      (fun error _ => ¬ error.IsOutOfOrder) ((RecordChoice.take room).call start) := by
  obtain ⟨bytes, state⟩ := start
  rw [RecordChoice.call, bind_of_ok (state_apply _)]
  by_cases hmode : state.mode = .reading .atAddedData
  · rw [if_pos hmode]
    refine Outcome.bind (((effect_readAddedData (room + 1) _).and (.self _)).mono ?_ ?_)
    · rintro taken final ⟨⟨-, -, hplaced, hlast⟩, hrun⟩
      obtain ⟨-, -, -, rest, rfl, rfl⟩ := readAddedData_eq_ok.mp hrun
      refine ⟨hplaced, ?_⟩
      rw [stepsLeft_of_atAddedData hmode, List.length_append]
      by_cases hnil : taken = []
      · -- No byte was left, so the payload was.
        rw [stepsLeft_of_atRecordHeader (hlast (Nat.zero_lt_succ room) hnil)]
        omega
      · have hpos := List.length_pos_iff.mpr hnil
        have hle := stepsLeft_le rest (state.taken taken)
        omega
    · exact fun _ _ hfailed herror => (hfailed.1.2 herror).2 hmode
  · have hheader : state.mode = .reading .atRecordHeader := hstart.resolve_left hmode
    rw [if_neg hmode]
    refine Outcome.bind (((effect_readRecord _).and (.self _)).mono ?_ ?_)
    · rintro record final ⟨-, hrun⟩
      obtain ⟨-, -, rest, rfl, rfl⟩ := readRecord_eq_ok.mp hrun
      have hrecord := two_le_length_toBytes record
      have hle := stepsLeft_le rest (state.behind record)
      refine ⟨state.mode_behind_or record, ?_⟩
      rw [stepsLeft_of_atRecordHeader hheader, List.length_append]
      omega
    · exact fun _ _ hfailed herror => (hfailed.1.2 herror).2 hheader

/-- A record or a payload that is skipped is a step. -/
theorem progress_skip {start : Archive (List UInt8)} (hstart : start.state.IsPlaced) :
    Outcome (fun _ final => final.state.IsPlaced ∧ final.stepsLeft < start.stepsLeft)
      (fun error _ => ¬ error.IsOutOfOrder) (RecordChoice.skip.call start) := by
  obtain ⟨bytes, state⟩ := start
  refine Outcome.bind (((effect_skipRecord _).and (.self _)).mono ?_ ?_)
  · rintro _ final ⟨⟨-, -, hfinal⟩, hrun⟩
    refine ⟨.inr hfinal, ?_⟩
    rcases hstart with hmode | hmode
    · obtain ⟨payload, rest, -, rfl, rfl⟩ := (skipRecord_eq_ok_of_atAddedData hmode).mp hrun
      rw [stepsLeft_of_atRecordHeader hfinal, stepsLeft_of_atAddedData hmode, List.length_append]
      omega
    · obtain ⟨record, payload, rest, -, -, rfl, rfl⟩ :=
        (skipRecord_eq_ok_of_atRecordHeader hmode).mp hrun
      have hrecord := two_le_length_toBytes record
      rw [stepsLeft_of_atRecordHeader hfinal, stepsLeft_of_atRecordHeader hmode, List.length_append,
        List.length_append]
      omega
  · exact fun _ _ hfailed herror => (hfailed.1.2 herror).2 hstart

/-- **Each step of a reader** keeps it between two records or in a payload and leaves fewer steps, or
it fails, but not for being out of order. -/
theorem progress_recordChoice (choice : RecordChoice) {start : Archive (List UInt8)}
    (hstart : start.state.IsPlaced) :
    Outcome (fun _ final => final.state.IsPlaced ∧ final.stepsLeft < start.stepsLeft)
      (fun error _ => ¬ error.IsOutOfOrder) (choice.call start) := by
  cases choice with
  | take room => exact progress_take room hstart
  | skip => exact progress_skip hstart

/-- A step of a reader does the same on streams that are read alike. -/
theorem simulates_recordChoice [ByteSource σ] [ByteSource τ] {streams : σ → τ → Prop}
    (h : ReadsAlike streams) (choice : RecordChoice) :
    Simulates (Related streams) choice.call choice.call := by
  cases choice with
  | take room =>
    exact simulates_state.bind fun _ => .ite ((simulates_readAddedData h _).bind fun _ => .pure _)
      ((simulates_readRecord h).bind fun _ => .pure _)
  | skip => exact (simulates_skipRecord h).bind fun _ => .pure _

/-! ## Unpacking entries -/

/-- What a driver of the unpacker does next. -/
inductive EntryChoice (τ : Type)
  /-- Copies the content of the next entry. -/
  | extract (copy : CopySink τ)
  /-- Skips the next entry. -/
  | skip

/-- What a step of the unpacker gave. -/
inductive EntryAnswer (τ : Type)
  | extracted (copy : CopySink τ)
  | skipped

/-- The call that a driver of the unpacker chooses. -/
def EntryChoice.call [ByteSource σ] [ByteSink τ] : EntryChoice τ → Call σ (EntryAnswer τ)
  | .extract copy => CallWith.withValue copy do
    Archive.extract
    let copied ← CallWith.value
    pure (.extracted copied)
  | .skip => do
    skipFile
    pure .skipped

/-- Extraction enters the entry in front of the handle, which takes at least one byte. -/
theorem progress_beginExtract [ByteSource σ] {start : Archive σ}
    (hstart : start.state.IsBetweenEntries) :
    Outcome (fun _ opened => opened.state.IsInsideEntry ∧ opened.readBudget < start.readBudget)
      (fun error _ => ¬ error.IsOutOfOrder) (beginExtract start) := by
  have hexpect : expectReading "extract" start = .ok () start :=
    expectReading_eq_ok.mpr ⟨⟨_, hstart.mode⟩, rfl⟩
  rw [beginExtract, bind_of_ok hexpect, bind_of_ok (state_apply start)]
  simp only [hstart.unpacker]
  refine outcome_of_dropped ?_
  have hinfo : currentFileInfo start = readFileHeader start := currentFileInfo_of_isBetween hstart
  rw [hinfo]
  refine ((effect_readFileHeader start).and (.of_spends readFileHeader_spends start)).mono ?_ ?_
  · exact fun _ _ hopened => ⟨hopened.1.2.2.1, hopened.2⟩
  · exact fun _ _ hfailed herror => (hfailed.1.2 herror).2 hstart.mode

/-- **Extraction is a step**: it ends between two entries with fewer bytes ahead, or it fails, but not
for being out of order. The sink may fail as well. -/
theorem progress_extract [ByteSink τ] (copy : CopySink τ) {start : Archive (List UInt8)}
    (hstart : start.state.IsBetweenEntries) :
    Outcome (fun _ final => final.2.state.IsBetweenEntries ∧ final.2.readBudget < start.readBudget)
      (fun error _ => ¬ error.IsOutOfOrder) (extract (copy, start)) := by
  refine Outcome.bind (outcome_lift ((progress_beginExtract hstart).mono ?_ fun _ _ h => h))
  rintro _ opened ⟨hinside, hless⟩
  have hstate : (Call.lift Call.state : CallWith (CopySink τ) _ HandleState) (copy, opened)
      = .ok opened.state (copy, opened) := rfl
  have hcount : 0 < opened.state.options.copySize := Nat.le_max_right _ _
  rw [bind_of_ok hstate]
  -- every round stays inside the entry, and the last one finds the end of the content
  refine Outcome.bind (Outcome.repeatUntil
    (fun middle => middle.2.state.IsInsideEntry ∧ middle.2.readBudget < start.readBudget) ?_
    ⟨hinside, hless⟩)
  rintro ⟨copied, middle⟩ ⟨hinside, hless⟩
  refine Outcome.bind (outcome_lift (((effect_readFileData _ middle).and
    ((Outcome.self _).and (.of_spends (readFileData_spends _) middle))).mono ?_ ?_))
  · rintro bytes rest ⟨-, hrun, hspent⟩
    have hafter := isAfter_of_readFileData hcount hinside hrun
    have hfewer : rest.readBudget < start.readBudget :=
      Nat.lt_of_le_of_lt (Nat.le_trans (Nat.le_add_right _ _) hspent) hless
    split
    next hnil => exact ⟨⟨(hafter.behind hnil).mode, rfl⟩, hfewer⟩
    next hne =>
      refine Outcome.bind (CallWith.outcome_onValue ?_)
      unfold deliver
      cases writeAll bytes copied.stream with
      | ok _ stream => exact ⟨hafter.inside hne, hfewer⟩
      | error error stream => exact id
  · exact fun _ _ hfailed herror => (hfailed.1.2 herror).2 hinside

/-- A round of skipping goes on in the next record, or it ends between two records. -/
theorem progress_skipRound [ByteSource σ] {start : Archive σ} (hstart : start.state.IsPlaced) :
    Outcome (fun round final => round.elim final.state.IsPlaced fun _ =>
        final.state.mode = .reading .atRecordHeader)
      (fun error _ => ¬ error.IsOutOfOrder) (skipRound start) := by
  refine Outcome.bind ((effect_leavePayload start).mono ?_ fun _ _ hfailed => hfailed.2)
  rintro _ middle ⟨-, -, horder⟩
  have hmode : middle.state.mode = .reading .atRecordHeader := by
    rcases horder with ⟨rfl, hother⟩ | hheader
    · exact hstart.resolve_left hother
    · exact hheader
  rw [bind_of_ok (state_apply middle)]
  split
  next =>
    refine Outcome.bind ((effect_readFragment middle).mono ?_ ?_)
    · exact fun _ _ hfinal => hfinal.2
    · exact fun _ _ hfailed herror => (hfailed.2 herror).2 hmode
  next => exact hmode

/-- Skipping enters the entry in front of the handle, which takes at least one byte. -/
theorem progress_beginSkip [ByteSource σ] {start : Archive σ}
    (hstart : start.state.IsBetweenEntries) :
    Outcome (fun _ opened => opened.state.IsPlaced ∧ opened.readBudget < start.readBudget)
      (fun error _ => ¬ error.IsOutOfOrder) (beginSkip start) := by
  rw [beginSkip, bind_of_ok (state_apply start)]
  simp only [hstart.unpacker]
  refine Outcome.bind (((effect_readRecord start).and (.of_spends readRecord_spends start)).mono
    ?_ ?_)
  · rintro record ⟨stream, _⟩ ⟨⟨-, rfl⟩, hspent⟩
    exact Outcome.bind (outcome_require
      (fun _ => ⟨start.state.mode_behind_or record, hspent⟩) fun _ => id)
  · exact fun _ _ hfailed herror => (hfailed.1.2 herror).2 hstart.mode

/-- **Skipping is a step**: it ends between two entries with fewer bytes ahead, or it fails, but not
for being out of order. -/
theorem progress_skipFile [ByteSource σ] {start : Archive σ}
    (hstart : start.state.IsBetweenEntries) :
    Outcome (fun _ final => final.state.IsBetweenEntries ∧ final.readBudget < start.readBudget)
      (fun error _ => ¬ error.IsOutOfOrder) (skipFile start) := by
  have hexpect : expectReading "skip_file" start = .ok () start :=
    expectReading_eq_ok.mpr ⟨⟨_, hstart.mode⟩, rfl⟩
  rw [skipFile, bind_of_ok hexpect]
  refine Outcome.bind ((progress_beginSkip hstart).mono ?_ fun _ _ h => h)
  rintro _ opened hopened
  refine Outcome.bind (Outcome.repeatUntil
    (fun middle => middle.state.IsPlaced ∧ middle.readBudget < start.readBudget) ?_ hopened)
  rintro middle ⟨hplaced, hless⟩
  refine ((progress_skipRound hplaced).and (.of_spends skipRound_spends middle)).mono ?_
    fun _ _ hfailed => hfailed.1
  rintro round final ⟨hround, hspent⟩
  have hfewer : final.readBudget < start.readBudget := by omega
  cases round with
  | none => exact ⟨hround, hfewer⟩
  | some _ => exact ⟨⟨hround, rfl⟩, hfewer⟩

/-- **Each step of the unpacker** keeps it between two entries and leaves fewer bytes, or it fails, but
not for being out of order. -/
theorem progress_entryChoice [ByteSink τ] (choice : EntryChoice τ) {start : Archive (List UInt8)}
    (hstart : start.state.IsBetweenEntries) :
    Outcome (fun _ final => final.state.IsBetweenEntries ∧ final.readBudget < start.readBudget)
      (fun error _ => ¬ error.IsOutOfOrder) (choice.call start) := by
  cases choice with
  | extract copy =>
    exact CallWith.outcome_withValue (Outcome.bind ((progress_extract copy hstart).mono
      (fun _ _ h => h) fun _ _ h => h))
  | skip =>
    exact Outcome.bind ((progress_skipFile hstart).mono (fun _ _ h => h) fun _ _ h => h)

/-- A step of an unpacker does the same on streams that are read alike. -/
theorem simulates_entryChoice [ByteSource σ] [ByteSink τ] {streams : σ → List UInt8 → Prop}
    (h : ReadsAlike streams) (choice : EntryChoice τ) :
    Simulates (Related streams) choice.call choice.call := by
  cases choice with
  | extract copy =>
    exact CallWith.simulates_withValue copy ((simulates_extractTo h fun _ => .refl _).bind fun _ =>
      CallWith.simulates_value.bind fun _ => .pure _)
  | skip => exact (simulates_skipFile h).bind fun _ => .pure _

/-- The archive header behind the marker is read, or it is refused, but not for being out of order. -/
theorem outcome_readArchiveHeader_of_marker [ByteSource σ] {start behind : Archive σ} {consumed : Nat}
    (hmarker : findMarker start = .ok consumed behind)
    (hmode : start.state.mode = .reading .atMarker)
    (hunpacker : start.state.unpacker = .validatingFormat) :
    Outcome (fun _ ready => ready.state.IsBetweenEntries ∧ ready.readBudget ≤ behind.readBudget)
      (fun error _ => ¬ error.IsOutOfOrder) (readArchiveHeader start) := by
  have hexpect : expectReading "read_archive_header" start = .ok () start :=
    expectReading_eq_ok.mpr ⟨⟨_, hmode⟩, rfl⟩
  have hfresh : require (start.state.unpacker = .validatingFormat)
      (.invalidState "read_archive_header") start = .ok () start :=
    require_eq_ok.mpr ⟨hunpacker, rfl⟩
  have hbehind := ((effect_findMarker start).of_ok hmarker).2
  rw [readArchiveHeader, bind_of_ok hexpect, bind_of_ok (state_apply start), bind_of_ok hfresh,
    if_pos hmode, bind_of_ok hmarker]
  refine Outcome.bind (((effect_readRecord behind).and (.of_spends readRecord_spends behind)).mono
    ?_ ?_)
  · rintro record ⟨stream, _⟩ ⟨⟨-, rfl⟩, hspent⟩
    refine Outcome.bind (outcome_ofResult (fun header _ => ?_) fun error herror => ?_)
    · refine Outcome.bind (((effect_leavePayload _).and (.of_spends leavePayload_spends _)).mono ?_ ?_)
      · rintro _ ready ⟨⟨-, -, horder⟩, hleft⟩
        refine Outcome.bind (outcome_require (fun _ => ⟨⟨?_, rfl⟩, ?_⟩) fun _ => id)
        · rcases horder with ⟨rfl, hother⟩ | hheader
          · exact (behind.state.mode_behind_or record).resolve_left hother
          · exact hheader
        · exact Nat.le_trans hleft (Nat.le_of_lt hspent)
      · exact fun _ _ hfailed => hfailed.1.2
    · exact not_isOutOfOrder_of_invalidData (ArchiveHeader.ofRecord_eq_error herror)
  · exact fun _ _ hfailed herror => (hfailed.1.2 herror).2 hbehind

/-! ## Whole runs -/

/-- **A driver of the reader** meets an error within as many steps as there are bytes. -/
theorem meetsError_recordChoice [ByteSource σ] {stream : σ} {bytes : List UInt8}
    (hstream : Yields stream bytes) {state : HandleState}
    (hmode : state.mode = .reading .atRecordHeader) (driver : List RecordAnswer → RecordChoice) :
    MeetsError (fun given => (driver given).call) bytes.length (fun error => ¬ error.IsOutOfOrder) []
      (⟨stream, state⟩ : Archive σ) := by
  have hlist := meetsError (fun start : Archive (List UInt8) => start.state.IsPlaced) stepsLeft
    (fun given _ hstart => progress_recordChoice (driver given) hstart) []
    (show (⟨bytes, state⟩ : Archive (List UInt8)).state.IsPlaced from .inr hmode)
  rw [stepsLeft_of_atRecordHeader hmode] at hlist
  have hsame : Related Yields (⟨stream, state⟩ : Archive σ) ⟨bytes, state⟩ := ⟨hstream, rfl⟩
  exact hlist.of_simulates
    (fun given => simulates_recordChoice Yields.isDelivery.readsAlike (driver given)) hsame

/-- **A driver of the unpacker** meets an error within as many steps as there are bytes. -/
theorem meetsError_entryChoice [ByteSource σ] [ByteSink τ] {stream : σ} {bytes : List UInt8}
    (hstream : Yields stream bytes) {state : HandleState} (hstate : state.IsBetweenEntries)
    (driver : List (EntryAnswer τ) → EntryChoice τ) :
    MeetsError (fun given => (driver given).call) bytes.length (fun error => ¬ error.IsOutOfOrder) []
      (⟨stream, state⟩ : Archive σ) := by
  have hlist := meetsError (fun start : Archive (List UInt8) => start.state.IsBetweenEntries)
    readBudget (fun given _ hstart => progress_entryChoice (driver given) hstart) []
    (show (⟨bytes, state⟩ : Archive (List UInt8)).state.IsBetweenEntries from hstate)
  have hsame : Related Yields (⟨stream, state⟩ : Archive σ) ⟨bytes, state⟩ := ⟨hstream, rfl⟩
  exact hlist.of_simulates
    (fun given => simulates_entryChoice Yields.isDelivery.readsAlike (driver given)) hsame

/-- **Drivers on arbitrary bytes.** Let a stream hold the marker behind anything that holds none, and
any bytes behind it.

* A driver that reads or skips records and payloads behind the marker meets an error within as many
  steps as there are bytes behind the marker.
* The archive header is read or refused. A driver that extracts or skips entries behind it meets an
  error within as many steps as there are bytes behind the marker.
* None of these errors is one for being out of order.
* On any handle over an infallible stream the loops of single calls, which follow continuations and
  pass over empty payloads, take no more rounds that ask for another one than there are bytes. -/
theorem meetsError_behind_marker [ByteSource σ] [ByteSink τ] {stub tail : List UInt8}
    (hstub : ¬ Marker.bytes <:+: stub) {opened : Archive σ}
    (hmode : opened.state.mode = .reading .atMarker)
    (hunpacker : opened.state.unpacker = .validatingFormat)
    (hstream : Yields opened.stream (stub ++ Marker.bytes ++ tail)) :
    (∃ consumed behind, findMarker opened = .ok consumed behind ∧
      ∀ driver : List RecordAnswer → RecordChoice,
        MeetsError (fun given => (driver given).call) tail.length
          (fun error => ¬ error.IsOutOfOrder) [] behind) ∧
    Outcome (fun _ ready => ∀ driver : List (EntryAnswer τ) → EntryChoice τ,
        MeetsError (fun given => (driver given).call) tail.length
          (fun error => ¬ error.IsOutOfOrder) [] ready)
      (fun error _ => ¬ error.IsOutOfOrder) (readArchiveHeader opened) ∧
    ∀ (handle : Archive σ) (bytes : List UInt8), Yields handle.stream bytes →
      (∃ count ≤ bytes.length, Rounds skipRound count handle
        (repeatUntil skipRound readBudget skipRound_spends handle)) ∧
      ∀ size : Nat,
        (∃ count ≤ bytes.length, Rounds (readRound size) count handle
          (repeatUntil (readRound size) readBudget (readRound_progress size) handle)) ∧
        ∀ copy : CopySink τ, ∃ count ≤ bytes.length, Rounds (extractRound size) count (copy, handle)
          (repeatUntil (extractRound size) copyBudget (extractRound_spends size) (copy, handle)) := by
  obtain ⟨stream, state⟩ := opened
  have halike := Yields.isDelivery.readsAlike (σ := σ)
  have hlist := findMarker_append hstub tail hmode
  obtain ⟨behind, hmarker, hbehind⟩ := exists_ok_of_yields (simulates_findMarker halike) hstream hlist
  refine ⟨⟨_, _, hmarker, meetsError_recordChoice hbehind rfl⟩, ?_, ?_⟩
  · refine ((outcome_readArchiveHeader_of_marker hmarker hmode hunpacker).and (.self _)).mono ?_
      fun _ _ hfailed => hfailed.1
    rintro header ready ⟨⟨hbetween, -⟩, hrun⟩ driver
    -- the list of the bytes says how many are left behind the header
    obtain ⟨rest, hready, hrest⟩ := exists_ok_list_of_yields (simulates_readArchiveHeader halike)
      hstream hrun
    have hfewer := ((outcome_readArchiveHeader_of_marker hlist hmode hunpacker).of_ok hready).2
    exact (meetsError_entryChoice hrest hbetween driver).mono hfewer
  · rintro ⟨stream, state⟩ bytes hstream
    have hsame : Related Yields (⟨stream, state⟩ : Archive σ) ⟨bytes, state⟩ := ⟨hstream, rfl⟩
    refine ⟨exists_rounds_of_simulates (simulates_skipRound halike) skipRound_spends hsame,
      fun size => ⟨exists_rounds_of_simulates (simulates_readRound halike size)
        (readRound_progress size) hsame, fun copy => ?_⟩⟩
    have hpair : Paired Eq Yields (copy, (⟨stream, state⟩ : Archive σ)) (copy, ⟨bytes, state⟩) :=
      ⟨rfl, hsame⟩
    exact exists_rounds_of_simulates (simulates_extractRound halike (fun _ => .refl _) size)
      (extractRound_spends size) hpair

/-! ### Two entries in parts, and bytes that are no record -/

/-- The start of an entry with a payload of no bytes, behind which the content should go on. -/
def hollowStart : Segment :=
  (⟨{ kind := .fileHeader, flags := 0x81, data := [0, 0x52, 0, 0, 0, 0, 1, 0, 0x61] }, []⟩ :
    Draft).segment

/-- An entry whose content only begins in a fragment. -/
def hollow : EntryRecords where
  info := .regular "a"
  first := hollowStart
  later := [fragmentOf 2]
  isEntry := by
    have hvalid : hollowStart.record.isValid = true := by cbv
    have hdata : hollowStart.record.data = (startOf 1).record.data := by decide +kernel
    have habsent : hollowStart.record.hasAddedCrc = false := by decide +kernel
    have hheader : EntryInfo.ofRecord hollowStart.record = .ok (.regular "a") :=
      ofRecord_eq_ok.mpr ⟨hvalid, rfl, by rw [hdata]; exact parse_startOf⟩
    have hsound : hollowStart.IsSound := by
      refine ⟨⟨rfl, ?_, ?_, fun _ => ?_⟩, ?_, fun _ h => nomatch habsent.symm.trans h⟩
      all_goals decide +kernel
    exact isEntry_iff.mpr ⟨hheader, hsound,
      .more rfl isValid_fragmentOf isSound_fragmentOf .last, rfl⟩

/-- Two entries, and behind them three zeros, which hold no record. -/
def partedTail : List UInt8 := hollow.toBytes ++ (parted.toBytes ++ [0, 0, 0])

/-- The same behind the record of the archive header. -/
def headedTail : List UInt8 := ArchiveHeader.current.record.fixed.toBytes ++ partedTail

/-- The bytes behind the marker bound the steps of both drivers. -/
theorem length_headedTail : headedTail.length = 72 := by
  cbv

/-- A handle between two records, in front of these bytes. -/
def betweenRecordsOf (bytes : List UInt8) : Archive (List UInt8) :=
  ⟨bytes, { mode := .reading .atRecordHeader }⟩

/-- Reads two records with their payloads behind the archive header, and then only skips. -/
def takeThenSkip (given : List RecordAnswer) : RecordChoice :=
  if given.length < 5 then .take 0 else .skip

/-- Extracts the first entry and skips the others. -/
def extractThenSkip (given : List (EntryAnswer (List UInt8))) : EntryChoice (List UInt8) :=
  if given = [] then .extract ⟨[], 0⟩ else .skip

/-- The payload of no bytes takes a step of its own. -/
theorem drive_takeThenSkip :
    drive (fun given => (takeThenSkip given).call) 7 [] (betweenRecordsOf headedTail)
      = .ok [.record ArchiveHeader.current.record.fixed, .record hollowStart.record, .payload [],
          .record (fragmentOf 2).record, .payload [2], .skipped, .skipped]
        (betweenRecordsOf [0, 0, 0]) := by
  cbv

/-- The continuations belong to the steps of their entries. -/
theorem drive_extractThenSkip : ∃ final,
    drive (fun given => (extractThenSkip given).call) 2 [] (inFrontOf partedTail)
      = .ok [.extracted ⟨[2], 1⟩, .skipped] ⟨[0, 0, 0], final⟩ := by
  have hbetween : (inFrontOf partedTail).state.IsBetweenEntries := ⟨rfl, rfl⟩
  have hcontent : [2] = contentOf hollow.segments := by decide +kernel
  obtain ⟨middle, hextract⟩ : ∃ middle, extract (⟨[], 0⟩, inFrontOf partedTail)
      = .ok () (⟨[2], 1⟩, ⟨parted.toBytes ++ [0, 0, 0], middle⟩) :=
    (isEntry_iff_extract hbetween).mp ⟨_, _, _, hollow.isEntry, rfl, hcontent⟩
  have hmiddle := (isBetween_of_extract hbetween hextract).1
  obtain ⟨final, hskip, -⟩ := skipFile_of_isEntry parted.isEntry [0, 0, 0] hmiddle
  have hfirst : (EntryChoice.extract (⟨[], 0⟩ : CopySink (List UInt8))).call (inFrontOf partedTail)
      = .ok (.extracted ⟨[2], 1⟩) ⟨parted.toBytes ++ [0, 0, 0], middle⟩ :=
    CallWith.withValue_of_ok (bind_of_ok hextract)
  have hsecond : (EntryChoice.skip : EntryChoice (List UInt8)).call
      ⟨parted.toBytes ++ [0, 0, 0], middle⟩ = .ok .skipped ⟨[0, 0, 0], final⟩ := bind_of_ok hskip
  exact ⟨final, (bind_of_ok hfirst).trans (bind_of_ok hsecond)⟩

/-- Behind the marker both drivers get on: seven steps over records take the empty payload and the
continuation among others, and two steps over entries take all of them. Then the zeros are an
error. -/
theorem meetsError_behind_marker_zeros :
    let opened := reader (Marker.bytes ++ headedTail)
    (∃ behind, findMarker opened = .ok 6 behind ∧
      drive (fun given => (takeThenSkip given).call) 7 [] behind
        = .ok [.record ArchiveHeader.current.record.fixed, .record hollowStart.record, .payload [],
            .record (fragmentOf 2).record, .payload [2], .skipped, .skipped]
          (betweenRecordsOf [0, 0, 0]) ∧
      MeetsError (fun given => (takeThenSkip given).call) 72 (fun error => ¬ error.IsOutOfOrder) []
        behind) ∧
    ∃ ready, readArchiveHeader opened = .ok ArchiveHeader.current ready ∧
      (∃ final, drive (fun given => (extractThenSkip given).call) 2 [] ready
        = .ok [.extracted ⟨[2], 1⟩, .skipped] ⟨[0, 0, 0], final⟩) ∧
      MeetsError (fun given => (extractThenSkip given).call) 72
        (fun error => ¬ error.IsOutOfOrder) [] ready := by
  intro opened
  have hnone : ¬ Marker.bytes <:+: [] := by decide
  have hstream : Yields opened.stream ([] ++ Marker.bytes ++ headedTail) := ⟨_, isDelivery_eq, rfl⟩
  obtain ⟨⟨consumed, behind, hmarker, hrecords⟩, hentries, -⟩ :=
    meetsError_behind_marker (τ := List UInt8) hnone rfl rfl hstream
  have hfound : findMarker opened = .ok 6 (betweenRecordsOf headedTail) :=
    findMarker_append hnone headedTail rfl
  have hready : readArchiveHeader opened = .ok ArchiveHeader.current (inFrontOf partedTail) :=
    readArchiveHeader_append hnone partedTail rfl rfl
  rw [length_headedTail] at hrecords hentries
  cases hmarker.symm.trans hfound
  exact ⟨⟨_, hfound, drive_takeThenSkip, hrecords _⟩,
    _, hready, drive_extractThenSkip, hentries.of_ok hready _⟩

end Archive

end RecordArchive
