import RecordArchive.Proofs.Archive.Calls
import RecordArchive.Proofs.Outcome
import RecordArchive.Proofs.Record.Draft
import RecordArchive.Proofs.Stream.Storage

/-! # What the calls of a writer put on the stream

A writer stands between two records or inside the payload of a draft. On a stream in memory both are
determined by the bytes that were written since the stream was `base`:
`Archive.betweenRecords base written` has written just these bytes, and
`Archive.insidePayload base front draft` has written `front`, the record of the draft as it was
started, and the payload so far. Each call leads from one to the other.

* `Archive.finishAddedData_insidePayload`: sealing turns the draft into its segment.
* `Archive.writeAddedData_insidePayload`: a chunk is added to the draft, or refused.
* `Archive.writeRecord_of_ready`, `Archive.writeRecordWithAddedData_of_ready`: a record is started,
  or refused after the payload in front of it was sealed.
* `Archive.simulates_writeRecord` and its companions: calls do the same on streams that are written
  alike, so on any storage what they do in memory. -/

namespace RecordArchive

open Program Call

variable {σ τ : Type}

/-! ## Places of a writer -/

/-- Where a writer stands between the marker and the end: between two records, or inside a payload. -/
inductive WriterPlace
  | atRecord
  | atAddedData (pending : PendingPayload)

namespace HandleState

/-- **A payload is being written**: the mode says so, and what sealing needs is kept beside it. -/
structure IsOpen (state : HandleState) (pending : PendingPayload) : Prop where
  mode : state.mode = .writing .atAddedData
  pending? : state.pending? = some pending

/-- There is one payload at most. -/
theorem IsOpen.unique {state : HandleState} {first second : PendingPayload}
    (h : state.IsOpen first) (h' : state.IsOpen second) : first = second :=
  Option.some.inj (h.pending?.symm.trans h'.pending?)

/-- Outside of payloads none is open. -/
theorem not_isOpen_of_mode_ne {state : HandleState} (h : state.mode ≠ .writing .atAddedData) :
    ¬ ∃ pending, state.IsOpen pending :=
  fun ⟨_, hopen⟩ => h hopen.mode

/-- Between two records there is no payload to go on with. -/
theorem not_isOpen_of_atRecord {state : HandleState} (h : state.mode = .writing .atRecord) :
    ¬ ∃ pending, state.IsOpen pending :=
  not_isOpen_of_mode_ne (by rw [h]; nofun)

/-- The state with the writer at another place. When a payload is left, nothing of it is kept; a
writer that is in none keeps what it has. -/
def writingAt (state : HandleState) : WriterPlace → HandleState
  | .atRecord =>
    { state with
      mode := .writing .atRecord
      pending? := if state.mode = .writing .atAddedData then none else state.pending? }
  | .atAddedData pending =>
    { state with mode := .writing .atAddedData, pending? := some pending }

/-- A writer that is moved into a payload stands inside it. -/
theorem isOpen_writingAt (state : HandleState) (pending : PendingPayload) :
    (state.writingAt (.atAddedData pending)).IsOpen pending := ⟨rfl, rfl⟩

/-- A writer between two records stays there. -/
theorem writingAt_atRecord {state : HandleState} (h : state.mode = .writing .atRecord) :
    state.writingAt .atRecord = state := by
  obtain ⟨mode⟩ := state
  obtain rfl : mode = .writing .atRecord := h
  rfl

/-- A writer that was in no payload keeps what it has. -/
theorem writingAt_atRecord_of_mode_ne {state : HandleState} (h : state.mode ≠ .writing .atAddedData) :
    state.writingAt .atRecord = { state with mode := .writing .atRecord } := by
  rw [writingAt, if_neg h]

/-- A writer that leaves a payload keeps nothing of it. -/
theorem writingAt_atRecord_of_isOpen {state : HandleState} {pending : PendingPayload}
    (h : state.IsOpen pending) : state.writingAt .atRecord
      = { state with mode := .writing .atRecord, pending? := none } := by
  rw [writingAt, if_pos h.mode]

/-- A writer inside a payload stays there. -/
theorem writingAt_atAddedData_of_isOpen {state : HandleState} {pending : PendingPayload}
    (h : state.IsOpen pending) : state.writingAt (.atAddedData pending) = state := by
  rw [writingAt, ← h.mode, ← h.pending?]

/-- A writer that has left a payload is moved on from there. -/
theorem writingAt_writingAt (state : HandleState) (place : WriterPlace) :
    (state.writingAt .atRecord).writingAt place = state.writingAt place := by
  cases place <;> rfl

/-- **What a failed attempt to seal leaves** of the state: all of it, but for the record of the payload,
which may describe what was written. -/
def Attempted (first second : HandleState) : Prop :=
  second = first ∨
    ∃ pending, first.IsOpen pending ∧ second = { first with pending? := some pending.described }

/-- Without an attempt the state stays. -/
theorem Attempted.refl (state : HandleState) : state.Attempted state := .inl rfl

/-- An attempt changes nothing but what is kept of the payload. -/
theorem Attempted.exists_pending? {first second : HandleState} (h : first.Attempted second) :
    ∃ pending?, second = { first with pending? } := by
  rcases h with rfl | ⟨pending, -, rfl⟩
  · exact ⟨second.pending?, rfl⟩
  · exact ⟨_, rfl⟩

/-- Without a payload in writing an attempt changes nothing. -/
theorem Attempted.eq_of_not_isOpen {first second : HandleState} (h : first.Attempted second)
    (hopen : ¬ ∃ pending, first.IsOpen pending) : second = first :=
  h.resolve_right fun ⟨pending, hpending, _⟩ => hopen ⟨pending, hpending⟩

/-- A payload that an attempt to seal finds is open afterwards. -/
theorem Attempted.isOpen {first second : HandleState} (h : first.Attempted second)
    {pending : PendingPayload} (hopen : first.IsOpen pending) :
    second.IsOpen pending ∨ second.IsOpen pending.described := by
  rcases h with rfl | ⟨found, hfound, rfl⟩
  · exact .inl hopen
  · obtain rfl := hopen.unique hfound
    exact .inr ⟨hopen.mode, rfl⟩

end HandleState

/-- Where a writer stands behind a record: inside its payload if the record announces one. -/
def Record.placeBehind (record : Record) (offset? : Option Nat) : WriterPlace :=
  if record.hasAddedSize then .atAddedData (.start record offset?) else .atRecord

namespace Archive

/-! ## Payloads in writing -/

/-- A payload in writing is replaced, and nothing else changes. -/
theorem setPending_apply (pending : PendingPayload) (stream : σ) (state : HandleState) :
    setPending pending ⟨stream, state⟩
      = .ok () ⟨stream, { state with pending? := some pending }⟩ := rfl

/-- Where a payload is open, it is the one that is expected. -/
theorem expectPending_of_isOpen {handle : Archive σ} {pending : PendingPayload}
    (h : handle.state.IsOpen pending) (name : String) :
    expectPending name handle = .ok pending handle := by
  rw [expectPending, bind_of_ok (state_apply handle), bind_of_ok (require_of h.mode _ _), h.pending?]
  rfl

/-- Without a payload in writing nothing is given, whether the writer does not stand inside a payload
or has not kept what sealing needs. -/
theorem expectPending_of_not_isOpen {handle : Archive σ}
    (h : ¬ ∃ pending, handle.state.IsOpen pending) (name : String) :
    expectPending name handle = .error (.invalidState name) handle := by
  rw [expectPending, bind_of_ok (state_apply handle)]
  by_cases hmode : handle.state.mode = .writing .atAddedData
  · rw [bind_of_ok (require_of hmode _ _)]
    cases hpending : handle.state.pending? with
    | none => rfl
    | some pending => exact absurd ⟨pending, hmode, hpending⟩ h
  · exact bind_of_error (require_of_not hmode _ _)

/-- **A record that describes its payload** is kept, and its bytes are given. -/
theorem describePayload_of_fits {pending : PendingPayload} (h : pending.sealedRecord.Fits)
    (stream : σ) (state : HandleState) : describePayload pending ⟨stream, state⟩
      = .ok pending.sealedRecord.fixed.toBytes
          ⟨stream, { state with pending? := some pending.described }⟩ := by
  rw [describePayload, PendingPayload.described_of_fits h, bind_of_ok (setPending_apply _ _ _),
    bind_of_ok (ofResult_eq_ok.mpr ⟨Record.fix_eq_ok.mpr ⟨h, rfl⟩, rfl⟩),
    bind_of_ok (setPending_apply _ _ _)]
  exact ofResult_eq_ok.mpr ⟨Record.encode?_eq_ok.mpr ⟨h.size_fixed, rfl⟩, rfl⟩

/-- A record that cannot describe its payload keeps what was assigned to it. -/
theorem describePayload_of_error {pending : PendingPayload} {error : ArchiveError}
    (h : pending.sealedRecord.fix = .error error) (stream : σ) (state : HandleState) :
    describePayload pending ⟨stream, state⟩
      = .error error ⟨stream, { state with pending? := some pending.described }⟩ := by
  rw [describePayload, PendingPayload.described, h, bind_of_ok (setPending_apply _ _ _)]
  exact bind_of_error rfl

/-- Behind a record that was written between two others the writer stands where that leaves it. -/
theorem passRecord_apply {state : HandleState} (hmode : state.mode = .writing .atRecord)
    (record : Record) (offset? : Option Nat) (stream : σ) :
    passRecord record offset? ⟨stream, state⟩
      = .ok () ⟨stream, state.writingAt (record.placeBehind offset?)⟩ := by
  rw [passRecord, Record.placeBehind]
  split
  next => rfl
  next =>
    rw [setMode_apply, HandleState.writingAt_atRecord hmode, ← hmode]

variable {base : MemoryStream} {written front : List UInt8} {draft : Draft} {state : HandleState}

/-- A writer between two records that has written bytes since the stream was `base`. -/
def betweenRecords (base : MemoryStream) (written : List UInt8) (state : HandleState) :
    Archive MemoryStream :=
  ⟨base.write written, { state with mode := .writing .atRecord, pending? := none }⟩

/-- A writer inside the payload of a draft that starts behind `front`. -/
def insidePayload (base : MemoryStream) (front : List UInt8) (draft : Draft) (state : HandleState) :
    Archive MemoryStream :=
  ⟨base.write (front ++ draft.record.fixed.toBytes ++ draft.payload),
    { state with
      mode := .writing .atAddedData
      pending? := some (draft.account (some (base.position + front.length))) }⟩

/-! ## Calls on a stream in memory -/

/-- What is written comes behind what was written. -/
theorem writeStream_write (bytes written : List UInt8) (base : MemoryStream) (state : HandleState) :
    writeStream bytes ⟨base.write written, state⟩
      = .ok () ⟨base.write (written ++ bytes), state⟩ := by
  have hrun : EStateM.adaptExcept ArchiveError.write (writeAll bytes) (base.write written)
      = .ok () (base.write (written ++ bytes)) :=
    adaptExcept_eq_ok.mpr (MemoryStream.writeAll_write bytes written base)
  exact onStream_eq_ok.mpr ⟨_, hrun, rfl⟩

/-- In memory every write succeeds. -/
theorem writeStream_of_ne_nil {bytes : List UInt8} (hne : bytes ≠ []) (stream : MemoryStream)
    (state : HandleState) :
    writeStream bytes ⟨stream, state⟩ = .ok () ⟨stream.write bytes, state⟩ := by
  have hrun : EStateM.adaptExcept ArchiveError.write (writeAll bytes) stream
      = .ok () (stream.write bytes) :=
    adaptExcept_eq_ok.mpr (MemoryStream.writeAll_of_ne_nil hne stream)
  exact onStream_eq_ok.mpr ⟨_, hrun, rfl⟩

/-- In memory every position can be reached. -/
theorem seekStream_apply (position : Nat) (stream : MemoryStream) (state : HandleState) :
    seekStream position ⟨stream, state⟩ = .ok () ⟨stream.movedTo position, state⟩ := rfl

/-- The stream is asked for its position, and the handle keeps what that leaves of it. -/
theorem outcome_tellStream [Seekable σ] {stream : σ} {state : HandleState}
    {ok : Except IoError Nat → Archive σ → Prop} {failed : ArchiveError → Archive σ → Prop}
    (h : Outcome (fun position rest => ok (.ok position) ⟨rest, state⟩)
      (fun cause rest => ok (.error cause) ⟨rest, state⟩) (Seekable.tell stream)) :
    Outcome ok failed (tellStream ⟨stream, state⟩) := by
  simp only [tellStream]
  cases htold : Seekable.tell stream with
  | ok position rest => exact h.of_ok htold
  | error cause rest => exact h.of_error htold

/-- In memory the position is always told. -/
theorem tellStream_apply (stream : MemoryStream) (state : HandleState) :
    tellStream ⟨stream, state⟩ = .ok (.ok stream.position) ⟨stream, state⟩ := rfl

/-- In memory there is nothing to flush. -/
theorem flushStream_apply (stream : MemoryStream) (state : HandleState) :
    flushStream ⟨stream, state⟩ = .ok () ⟨stream, state⟩ := rfl

/-! ## Sealing -/

/-- **The header is written again** in place: the record as it was started becomes the record that
describes the payload, and nothing else changes on the stream. -/
theorem sealHeader_apply (h : draft.Fits) (hsize : draft.record.hasAddedSize = true) :
    sealHeader (draft.account (some (base.position + front.length)))
        ⟨base.write (front ++ draft.record.fixed.toBytes ++ draft.payload), state⟩
      = .ok () ⟨base.write (front ++ draft.segment.toBytes), { state with
          pending? := some (draft.account (some (base.position + front.length))).described }⟩ := by
  obtain ⟨offset, hoffset⟩ : ∃ offset, base.position + front.length = offset := ⟨_, rfl⟩
  obtain ⟨stream, hstream⟩ : ∃ stream,
      base.write (front ++ draft.record.fixed.toBytes ++ draft.payload) = stream := ⟨_, rfl⟩
  have hknown : ofResult ((draft.account (some offset)).offset?.elim (.error positionUnknown) .ok)
      (⟨stream, state⟩ : Archive MemoryStream) = .ok offset ⟨stream, state⟩ := rfl
  have hdescribe := describePayload_of_fits (h.sealedRecord (some offset)) stream state
  rw [Draft.fixed_sealedRecord hsize] at hdescribe
  rw [hoffset, hstream, sealHeader, bind_of_ok hknown, bind_of_ok hdescribe]
  generalize ({ state with pending? := some (draft.account (some offset)).described } : HandleState)
    = described
  have hposition : ofResult ((Except.ok stream.position : Except IoError Nat).mapError
      ArchiveError.write) (⟨stream, described⟩ : Archive MemoryStream)
        = .ok stream.position ⟨stream, described⟩ := rfl
  have hne := (draft.record.describing draft.payload).toBytes_ne_nil
  -- The three seeks and writes of a seal are one change in place.
  rw [bind_of_ok (tellStream_apply stream described), bind_of_ok hposition,
    bind_of_ok (seekStream_apply offset stream described),
    bind_of_ok (writeStream_of_ne_nil hne _ described), seekStream_apply, ← hstream, ← hoffset]
  have hpatch := base.write_patch front draft.record.fixed.toBytes
    (draft.record.describing draft.payload).toBytes draft.payload draft.length_describing
  rw [List.append_assoc front (draft.record.describing draft.payload).toBytes] at hpatch
  exact congrArg (fun stream => EStateM.Result.ok () (⟨stream, described⟩ : Archive MemoryStream))
    hpatch

/-- A writer inside the payload of a draft has that payload open. -/
theorem isOpen_insidePayload : (insidePayload base front draft state).state.IsOpen
    (draft.account (some (base.position + front.length))) := ⟨rfl, rfl⟩

/-- **Sealing** turns the draft that is being written into its segment. -/
theorem finishAddedData_insidePayload (h : draft.Fits) (hsize : draft.record.hasAddedSize = true) :
    finishAddedData (insidePayload base front draft state)
      = .ok () (betweenRecords base (front ++ draft.segment.toBytes) state) := by
  rw [finishAddedData, bind_of_ok (expectPending_of_isOpen isOpen_insidePayload _)]
  by_cases hskip : (draft.account (some (base.position + front.length))).isExact ∧
      !(draft.account (some (base.position + front.length))).hasCrc
  · -- The record that was started describes the payload already.
    obtain ⟨hexact, hcrc⟩ := hskip
    have hbytes : front ++ draft.record.fixed.toBytes ++ draft.payload
        = front ++ draft.segment.toBytes := by
      rw [← Draft.toBytes_of_isExact hsize hexact (Bool.not_eq_true' _ ▸ hcrc), List.append_assoc]
      rfl
    rw [if_pos ⟨hexact, hcrc⟩, insidePayload, hbytes]
    rfl
  · rw [if_neg hskip, insidePayload, bind_of_ok (sealHeader_apply h hsize)]
    rfl

/-- Between two records there is no payload to finish. -/
theorem finishAddedData_betweenRecords :
    finishAddedData (betweenRecords base written state)
      = .error (.invalidState "finish_added_data") (betweenRecords base written state) := rfl

/-! ## Payload -/

/-- **A chunk** is added to the draft if it fits; otherwise nothing changes. -/
theorem writeAddedData_insidePayload (chunk : List UInt8) :
    writeAddedData chunk (insidePayload base front draft state) =
      if (draft.account (some (base.position + front.length))).fits chunk then
        .ok () (insidePayload base front (draft.add chunk) state)
      else
        .error (.invalidParameter (.payloadTooLong draft.record.sizeWidth.length))
          (insidePayload base front draft state) := by
  have hopen := @isOpen_insidePayload base front draft state
  obtain ⟨offset?, hoffset⟩ : ∃ offset?, some (base.position + front.length) = offset? := ⟨_, rfl⟩
  rw [hoffset] at hopen ⊢
  rw [writeAddedData, bind_of_ok (expectPending_of_isOpen hopen _)]
  by_cases hfits : (draft.account offset?).fits chunk = true
  · -- What is accepted of the chunk is appended, and the account follows.
    have hrequire : require ((draft.account offset?).fits chunk = true)
        (.invalidParameter (.payloadTooLong (draft.account offset?).record.sizeWidth.length))
        (insidePayload base front draft state) = .ok () (insidePayload base front draft state) :=
      require_eq_ok.mpr ⟨hfits, rfl⟩
    have hbytes : front ++ draft.record.fixed.toBytes ++ draft.payload
        ++ (draft.account offset?).accept chunk
          = front ++ (draft.add chunk).record.fixed.toBytes ++ (draft.add chunk).payload := by
      rw [draft.payload_add chunk offset?, ← List.append_assoc]
      rfl
    rw [bind_of_ok hrequire, if_pos hfits, insidePayload, bind_of_ok (writeStream_write _ _ _ _),
      setPending_apply, draft.account_add, hbytes, insidePayload, hoffset]
  · rw [bind_of_error (require_of_not hfits _ _), if_neg hfits]
    rfl

/-- Between two records there is no payload to add to. -/
theorem writeAddedData_betweenRecords (chunk : List UInt8) :
    writeAddedData chunk (betweenRecords base written state)
      = .error (.invalidState "write_added_data") (betweenRecords base written state) := rfl

/-! ## Starting records -/

/-- Between two records nothing is to be done in front of the next one. -/
theorem readyForRecord_betweenRecords (call : String) :
    readyForRecord call (betweenRecords base written state)
      = .ok () (betweenRecords base written state) := rfl

/-- A record starts behind the sealed payload in front of it. -/
theorem readyForRecord_insidePayload (h : draft.Fits) (hsize : draft.record.hasAddedSize = true)
    (call : String) : readyForRecord call (insidePayload base front draft state)
      = .ok () (betweenRecords base (front ++ draft.segment.toBytes) state) := by
  rw [readyForRecord, bind_of_ok (state_apply _)]
  exact finishAddedData_insidePayload h hsize

/-- The record of the caller is fixed in place if it fits. -/
theorem fixValue_of_fits {record : Record} (h : record.Fits) (handle : Archive σ) :
    fixValue (record, handle) = .ok record.fixed (record.fixed, handle) := by
  rw [fixValue, bind_of_ok (CallWith.onValue_eq_ok.mpr ⟨_, Record.fixInPlace_of_fits h, rfl⟩)]
  rfl

/-- A record of the caller that cannot be fixed stays as it was. -/
theorem fixValue_of_error {record : Record} {error : ArchiveError} (h : record.fix = .error error)
    (handle : Archive σ) : fixValue (record, handle) = .error error (record, handle) := by
  refine bind_of_error ?_
  rw [CallWith.onValue_apply, Record.fixInPlace_of_error h]

/-- A record that fits is put behind what was written. -/
theorem emit_fixed {record : Record} (h : record.Fits) (written : List UInt8)
    (base : MemoryStream) (state : HandleState) :
    emit record.fixed ⟨base.write written, state⟩
      = .ok () ⟨base.write (written ++ record.fixed.toBytes), state⟩ := by
  have hencode : ofResult record.fixed.encode? ⟨base.write written, state⟩
      = .ok record.fixed.toBytes ⟨base.write written, state⟩ :=
    ofResult_eq_ok.mpr ⟨Record.encode?_eq_ok.mpr ⟨h.size_fixed, rfl⟩, rfl⟩
  rw [emit, bind_of_ok hencode]
  exact writeStream_write _ _ _ _

/-- A writer that has started a record behind what was written: inside its payload if it announces
one. -/
def started (base : MemoryStream) (written : List UInt8) (record : Record) (state : HandleState) :
    Archive MemoryStream :=
  if record.hasAddedSize then insidePayload base written ⟨record, []⟩ state
  else betweenRecords base (written ++ (⟨record, []⟩ : Draft).segment.toBytes) state

/-- A record without room for a payload size is complete at once. -/
theorem toBytes_segment_start {record : Record} (h : ¬ record.hasAddedSize = true) :
    (⟨record, []⟩ : Draft).segment.toBytes = record.fixed.toBytes := by
  rw [Draft.segment, Draft.payload_start, Segment.toBytes, List.append_nil,
    Record.describing_of_not_hasAddedSize h]

variable {handle : Archive MemoryStream} {record : Record}

/-- **A record is started** where one can be, if it fits its fields. -/
theorem writeRecord_of_ready
    (hready : readyForRecord "write_record" handle = .ok () (betweenRecords base written state))
    (hfits : record.Fits) :
    writeRecord (record, handle) = .ok () (record.fixed, started base written record state) := by
  -- the record starts behind everything that was written
  have hoffset : recordOffset record.fixed (betweenRecords base written state)
      = .ok (some (base.position + written.length)) (betweenRecords base written state) := rfl
  have hemit := emit_fixed hfits written base
    { state with mode := .writing .atRecord, pending? := none }
  have hpass := passRecord_apply
    (rfl : ({ state with mode := .writing .atRecord, pending? := none } : HandleState).mode
      = .writing .atRecord) record.fixed (some (base.position + written.length))
    (base.write (written ++ record.fixed.toBytes))
  rw [writeRecord, bind_of_ok (lift_eq_ok.mpr ⟨_, hready, rfl⟩),
    bind_of_ok (fixValue_of_fits hfits _), bind_of_ok (lift_eq_ok.mpr ⟨_, hoffset, rfl⟩),
    betweenRecords, bind_of_ok (lift_eq_ok.mpr ⟨_, hemit, rfl⟩), lift_apply, hpass, started]
  by_cases hsize : record.hasAddedSize = true
  · -- The writer stands inside a payload of which nothing was written.
    have hplace : record.fixed.placeBehind (some (base.position + written.length))
        = .atAddedData (.start record.fixed (some (base.position + written.length))) :=
      if_pos hsize
    rw [if_pos hsize, insidePayload, Draft.payload_start, Draft.account_start, List.append_nil,
      hplace]
    rfl
  · -- The record is complete at once.
    have hplace : record.fixed.placeBehind (some (base.position + written.length)) = .atRecord :=
      if_neg hsize
    rw [if_neg hsize, toBytes_segment_start hsize, hplace]
    rfl

/-- A record that does not fit is refused, behind the sealed payload in front of it. -/
theorem writeRecord_of_error {middle : Archive MemoryStream}
    (hready : readyForRecord "write_record" handle = .ok () middle)
    {error : ArchiveError} (hfix : record.fix = .error error) :
    writeRecord (record, handle) = .error error (record, middle) := by
  rw [writeRecord, bind_of_ok (lift_eq_ok.mpr ⟨_, hready, rfl⟩),
    bind_of_error (fixValue_of_error hfix _)]

/-- **A record is written with its whole payload** where one can start, if it fits its fields. -/
theorem writeRecordWithAddedData_of_ready {payload : List UInt8}
    (hlength : payload.length < UInt64.size)
    (hready : readyForRecord "write_record_with_added_data" handle
      = .ok () (betweenRecords base written state))
    (hfits : (record.announcing payload).Fits) :
    writeRecordWithAddedData payload (record, handle)
      = .ok () ((record.announcing payload).fixed, betweenRecords base
          (written ++ (Draft.whole record payload).segment.toBytes) state) := by
  -- nothing is written again later, so record and payload stand as they are put there
  have hemit := emit_fixed hfits written base
    { state with mode := .writing .atRecord, pending? := none }
  have hpayload := writeStream_write payload (written ++ (record.announcing payload).fixed.toBytes)
    base { state with mode := .writing .atRecord, pending? := none }
  rw [writeRecordWithAddedData, bind_of_ok (lift_eq_ok.mpr ⟨_, hready, rfl⟩), bind_of_ok (CallWith.value_apply _ _),
    bind_of_ok (CallWith.setValue_apply _ _ _), bind_of_ok (fixValue_of_fits hfits _), betweenRecords,
    bind_of_ok (lift_eq_ok.mpr ⟨_, hemit, rfl⟩), bind_of_ok (lift_eq_ok.mpr ⟨_, hpayload, rfl⟩),
    lift_apply, setMode_apply, Draft.toBytes_whole hlength, List.append_assoc]
  rfl

/-- A record that does not fit is refused behind the payload that was sealed in front of it. -/
theorem writeRecordWithAddedData_of_error {payload : List UInt8} {middle : Archive MemoryStream}
    (hready : readyForRecord "write_record_with_added_data" handle = .ok () middle)
    {error : ArchiveError} (hfix : (record.announcing payload).fix = .error error) :
    writeRecordWithAddedData payload (record, handle)
      = .error error (record.announcing payload, middle) := by
  rw [writeRecordWithAddedData, bind_of_ok (lift_eq_ok.mpr ⟨_, hready, rfl⟩), bind_of_ok (CallWith.value_apply _ _),
    bind_of_ok (CallWith.setValue_apply _ _ _), bind_of_error (fixValue_of_error hfix _)]

/-- Between two records a record is started if it fits. -/
theorem writeRecord_eq_ok {final : Archive MemoryStream} :
    CallWith.withValue record writeRecord (betweenRecords base written state) = .ok () final ↔
      record.Fits ∧ started base written record state = final := by
  have hready := @readyForRecord_betweenRecords base written state "write_record"
  rcases hfix : record.fix with error | fixed
  · rw [CallWith.withValue_of_error (writeRecord_of_error hready hfix)]
    constructor
    · nofun
    · rintro ⟨hfits, -⟩
      cases hfix.symm.trans (Record.fix_eq_ok.mpr ⟨hfits, rfl⟩)
  · have hfits := (Record.fix_eq_ok.mp hfix).1
    rw [CallWith.withValue_of_ok (writeRecord_of_ready hready hfits), EStateM.Result.ok.injEq]
    exact ⟨fun h => ⟨hfits, h.2⟩, fun h => ⟨rfl, h.2⟩⟩

/-- Between two records a record is written with its whole payload if it fits. -/
theorem writeRecordWithAddedData_eq_ok {payload : List UInt8}
    (hlength : payload.length < UInt64.size) {final : Archive MemoryStream} :
    CallWith.withValue record (writeRecordWithAddedData payload)
        (betweenRecords base written state) = .ok () final ↔
      (record.announcing payload).Fits ∧ betweenRecords base
        (written ++ (Draft.whole record payload).segment.toBytes) state = final := by
  have hready := @readyForRecord_betweenRecords base written state "write_record_with_added_data"
  rcases hfix : (record.announcing payload).fix with error | fixed
  · rw [CallWith.withValue_of_error (writeRecordWithAddedData_of_error hready hfix)]
    constructor
    · nofun
    · rintro ⟨hfits, -⟩
      cases hfix.symm.trans (Record.fix_eq_ok.mpr ⟨hfits, rfl⟩)
  · have hfits := (Record.fix_eq_ok.mp hfix).1
    rw [CallWith.withValue_of_ok (writeRecordWithAddedData_of_ready hlength hready hfits),
      EStateM.Result.ok.injEq]
    exact ⟨fun h => ⟨hfits, h.2⟩, fun h => ⟨rfl, h.2⟩⟩

/-- A record to be streamed is started like any other one, if it has room for a payload size. -/
theorem startStreamedRecord_of_hasAddedSize [ByteSink σ] [Seekable σ] {record : Record}
    (h : record.hasAddedSize = true) (handle : Archive σ) :
    startStreamedRecord (record, handle) = writeRecord (record, handle) := by
  have hrequire : require (record.hasAddedSize = true) (.invalidParameter .missingAddedSize) handle
      = .ok () handle := require_eq_ok.mpr ⟨h, rfl⟩
  rw [startStreamedRecord, bind_of_ok (CallWith.value_apply _ _),
    bind_of_ok (lift_eq_ok.mpr ⟨_, hrequire, rfl⟩)]

/-- A record without a size for its payload is refused before anything is written. -/
theorem startStreamedRecord_of_not_hasAddedSize [ByteSink σ] [Seekable σ] {record : Record}
    (h : ¬ record.hasAddedSize = true) (handle : Archive σ) :
    startStreamedRecord (record, handle)
      = .error (.invalidParameter .missingAddedSize) (record, handle) := by
  rw [startStreamedRecord, bind_of_ok (CallWith.value_apply _ _),
    bind_of_error (lift_of_error (require_of_not h _ _))]

/-! ## Opening and closing -/

/-- A handle that is used for nothing yet is turned to writing behind the marker. -/
theorem startWriting_ofStream (base : MemoryStream) (options : ArchiveOptions) :
    startWriting (Archive.ofStream base options)
      = .ok () (betweenRecords base Marker.bytes { options }) := by
  have hwrite : onStream Marker.write ⟨base, { mode := .writing .atMarker, options }⟩
      = .ok () ⟨base.write Marker.bytes, { mode := .writing .atMarker, options }⟩ :=
    writeStream_of_ne_nil (by decide) base _
  have hmarker : writeMarker ⟨base, { mode := .writing .atMarker, options }⟩
      = .ok () (betweenRecords base Marker.bytes { options }) := by
    have hrequire : require (Mode.writing .atMarker = .writing .atMarker)
        (.invalidState "write_marker") ⟨base, { mode := .writing .atMarker, options }⟩
          = .ok () ⟨base, { mode := .writing .atMarker, options }⟩ := require_eq_ok.mpr ⟨rfl, rfl⟩
    rw [writeMarker, bind_of_ok (state_apply _), bind_of_ok hrequire, bind_of_ok hwrite]
    rfl
  exact hmarker

/-- Between two records closing gives the stream as it is. -/
theorem close_betweenRecords : close (betweenRecords base written state) = .ok (base.write written) :=
  rfl

/-- Closing a writer inside a payload seals that payload. -/
theorem close_insidePayload (h : draft.Fits) (hsize : draft.record.hasAddedSize = true) :
    close (insidePayload base front draft state)
      = .ok (base.write (front ++ draft.segment.toBytes)) := by
  have hfinish : finishWriting (insidePayload base front draft state)
      = .ok () (betweenRecords base (front ++ draft.segment.toBytes) state) := by
    have hseal : finishAddedData (insidePayload base front draft state)
        = .ok () (betweenRecords base (front ++ draft.segment.toBytes) state) :=
      finishAddedData_insidePayload h hsize
    rw [finishWriting, bind_of_ok (state_apply _)]
    show (finishAddedData >>= fun _ => flushStream) _ = _
    rw [bind_of_ok hseal]
    rfl
  rw [close, hfinish]
  rfl

/-! ## Calls on streams that are written alike -/

section Simulations

variable [ByteSink σ] [Seekable σ] [ByteSink τ] [Seekable τ] {streams : σ → τ → Prop}

/-- Bytes are written alike. -/
theorem simulates_writeStream (h : WritesAlike streams) (bytes : List UInt8) :
    Simulates (Related streams) (writeStream bytes) (writeStream bytes) :=
  simulates_onStream ((h.writeAll bytes).adaptExcept _)

/-- The same position is reached, or is not. -/
theorem simulates_seekStream (h : WritesAlike streams) (position : Nat) :
    Simulates (Related streams) (seekStream position) (seekStream position) :=
  simulates_onStream ((h.seekTo position).adaptExcept _)

/-- The streams are flushed alike. -/
theorem simulates_flushStream (h : WritesAlike streams) :
    Simulates (Related streams) flushStream flushStream :=
  simulates_onStream (h.flush.adaptExcept _)

/-- Such streams tell the same position, or fail to. -/
theorem simulates_tellStream (h : WritesAlike streams) :
    Simulates (Related streams) tellStream tellStream := by
  rintro ⟨stream, state⟩ ⟨stream', _⟩ ⟨hstream, rfl⟩
  have htold := h.tell stream stream' hstream
  simp only [tellStream]
  revert htold
  generalize Seekable.tell stream = result
  generalize Seekable.tell stream' = result'
  rintro (⟨hfinal⟩ | ⟨hfinal⟩)
  · exact .ok ⟨hfinal, rfl⟩
  · exact .ok ⟨hfinal, rfl⟩

omit [ByteSink σ] [Seekable σ] [ByteSink τ] [Seekable τ] in
/-- Related handles have the same payload open, or none. -/
theorem simulates_expectPending (call : String) :
    Simulates (Related streams) (expectPending call) (expectPending call) := by
  rintro ⟨stream, state⟩ ⟨stream', _⟩ ⟨hstream, rfl⟩
  by_cases hopen : ∃ pending, state.IsOpen pending
  · obtain ⟨pending, hopen⟩ := hopen
    rw [expectPending_of_isOpen hopen, expectPending_of_isOpen hopen]
    exact .ok ⟨hstream, rfl⟩
  · rw [expectPending_of_not_isOpen hopen, expectPending_of_not_isOpen hopen]
    exact .error ⟨hstream, rfl⟩

omit [ByteSink σ] [Seekable σ] [ByteSink τ] [Seekable τ] in
/-- The payload in writing is replaced in both. -/
theorem simulates_setPending (pending : PendingPayload) :
    Simulates (Related streams) (setPending pending) (setPending pending) :=
  simulates_update _

omit [ByteSink σ] [Seekable σ] [ByteSink τ] [Seekable τ] in
/-- The payload in writing is described alike. -/
theorem simulates_describePayload (pending : PendingPayload) :
    Simulates (Related streams) (describePayload pending) (describePayload pending) :=
  (simulates_setPending _).bind fun _ => (simulates_ofResult _).bind fun _ =>
    (simulates_setPending _).bind fun _ => simulates_ofResult _

omit [ByteSink σ] [Seekable σ] [ByteSink τ] [Seekable τ] in
/-- The same payload is opened, or none. -/
theorem simulates_passRecord (record : Record) (offset? : Option Nat) :
    Simulates (Related streams) (passRecord record offset?) (passRecord record offset?) :=
  .ite (simulates_update _) (simulates_setMode _)

/-- The header of a payload is written anew alike. -/
theorem simulates_sealHeader (h : WritesAlike streams) (pending : PendingPayload) :
    Simulates (Related streams) (sealHeader pending) (sealHeader pending) :=
  (simulates_ofResult _).bind fun _ => (simulates_describePayload pending).bind fun _ =>
    (simulates_tellStream h).bind fun _ =>
    (simulates_ofResult _).bind fun _ => (simulates_seekStream h _).bind fun _ =>
    (simulates_writeStream h _).bind fun _ => simulates_seekStream h _

/-- **A payload is finished** alike. -/
theorem simulates_finishAddedData (h : WritesAlike streams) :
    Simulates (Related streams) finishAddedData finishAddedData :=
  (simulates_expectPending _).bind fun pending =>
    .ite (simulates_update _) ((simulates_sealHeader h pending).bind fun _ => simulates_update _)

/-- The handle is made ready for a record alike. -/
theorem simulates_readyForRecord (h : WritesAlike streams) (call : String) :
    Simulates (Related streams) (readyForRecord call) (readyForRecord call) := by
  refine simulates_state.bind fun state => ?_
  rcases state.mode with _ | _ | (_ | _ | _)
  case writing.atRecord => exact .pure ()
  case writing.atAddedData => exact simulates_finishAddedData h
  all_goals exact .throw _

/-- The offset of a record is the same, or is missing for both. -/
theorem simulates_recordOffset (h : WritesAlike streams) (record : Record) :
    Simulates (Related streams) (recordOffset record) (recordOffset record) := by
  refine (simulates_tellStream h).bind fun position => ?_
  cases position with
  | ok position => exact .pure _
  | error cause => exact .ite (.throw _) (.pure _)

/-- A record is put alike. -/
theorem simulates_emit (h : WritesAlike streams) (record : Record) :
    Simulates (Related streams) (emit record) (emit record) :=
  (simulates_ofResult _).bind fun _ => simulates_writeStream h _

omit [ByteSink σ] [Seekable σ] [ByteSink τ] [Seekable τ] in
/-- The record of the caller is completed alike. -/
theorem simulates_fixValue : Simulates (Paired Eq streams) fixValue fixValue :=
  (CallWith.simulates_onValue (.refl _)).bind fun _ => CallWith.simulates_value

/-- **A record is started** alike. -/
theorem simulates_writeRecord (h : WritesAlike streams) :
    Simulates (Paired Eq streams) writeRecord writeRecord :=
  (simulates_lift (simulates_readyForRecord h _)).bind fun _ => simulates_fixValue.bind fun _ =>
    (simulates_lift (simulates_recordOffset h _)).bind fun _ =>
    (simulates_lift (simulates_emit h _)).bind fun _ => simulates_lift (simulates_passRecord _ _)

/-- **A record whose size is to follow** is started alike. -/
theorem simulates_startStreamedRecord (h : WritesAlike streams) :
    Simulates (Paired Eq streams) startStreamedRecord startStreamedRecord :=
  CallWith.simulates_value.bind fun _ => (simulates_lift (simulates_require _ _)).bind fun _ =>
    simulates_writeRecord h

/-- **A record with its payload** is written alike. -/
theorem simulates_writeRecordWithAddedData (h : WritesAlike streams) (payload : List UInt8) :
    Simulates (Paired Eq streams) (writeRecordWithAddedData payload)
      (writeRecordWithAddedData payload) :=
  (simulates_lift (simulates_readyForRecord h _)).bind fun _ =>
    CallWith.simulates_value.bind fun _ => (CallWith.simulates_setValue _).bind fun _ =>
    simulates_fixValue.bind fun _ => (simulates_lift (simulates_emit h _)).bind fun _ =>
    (simulates_lift (simulates_writeStream h _)).bind fun _ =>
    simulates_lift (simulates_setMode _)

/-- **A chunk** is added alike. -/
theorem simulates_writeAddedData (h : WritesAlike streams) (chunk : List UInt8) :
    Simulates (Related streams) (writeAddedData chunk) (writeAddedData chunk) :=
  (simulates_expectPending _).bind fun _ => (simulates_require _ _).bind fun _ =>
    (simulates_writeStream h _).bind fun _ => simulates_setPending _

/-- What is open is finished alike. -/
theorem simulates_finishWriting (h : WritesAlike streams) :
    Simulates (Related streams) finishWriting finishWriting := by
  refine simulates_state.bind fun state => ?_
  rcases state.mode with _ | _ | (_ | _ | _)
  case writing.atAddedData =>
    exact (simulates_finishAddedData h).bind fun _ => simulates_flushStream h
  case writing.atMarker => exact simulates_flushStream h
  case writing.atRecord => exact simulates_flushStream h
  all_goals exact .pure ()

/-- **The marker** is written alike. -/
theorem simulates_writeMarker (h : WritesAlike streams) :
    Simulates (Related streams) writeMarker writeMarker :=
  simulates_state.bind fun _ => (simulates_require _ _).bind fun _ =>
    (simulates_onStream ((h.writeAll _).adaptExcept _)).bind fun _ =>
    simulates_setMode _

/-- **A handle is turned to writing** alike. -/
theorem simulates_startWriting (h : WritesAlike streams) :
    Simulates (Related streams) startWriting startWriting := by
  refine simulates_state.bind fun state => ?_
  rcases state.mode with _ | _ | _
  case writing => exact .pure ()
  all_goals exact (simulates_update _).bind fun _ => simulates_writeMarker h

/-- **A handle is turned to reading** alike. -/
theorem simulates_startReading (h : WritesAlike streams) :
    Simulates (Related streams) startReading startReading := by
  refine simulates_state.bind fun state => ?_
  rcases state.mode with _ | _ | _
  case reading => exact .pure ()
  all_goals exact (simulates_finishWriting h).bind fun _ => simulates_update _

/-- **Closing** two handles gives the same error, or related streams. -/
theorem agree_close (h : WritesAlike streams) {first : Archive σ} {second : Archive τ}
    (hrelated : Related streams first second) :
    (∃ error, close first = .error error ∧ close second = .error error) ∨
      ∃ final final', close first = .ok final ∧ close second = .ok final' ∧ streams final final' := by
  have hresult := simulates_finishWriting h first second hrelated
  unfold close
  revert hresult
  generalize finishWriting first = result
  generalize finishWriting second = result'
  rintro (⟨hfinal⟩ | ⟨hfinal⟩)
  · exact .inr ⟨_, _, rfl, rfl, hfinal.stream⟩
  · exact .inl ⟨_, rfl, rfl⟩

end Simulations

/-- Closing leaves on storage what it leaves in memory. -/
theorem close_of_related [ByteSink σ] [Seekable σ] {keeps : σ → MemoryStream → Prop}
    (hk : IsStorage keeps) {handle : Archive σ} {memory : Archive MemoryStream}
    (h : Related keeps handle memory) {final : σ} (hclose : close handle = .ok final) :
    ∃ kept, close memory = .ok kept ∧ keeps final kept := by
  rcases agree_close hk.writesAlike h with ⟨error, hfailed, -⟩ | ⟨_, kept, hclosed, hkept, hfinal⟩
  · cases hclose.symm.trans hfailed
  · cases hclose.symm.trans hclosed
    exact ⟨kept, hkept, hfinal⟩

end Archive

end RecordArchive
