import Mathlib.Data.List.Basic
import RecordArchive.Proofs.Archive.Packer
import RecordArchive.Proofs.Archive.Recording
import RecordArchive.Proofs.Stream.Fallible

/-! # Payloads that are sealed again after a failure

A seal goes back to the record, writes its header again and returns to where it came from. Any of
these steps may fail; the payload then stays open, and the seal can be tried again.

* `Archive.finishAddedData_outcome`: a seal leaves the right header and the payload behind it, and
  the stream where it stood when the seal began. A failed one has written a front part of the
  header and stands behind that, or has changed nothing.
* `Archive.finishAddedData_of_failedSeals`: so a seal that succeeds after failed ones has done its
  work on the bytes of the archive. But it returns to where the failed ones have left the stream,
  which need not be the end of the payload.
* `Archive.finishAddedData_overwrites`: the record behind may then be written over the payload. -/

namespace RecordArchive

open Program Call

variable {σ : Type}

/-! ## Streams of handles -/

namespace Archive

variable [ByteSink σ] [Seekable σ] {kept : σ → MemoryStream} {stream : σ} {state : HandleState}

/-- A write through a handle puts its bytes on the stream, and a failed one some of them. -/
theorem outcome_writeStream (hk : IsFallibleStorage kept) (bytes : List UInt8) (stream : σ)
    (state : HandleState) :
    Outcome (fun _ final => final.state = state ∧
        MemoryStream.Puts bytes (kept stream) (kept final.stream))
      (fun error final => (∃ cause, error = .write cause) ∧ final.state = state ∧
        ∃ front, front <+: bytes ∧ MemoryStream.Puts front (kept stream) (kept final.stream))
      (writeStream bytes ⟨stream, state⟩) := by
  refine outcome_onStream (Outcome.adaptExcept ((hk.writeAll bytes stream).mono ?_ ?_))
  · exact fun _ final hfinal => ⟨rfl, hfinal⟩
  · exact fun error final hfinal => ⟨⟨error, rfl⟩, rfl, hfinal⟩

/-- The stream moves, or it fails and stays. -/
theorem outcome_seekStream (hk : IsFallibleStorage kept) (position : Nat) (stream : σ)
    (state : HandleState) :
    Outcome (fun _ final => final.state = state ∧
        kept final.stream = (kept stream).movedTo position)
      (fun error final => (∃ cause, error = .write cause) ∧ final.state = state ∧
        kept final.stream = kept stream)
      (seekStream position ⟨stream, state⟩) := by
  refine outcome_onStream (Outcome.adaptExcept ((hk.seekTo position stream).mono ?_ ?_))
  · exact fun _ final hfinal => ⟨rfl, hfinal⟩
  · exact fun error final hfinal => ⟨⟨error, rfl⟩, rfl, hfinal⟩

/-- To flush the stream moves nothing, whether it succeeds or fails. -/
theorem outcome_flushStream (hk : IsFallibleStorage kept) (stream : σ) (state : HandleState) :
    Outcome (fun _ final => final.state = state ∧ kept final.stream = kept stream)
      (fun error final => (∃ cause, error = .write cause) ∧ final.state = state ∧
        kept final.stream = kept stream)
      (flushStream ⟨stream, state⟩) := by
  refine outcome_onStream (Outcome.adaptExcept ((hk.flush stream).mono ?_ ?_))
  · exact fun _ final hfinal => ⟨rfl, hfinal⟩
  · exact fun error final hfinal => ⟨⟨error, rfl⟩, rfl, hfinal⟩

end Archive

/-! ## Rewriting a header -/

namespace MemoryStream

variable {base start final : MemoryStream}

/-- Only the last move counts. -/
theorem movedTo_movedTo (first second : Nat) (stream : MemoryStream) :
    (stream.movedTo first).movedTo second = stream.movedTo second := rfl

/-- Behind what was written the stream stands already. -/
theorem movedTo_write (content : List UInt8) (stream : MemoryStream) :
    (stream.write content).movedTo (stream.position + content.length) = stream.write content := rfl

/-- Streams with the same bytes differ in their positions alone. -/
theorem eq_movedTo (h : start.bytes = final.bytes) : start = final.movedTo start.position := by
  cases start
  cases final
  obtain rfl := h
  rfl

/-- **A front part that is written again** in place changes in what was written, and the stream
then stands behind it. -/
theorem Puts.rewritten {front header body : List UInt8}
    (h : Puts front ((base.write (header ++ body)).movedTo base.position) final)
    (hlength : front.length ≤ header.length) :
    final = (base.write (front ++ header.drop front.length ++ body)).movedTo
      (base.position + front.length) := by
  rcases h with rfl | ⟨rfl, rfl⟩
  · have htake : front.length = (header.take front.length).length := by
      rw [List.length_take]
      omega
    have hpatch := base.write_patch [] (header.take front.length) front
      (header.drop front.length ++ body) htake
    rw [List.nil_append, List.nil_append, ← List.append_assoc, List.take_append_drop,
      ← List.append_assoc] at hpatch
    rw [← hpatch]
    rfl
  · rfl

end MemoryStream

/-! ## Open payloads -/

namespace Draft

/-- The record as it was started describes the payload already, so that it need not be sealed. -/
def IsDescribed (draft : Draft) : Prop :=
  (draft.account none).isExact = true ∧ draft.record.hasAddedCrc = false

/-- The bytes of the record that sealing writes. -/
def sealedBytes (draft : Draft) : List UInt8 := (draft.record.describing draft.payload).toBytes

/-- A finished record is its sealed header with the payload behind it. -/
theorem toBytes_segment (draft : Draft) :
    draft.segment.toBytes = draft.sealedBytes ++ draft.payload := rfl

/-- The record that sealing writes has the length of the one that was started. -/
theorem length_sealedBytes (draft : Draft) :
    draft.sealedBytes.length = draft.record.fixed.toBytes.length := draft.length_describing

end Draft

namespace Archive

/-- **A handle inside the payload** of a draft whose record starts where `base` stands: the bytes
behind are the record, of which a failed seal may have rewritten some, and `body`. -/
structure IsUnsealed (kept : σ → MemoryStream) (base : MemoryStream) (draft : Draft)
    (header body : List UInt8) (handle : Archive σ) : Prop where
  account : ∃ offset? pending, handle.state.IsOpen pending ∧ draft.IsKeptAs offset? pending ∧
    ∀ offset, offset? = some offset → offset = base.position
  length : header.length = draft.sealedBytes.length
  described : draft.IsDescribed → header = draft.sealedBytes
  bytes : (kept handle.stream).bytes = (base.write (header ++ body)).bytes

/-- **A handle inside the payload** of a draft that no seal has touched: it stands behind the
record and `body`. -/
structure IsStreaming (kept : σ → MemoryStream) (base : MemoryStream) (draft : Draft)
    (body : List UInt8) (handle : Archive σ) : Prop where
  account : ∃ offset? pending, handle.state.IsOpen pending ∧ draft.IsKeptAs offset? pending ∧
    ∀ offset, offset? = some offset → offset = base.position
  kept : kept handle.stream = base.write (draft.record.fixed.toBytes ++ body)

variable {kept : σ → MemoryStream} {base : MemoryStream} {draft : Draft}
  {header body : List UInt8} {handle : Archive σ}

/-- A payload that has come to its end is ready to be sealed. -/
theorem IsStreaming.isUnsealed (hsize : draft.record.hasAddedSize = true)
    (h : IsStreaming kept base draft body handle) :
    IsUnsealed kept base draft draft.record.fixed.toBytes body handle where
  account := h.account
  length := draft.length_sealedBytes.symm
  described := fun ⟨hexact, hcrc⟩ => (Draft.toBytes_of_isExact hsize hexact hcrc).symm
  bytes := congrArg MemoryStream.bytes h.kept

section Seal

variable [ByteSink σ] [Seekable σ]

/-- **Bytes written over as many** leave what is behind them, and the stream where it stood. A failure
leaves a front part of them, and the stream behind that. -/
theorem outcome_overwrite (hk : IsFallibleStorage kept) {bytes : List UInt8} {stream : σ}
    (state : HandleState) (hlength : header.length = bytes.length)
    (hbytes : (kept stream).bytes = (base.write (header ++ body)).bytes) :
    Outcome (fun _ final => final.state = state ∧
        kept final.stream = (base.write (bytes ++ body)).movedTo (kept stream).position)
      (fun error final => (∃ cause, error = .write cause) ∧ final.state = state ∧
        (kept final.stream = kept stream ∨ ∃ front, front <+: bytes ∧
          kept final.stream = (base.write (front ++ header.drop front.length ++ body)).movedTo
            (base.position + front.length)))
      ((do
        seekStream base.position
        writeStream bytes
        seekStream (kept stream).position : Call σ Unit) ⟨stream, state⟩) := by
  -- The seek to the record changes nothing if it fails.
  refine Outcome.bind ((outcome_seekStream hk base.position stream state).mono ?_ ?_)
  · rintro _ ⟨front, _⟩ ⟨rfl, hfront⟩
    have hstart : kept front = (base.write (header ++ body)).movedTo base.position := by
      rw [hfront, MemoryStream.eq_movedTo hbytes, MemoryStream.movedTo_movedTo]
    -- What was written of the bytes is a front part of them, whether that fails or not.
    refine Outcome.bind ((outcome_writeStream hk bytes front _).mono ?_ ?_)
    · rintro _ ⟨middle, _⟩ ⟨rfl, hmiddle⟩
      rw [hstart] at hmiddle
      have hwhole := hmiddle.rewritten (Nat.le_of_eq hlength.symm)
      refine (outcome_seekStream hk (kept stream).position middle _).mono ?_ ?_
      · rintro _ final ⟨hstate, hfinal⟩
        refine ⟨hstate, ?_⟩
        rw [hfinal, hwhole, ← hlength, List.drop_length, List.append_nil,
          MemoryStream.movedTo_movedTo]
      · rintro error final ⟨hcause, hstate, hfinal⟩
        exact ⟨hcause, hstate, .inr ⟨bytes, List.prefix_rfl, hfinal.trans hwhole⟩⟩
    · rintro error final ⟨hcause, hstate, part, hpart, hfinal⟩
      rw [hstart] at hfinal
      exact ⟨hcause, hstate, .inr ⟨part, hpart, hfinal.rewritten (hlength ▸ hpart.length_le)⟩⟩
  · rintro error final ⟨hcause, hstate, hfinal⟩
    exact ⟨hcause, hstate, .inl hfinal⟩

/-- **Writing the header again** returns to where the stream stood, or fails having written a
front part of it. What was assigned to the record of the payload is kept in either case. -/
theorem sealHeader_outcome (hk : IsFallibleStorage kept) (hfits : draft.Fits)
    (hsize : draft.record.hasAddedSize = true) {offset? : Option Nat} {pending : PendingPayload}
    (hpending : draft.IsKeptAs offset? pending)
    (hoffset : ∀ offset, offset? = some offset → offset = base.position) {stream : σ}
    {state : HandleState} (hlength : header.length = draft.sealedBytes.length)
    (hbytes : (kept stream).bytes = (base.write (header ++ body)).bytes) :
    Outcome (fun _ final => final.state = { state with pending? := some pending.described } ∧
        kept final.stream = (base.write (draft.sealedBytes ++ body)).movedTo (kept stream).position)
      (fun error final => (∃ cause, error = .write cause) ∧
        (final.state = state ∨ final.state = { state with pending? := some pending.described }) ∧
        (kept final.stream = kept stream ∨ ∃ front, front <+: draft.sealedBytes ∧
          kept final.stream = (base.write (front ++ header.drop front.length ++ body)).movedTo
            (base.position + front.length)))
      (sealHeader pending ⟨stream, state⟩) := by
  have hknown : pending.offset? = offset? := by
    rw [hpending.account]
    rfl
  have hdescribe := describePayload_of_fits (hpending.sealedRecord_fits hfits) stream state
  rw [hpending.fixed_sealedRecord hsize] at hdescribe
  rw [sealHeader, hknown]
  cases offset? with
  | none => exact ⟨⟨_, rfl⟩, .inl rfl, .inl rfl⟩
  | some offset =>
    obtain rfl := hoffset offset rfl
    have hresult : ofResult ((some base.position : Option Nat).elim (.error positionUnknown) .ok)
        (⟨stream, state⟩ : Archive σ) = .ok base.position ⟨stream, state⟩ := rfl
    rw [bind_of_ok hresult, bind_of_ok hdescribe]
    generalize ({ state with pending? := some pending.described } : HandleState) = described
    refine Outcome.bind (outcome_tellStream ((hk.tell stream).mono ?_ ?_))
    · rintro position asked ⟨rfl, hasked⟩
      have hend : ofResult ((Except.ok (kept stream).position : Except IoError Nat).mapError
          ArchiveError.write) (⟨asked, described⟩ : Archive σ)
            = .ok (kept stream).position ⟨asked, described⟩ := rfl
      rw [bind_of_ok hend]
      rw [← hasked] at hbytes
      have hoverwrite := outcome_overwrite hk described hlength hbytes
      rw [hasked] at hoverwrite
      refine hoverwrite.mono (fun _ _ hfinal => hfinal) ?_
      rintro error final ⟨hcause, hstate, hfinal⟩
      exact ⟨hcause, .inr hstate, hfinal⟩
    · rintro cause asked hasked
      exact ⟨⟨cause, rfl⟩, .inr rfl, .inl hasked⟩

/-- **A seal** leaves the right header in front of what stands behind it, and the stream where it
stood when the seal began; a failed one has changed nothing on the stream, or has written a front part
of the header and stands behind that. -/
theorem finishAddedData_outcome (hk : IsFallibleStorage kept) (hfits : draft.Fits)
    (hsize : draft.record.hasAddedSize = true) (h : IsUnsealed kept base draft header body handle) :
    Outcome (fun _ final => final.state
          = { handle.state with mode := .writing .atRecord, pending? := none } ∧
        kept final.stream
          = (base.write (draft.sealedBytes ++ body)).movedTo (kept handle.stream).position)
      (fun error final => (∃ cause, error = .write cause) ∧ handle.state.Attempted final.state ∧
        (kept final.stream = kept handle.stream ∨ ∃ front, front <+: draft.sealedBytes ∧
          kept final.stream = (base.write (front ++ header.drop front.length ++ body)).movedTo
            (base.position + front.length)))
      (finishAddedData handle) := by
  obtain ⟨offset?, pending, hopen, hpending, hoffset⟩ := h.account
  rw [finishAddedData, bind_of_ok (expectPending_of_isOpen hopen _)]
  split
  next hskip =>
    -- The record describes the payload as it stands there, so nothing is written.
    rw [hpending.account] at hskip
    have hdescribed : draft.IsDescribed := ⟨hskip.1, Bool.not_eq_true' _ ▸ hskip.2⟩
    refine ⟨rfl, ?_⟩
    rw [← h.described hdescribed]
    exact MemoryStream.eq_movedTo h.bytes
  next =>
    obtain ⟨stream, state⟩ := handle
    refine Outcome.bind
      ((sealHeader_outcome hk hfits hsize hpending hoffset h.length h.bytes).mono ?_ ?_)
    · rintro _ ⟨final, _⟩ ⟨rfl, hfinal⟩
      exact ⟨rfl, hfinal⟩
    · rintro error final ⟨hcause, hstate, hfinal⟩
      exact ⟨hcause, hstate.imp_right fun hstate => ⟨pending, hopen, hstate⟩, hfinal⟩

/-! ## Failed seals in a row -/

/-- A handle after any number of seals that failed. Between two attempts anything about the stream may
change but its bytes and its position, so what has failed once may succeed later. -/
inductive FailedSeals (kept : σ → MemoryStream) (start : Archive σ) : Archive σ → Prop
  | none : FailedSeals kept start start
  | again {middle final : Archive σ} {error : ArchiveError} (h : FailedSeals kept start middle)
    (hrun : finishAddedData middle = .error error final) : FailedSeals kept start final
  | recovered {middle : Archive σ} {stream : σ} (h : FailedSeals kept start middle)
    (hstream : kept stream = kept middle.stream) : FailedSeals kept start ⟨stream, middle.state⟩

/-- **A failed seal** leaves the payload open, and the stream where it was or inside the record. -/
theorem IsUnsealed.of_error (hk : IsFallibleStorage kept) (hfits : draft.Fits)
    (hsize : draft.record.hasAddedSize = true) (h : IsUnsealed kept base draft header body handle)
    {error : ArchiveError} {final : Archive σ}
    (hrun : finishAddedData handle = .error error final) :
    handle.state.Attempted final.state ∧
      (∃ header', IsUnsealed kept base draft header' body final) ∧
      ((kept final.stream).position = (kept handle.stream).position ∨
        ∃ count, count ≤ draft.sealedBytes.length ∧
          (kept final.stream).position = base.position + count) := by
  obtain ⟨-, hstate, hstream⟩ := (finishAddedData_outcome hk hfits hsize h).of_error hrun
  obtain ⟨offset?, pending, hopen, hpending, hoffset⟩ := h.account
  have haccount : ∃ offset? pending, final.state.IsOpen pending ∧ draft.IsKeptAs offset? pending ∧
      ∀ offset, offset? = some offset → offset = base.position := by
    rcases hstate.isOpen hopen with hopen | hopen
    · exact ⟨offset?, pending, hopen, hpending, hoffset⟩
    · exact ⟨offset?, _, hopen, hpending.described hsize hfits, hoffset⟩
  refine ⟨hstate, ?_⟩
  rcases hstream with hsame | ⟨front, hfront, hrewritten⟩
  · refine ⟨⟨header, haccount, h.length, h.described, ?_⟩, .inl ?_⟩
    · rw [hsame]
      exact h.bytes
    · rw [hsame]
  · have hle : front.length ≤ draft.sealedBytes.length := hfront.length_le
    refine ⟨⟨front ++ header.drop front.length, haccount, ?_, ?_, ?_⟩, .inr ⟨front.length, hle, ?_⟩⟩
    · have hlength := h.length
      rw [List.length_append, List.length_drop]
      omega
    · -- A front part of the header that stands there already changes nothing.
      intro hdescribed
      obtain ⟨back, hback⟩ := hfront
      rw [h.described hdescribed, ← hback, List.drop_left]
    · rw [hrewritten]
      rfl
    · rw [hrewritten]
      rfl

/-- **After any number of failed seals** the payload is still open, and the state of the handle is what
it was but for what is kept of the payload. -/
theorem FailedSeals.isUnsealed (hk : IsFallibleStorage kept) (hfits : draft.Fits)
    (hsize : draft.record.hasAddedSize = true) (h : IsUnsealed kept base draft header body handle)
    {middle : Archive σ} (hfailed : FailedSeals kept handle middle) :
    (∃ pending?, middle.state = { handle.state with pending? }) ∧
      (∃ header', IsUnsealed kept base draft header' body middle) ∧
      ((kept middle.stream).position = (kept handle.stream).position ∨
        ∃ count, count ≤ draft.sealedBytes.length ∧
          (kept middle.stream).position = base.position + count) := by
  induction hfailed with
  | none => exact ⟨⟨handle.state.pending?, rfl⟩, ⟨header, h⟩, .inl rfl⟩
  | again _ hrun ih =>
    obtain ⟨⟨pending?, hstate⟩, ⟨header', hmiddle⟩, hposition⟩ := ih
    obtain ⟨hattempted, hfinal, hposition'⟩ := hmiddle.of_error hk hfits hsize hrun
    obtain ⟨pending?', hstate'⟩ := hattempted.exists_pending?
    refine ⟨⟨pending?', ?_⟩, hfinal, ?_⟩
    · rw [hstate', hstate]
    · rcases hposition' with hsame | hinside
      · rw [hsame]
        exact hposition
      · exact .inr hinside
  | recovered _ hstream ih =>
    -- the account is in the state, and the rest is about bytes and position
    obtain ⟨hstate, ⟨header', hmiddle⟩, hposition⟩ := ih
    refine ⟨hstate, ⟨header', hmiddle.account, hmiddle.length, hmiddle.described, ?_⟩, ?_⟩
    · rw [hstream]
      exact hmiddle.bytes
    · rw [hstream]
      exact hposition

/-- Between two records a further one can start. -/
theorem readyForRecord_of_atRecord (hmode : handle.state.mode = .writing .atRecord)
    (name : String) :
    readyForRecord name handle = .ok () handle := by
  rw [readyForRecord, bind_of_ok (state_apply handle), hmode]
  rfl

/-- Inside a payload a further record starts with the seal. -/
theorem readyForRecord_of_isOpen {pending : PendingPayload}
    (hopen : handle.state.IsOpen pending) (name : String) :
    readyForRecord name handle = finishAddedData handle := by
  rw [readyForRecord, bind_of_ok (state_apply handle), hopen.mode]

end Seal

/-! ## Calls that seal first -/

/-- A call that seals an open payload before it does anything else. -/
inductive SealingCall
  /-- Starts a record. -/
  | start (record : Record)
  /-- Writes a record with its whole payload. -/
  | whole (record : Record) (payload : List UInt8)
  /-- Turns the handle to reading. -/
  | read
  /-- Completes what is being written, as closing the handle does. -/
  | complete

namespace SealingCall

variable [ByteSink σ] [Seekable σ]

/-- The call on a handle. -/
def run : SealingCall → Call σ Unit
  | start record => CallWith.withValue record writeRecord
  | whole record payload => CallWith.withValue record (writeRecordWithAddedData payload)
  | read => startReading
  | complete => finishWriting

/-- **A call that seals first** goes on as if the payload had been sealed before it. -/
theorem run_of_finishAddedData {sealed : Archive σ} {pending : PendingPayload}
    (hopen : handle.state.IsOpen pending) (hrun : finishAddedData handle = .ok () sealed)
    (hmode : sealed.state.mode = .writing .atRecord) (call : SealingCall) :
    call.run handle = call.run sealed := by
  have hinside := hopen.mode
  have hready (name : String) : readyForRecord name handle = .ok () sealed :=
    (readyForRecord_of_isOpen hopen name).trans hrun
  have hready' := readyForRecord_of_atRecord hmode
  have hfinish : finishWriting handle = finishWriting sealed := by
    rw [finishWriting, bind_of_ok (state_apply handle), bind_of_ok (state_apply sealed), hinside,
      hmode]
    exact bind_of_ok hrun
  cases call with
  | start record =>
    have hwrite : writeRecord (record, handle) = writeRecord (record, sealed) :=
      bind_eq_of_ok (lift_eq_ok.mpr ⟨_, hready _, rfl⟩) (lift_eq_ok.mpr ⟨_, hready' _, rfl⟩)
    simp only [run, CallWith.withValue, hwrite]
  | whole record payload =>
    have hwrite : writeRecordWithAddedData payload (record, handle)
        = writeRecordWithAddedData payload (record, sealed) :=
      bind_eq_of_ok (lift_eq_ok.mpr ⟨_, hready _, rfl⟩) (lift_eq_ok.mpr ⟨_, hready' _, rfl⟩)
    simp only [run, CallWith.withValue, hwrite]
  | read =>
    show startReading handle = startReading sealed
    rw [startReading, bind_of_ok (state_apply handle), bind_of_ok (state_apply sealed), hinside,
      hmode]
    show (finishWriting >>= _) handle = (finishWriting >>= _) sealed
    rw [bind_apply, bind_apply, hfinish]
  | complete => exact hfinish

/-- A seal that fails is a failure of the call. -/
theorem run_of_finishAddedData_error {failed : Archive σ} {pending : PendingPayload}
    {error : ArchiveError} (hopen : handle.state.IsOpen pending)
    (hrun : finishAddedData handle = .error error failed) (call : SealingCall) :
    call.run handle = .error error failed := by
  have hinside := hopen.mode
  have hready (name : String) : readyForRecord name handle = .error error failed :=
    (readyForRecord_of_isOpen hopen name).trans hrun
  have hfinish : finishWriting handle = .error error failed := by
    rw [finishWriting, bind_of_ok (state_apply handle), hinside]
    exact bind_of_error hrun
  cases call with
  | start record =>
    exact CallWith.withValue_of_error (bind_of_error (lift_of_error (hready "write_record")))
  | whole record payload =>
    exact CallWith.withValue_of_error
      (bind_of_error (lift_of_error (hready "write_record_with_added_data")))
  | read =>
    show startReading handle = .error error failed
    rw [startReading, bind_of_ok (state_apply handle), hinside]
    exact bind_of_error hfinish
  | complete => exact hfinish

end SealingCall

section Retry

variable [ByteSink σ] [Seekable σ]

/-- The end of a file seals its content. -/
theorem endFile_of_finishAddedData {sealed : Archive σ} {pending : PendingPayload}
    (hopen : handle.state.IsOpen pending) (hpacker : handle.state.packer = .afterFileData)
    (hrun : finishAddedData handle = .ok () sealed) :
    endFile handle = .ok ()
      ⟨sealed.stream, { sealed.state with currentFile? := none, packer := .fileHeader }⟩ := by
  have hallowed : handle.state.packer ∈ [PackerState.afterFileData] := by
    rw [hpacker]
    exact List.mem_singleton_self _
  have hexpect : expectPacker [.afterFileData] "end_file" handle = .ok () handle :=
    (expectPacker_eq_ok hopen.mode).mpr ⟨hallowed, rfl⟩
  rw [endFile, bind_of_ok hexpect, bind_of_ok hrun]
  rfl

/-- **A seal that is tried again** after any number of failures, directly or by a call that seals
first, leaves the header that describes the payload in front of exactly that payload. The stream
then stands where the last attempt found it. That is the end of the payload if the failed attempts
have not moved the stream; otherwise it is a place inside the record, up to which they have
rewritten its header, and what is written next takes the place of what stands there. -/
theorem finishAddedData_of_failedSeals (hk : IsFallibleStorage kept) (hfits : draft.Fits)
    (hsize : draft.record.hasAddedSize = true)
    (h : IsStreaming kept base draft draft.payload handle)
    {middle sealed : Archive σ} (hfailed : FailedSeals kept handle middle)
    (hrun : finishAddedData middle = .ok () sealed) :
    draft.segment.IsComplete ∧
      kept sealed.stream
        = (base.write draft.segment.toBytes).movedTo (kept middle.stream).position ∧
      sealed.state = { handle.state with mode := .writing .atRecord, pending? := none } ∧
      ((kept middle.stream).position = base.position + draft.segment.toBytes.length ∨
        ∃ count, count ≤ draft.sealedBytes.length ∧
          (kept middle.stream).position = base.position + count) ∧
      (∀ call : SealingCall, call.run middle = call.run sealed) ∧
      (handle.state.packer = .afterFileData → endFile middle = .ok ()
        ⟨sealed.stream, { sealed.state with currentFile? := none, packer := .fileHeader }⟩) := by
  obtain ⟨⟨pending?, hstate⟩, ⟨header, hopen⟩, hposition⟩ :=
    FailedSeals.isUnsealed hk hfits hsize (h.isUnsealed hsize) hfailed
  obtain ⟨hsealed, hstream⟩ := (finishAddedData_outcome hk hfits hsize hopen).of_ok hrun
  obtain ⟨offset?, pending, hpending, -⟩ := hopen.account
  refine ⟨hfits.isComplete, hstream, ?_, ?_, fun call => ?_, fun hpacker => ?_⟩
  · rw [hsealed, hstate]
  · rcases hposition with hsame | hinside
    · left
      rw [hsame, h.kept, draft.toBytes_segment]
      show base.position + (draft.record.fixed.toBytes ++ draft.payload).length = _
      rw [List.length_append, List.length_append, draft.length_sealedBytes]
    · exact .inr hinside
  · exact call.run_of_finishAddedData hpending hrun (by rw [hsealed])
  · exact endFile_of_finishAddedData hpending (by rw [hstate]; exact hpacker) hrun

end Retry

/-! ### A stream that refuses to return -/

/-- A writer behind the marker, on a stream that cannot be moved to the byte with the number 24. -/
def hindered : Recording FaultyStream :=
  ⟨⟨⟨({} : MemoryStream).write Marker.bytes, { refusedSeeks := [24] }⟩,
    { mode := .writing .atRecord }⟩, []⟩

/-- A fragment that leaves the size of its payload to sealing. -/
def unsized : Record := { kind := .dataFragment, flags := 0x80 }

/-- Eight bytes of payload behind it. -/
def octets : Draft := ⟨unsized, [[1, 2, 3, 4, 5, 6, 7, 8]]⟩

/-- The writer behind these bytes, which end where the stream refuses to return to. -/
def behindOctets : Recording FaultyStream :=
  hindered.performAll [.start unsized, .append [1, 2, 3, 4, 5, 6, 7, 8]]

/-- Behind the eight bytes the payload is in writing. -/
theorem isStreaming_behindOctets :
    IsStreaming FaultyStream.memory (({} : MemoryStream).write Marker.bytes) octets octets.payload
      behindOctets.handle := by
  refine ⟨⟨some 6, _, ⟨by cbv, by cbv⟩, .of_account, fun offset hoffset => ?_⟩, by cbv⟩
  cases hoffset
  rfl

/-- The first attempt to seal them fails when the header has been written. -/
theorem finishAddedData_behindOctets : finishAddedData behindOctets.handle
    = .error (.write (.worded .other "seek fault")) (behindOctets.perform .finish).handle := by
  cbv

/-- The second attempt succeeds. -/
theorem finishAddedData_again_behindOctets :
    finishAddedData (behindOctets.perform .finish).handle
      = .ok () ((behindOctets.perform .finish).perform .finish).handle := by
  cbv

/-- The second attempt succeeds, and the stream then stands in front of the payload. -/
theorem finishAddedData_of_failedSeals_octets : ∃ sealed,
    octets.Fits ∧ octets.record.hasAddedSize = true ∧
      IsStreaming FaultyStream.memory (({} : MemoryStream).write Marker.bytes) octets octets.payload
        behindOctets.handle ∧
      FailedSeals FaultyStream.memory behindOctets.handle (behindOctets.perform .finish).handle ∧
      finishAddedData (behindOctets.perform .finish).handle = .ok () sealed ∧
      sealed.stream.memory
        = ((({} : MemoryStream).write Marker.bytes).write octets.segment.toBytes).movedTo 16 := by
  have hposition : (behindOctets.perform .finish).handle.stream.memory.position = 16 := by cbv
  have hfits : octets.Fits := ⟨⟨fun _ => by decide, by decide⟩, by decide⟩
  have hfailed : FailedSeals FaultyStream.memory behindOctets.handle
      (behindOctets.perform .finish).handle :=
    .again .none finishAddedData_behindOctets
  obtain ⟨-, hstream, -⟩ := finishAddedData_of_failedSeals FaultyStream.isFallibleStorage hfits rfl
    isStreaming_behindOctets hfailed finishAddedData_again_behindOctets
  rw [hposition] at hstream
  exact ⟨_, hfits, rfl, isStreaming_behindOctets, hfailed, finishAddedData_again_behindOctets,
    hstream⟩

/-- **A payload is overwritten** after a seal that was tried again: behind eight bytes of payload
the first attempt fails and the second one succeeds, eight bytes in front of where the first one
began, and the record written next takes the place of six of them. -/
theorem finishAddedData_overwrites : ∃ failed sealed next,
    finishAddedData behindOctets.handle
        = .error (.write (.worded .other "seek fault")) failed ∧
      finishAddedData failed = .ok () sealed ∧
      CallWith.withValue { kind := .dataFragment } writeRecord sealed = .ok () next ∧
      behindOctets.handle.stream.memory.position = 24 ∧
      sealed.stream.memory.position = 16 ∧
      sealed.stream.memory.toList = Marker.bytes ++ octets.segment.toBytes ∧
      next.stream.memory.toList = Marker.bytes ++ octets.sealedBytes
        ++ ({ kind := .dataFragment } : Record).fixed.toBytes ++ [7, 8] := by
  refine ⟨(behindOctets.perform .finish).handle,
    ((behindOctets.perform .finish).perform .finish).handle,
    (((behindOctets.perform .finish).perform .finish).perform (.start { kind := .dataFragment })).handle,
    finishAddedData_behindOctets, finishAddedData_again_behindOctets, ?_, ?_, ?_, ?_, ?_⟩
  all_goals cbv

end Archive

end RecordArchive
