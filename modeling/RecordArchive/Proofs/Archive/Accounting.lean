import RecordArchive.Proofs.Archive.Sealing

/-! # What a writer keeps account of when writes fail

A write may fail when it has put some of its bytes on the stream. A writer that streams a payload
does not count these bytes, and goes on behind them.

* `WriterRun kept start lost handle` is any sequence of writer calls, some of which may fail;
  `lost` are the bytes that failed calls have left behind the record that is open.
* `WriterRun.isAccounted`: each call keeps the account of a payload apart from the lost bytes
  (`IsAccounted`).
* `WriterRun.position_eq`: the stream therefore stands behind record, payload and lost bytes, and
  a sealed record describes what stands behind it exactly if none were lost. -/

namespace RecordArchive

open Program Call Archive

variable {σ : Type} {kept : σ → MemoryStream} {base : MemoryStream} {draft : Draft}
  {body : List UInt8} {lost : Nat} {handle : Archive σ}

/-- **The account of a writer**: between two records there is none; inside a payload it counts the
payload, and the stream holds that payload with as many further bytes among it as were lost. -/
inductive IsAccounted (kept : σ → MemoryStream) (lost : Nat) (handle : Archive σ) : Prop
  /-- Between two records. -/
  | between (hmode : handle.state.mode = .writing .atRecord)
  /-- Inside a payload. -/
  | inside {base : MemoryStream} {draft : Draft} {body : List UInt8} (hfits : draft.Fits)
    (hsize : draft.record.hasAddedSize = true) (hopen : IsStreaming kept base draft body handle)
    (hpayload : draft.payload.Sublist body) (hlength : body.length = draft.payload.length + lost)

/-- Behind a record that was started nothing is lost, whether it announces a payload or not. -/
theorem IsAccounted.started {record : Record} (hfits : record.Fits) {base : MemoryStream}
    {offset? : Option Nat} {stream : σ} {state : HandleState}
    (hstream : kept stream = base.write record.fixed.toBytes)
    (hoffset : ∀ offset, offset? = some offset → offset = base.position) :
    IsAccounted kept 0 ⟨stream, state.writingAt (record.fixed.placeBehind offset?)⟩ := by
  by_cases hsize : record.fixed.hasAddedSize = true
  · -- The payload is open, and nothing of it was written.
    have hnone := Draft.payload_start record
    rw [Record.placeBehind, if_pos hsize, ← Draft.account_start]
    have hopen : IsStreaming kept base ⟨record, []⟩ []
        ⟨stream, state.writingAt (.atAddedData ((⟨record, []⟩ : Draft).account offset?))⟩ := by
      refine ⟨⟨offset?, _, state.isOpen_writingAt _, .of_account, hoffset⟩, ?_⟩
      rw [List.append_nil]
      exact hstream
    refine .inside (Draft.fits_start hfits) hsize hopen (List.sublist_nil.mpr hnone) ?_
    rw [hnone]
    rfl
  · rw [Record.placeBehind, if_neg hsize]
    exact .between rfl

namespace Archive

variable [ByteSink σ] [Seekable σ]

/-! ## Starting records -/

/-- The offset of a record, where the stream tells one, is the position it has. -/
theorem outcome_recordOffset (hk : IsFallibleStorage kept) (record : Record) (stream : σ)
    (state : HandleState) :
    Outcome (fun offset? final => final.state = state ∧ kept final.stream = kept stream ∧
        ∀ offset, offset? = some offset → offset = (kept stream).position)
      (fun _ final => final.state = state) (recordOffset record ⟨stream, state⟩) := by
  refine Outcome.bind (outcome_tellStream ((hk.tell stream).mono ?_ ?_))
  · rintro position asked ⟨rfl, hasked⟩
    refine ⟨rfl, hasked, fun offset hoffset => ?_⟩
    cases hoffset
    rfl
  · intro cause asked hasked
    -- A record that will need its position is refused where that is not known.
    dsimp only
    split
    next hneeds => rfl
    next => exact ⟨rfl, hasked, fun offset hoffset => by cases hoffset⟩

/-- A record that fits is put where the stream stands. -/
theorem outcome_emit (hk : IsFallibleStorage kept) {record : Record} (hfits : record.Fits)
    (stream : σ) (state : HandleState) :
    Outcome (fun _ final => final.state = state ∧
        kept final.stream = (kept stream).write record.fixed.toBytes)
      (fun _ final => final.state = state) (emit record.fixed ⟨stream, state⟩) := by
  have hencode : ofResult record.fixed.encode? (⟨stream, state⟩ : Archive σ)
      = .ok record.fixed.toBytes ⟨stream, state⟩ :=
    ofResult_eq_ok.mpr ⟨Record.encode?_eq_ok.mpr ⟨hfits.size_fixed, rfl⟩, rfl⟩
  rw [emit, bind_of_ok hencode]
  refine (outcome_writeStream hk record.fixed.toBytes stream state).mono ?_ ?_
  · rintro _ final ⟨hstate, hfinal⟩
    exact ⟨hstate, hfinal.eq_write (Record.toBytes_ne_nil _)⟩
  · exact fun _ final hfinal => hfinal.2.1

/-- **A record is started** with an account in which nothing is lost, or the handle stays between
two records. -/
theorem outcome_writeRecord (hk : IsFallibleStorage kept) (record : Record) {stream : σ}
    {state : HandleState} (hmode : state.mode = .writing .atRecord) :
    Outcome (fun _ final => IsAccounted kept 0 final) (fun _ final => final.state = state)
      (CallWith.withValue record writeRecord ⟨stream, state⟩) := by
  refine CallWith.outcome_withValue ?_
  have hready : readyForRecord "write_record" (⟨stream, state⟩ : Archive σ)
      = .ok () ⟨stream, state⟩ := readyForRecord_of_atRecord hmode _
  rw [writeRecord, bind_of_ok (lift_eq_ok.mpr ⟨_, hready, rfl⟩)]
  cases hfix : record.fix with
  | error error =>
    rw [bind_of_error (fixValue_of_error hfix _)]
    rfl
  | ok fixed =>
    have hfits := (Record.fix_eq_ok.mp hfix).1
    rw [bind_of_ok (fixValue_of_fits hfits _)]
    refine Outcome.bind (outcome_lift ((outcome_recordOffset hk record.fixed stream state).mono
      ?_ ?_))
    · rintro offset? ⟨asked, state'⟩ ⟨hsame, hasked, hoffset⟩
      obtain rfl : state' = state := hsame
      refine Outcome.bind (outcome_lift ((outcome_emit hk hfits asked state').mono ?_ ?_))
      · rintro _ ⟨middle, state⟩ ⟨hstate, hmiddle⟩
        obtain rfl : state = state' := hstate
        rw [hasked] at hmiddle
        rw [lift_apply, passRecord_apply hmode]
        exact .started hfits hmiddle hoffset
      · exact fun _ final hstate => hstate
    · exact fun _ final hstate => hstate

/-- A record that is written with its whole payload leaves the handle between two records, whether
that fails or not. -/
theorem outcome_writeRecordWithAddedData (hk : IsFallibleStorage kept) (record : Record)
    (payload : List UInt8) {stream : σ} {state : HandleState}
    (hmode : state.mode = .writing .atRecord) :
    Outcome (fun _ final => final.state.mode = .writing .atRecord)
      (fun _ final => final.state = state)
      (CallWith.withValue record (writeRecordWithAddedData payload) ⟨stream, state⟩) := by
  refine CallWith.outcome_withValue ?_
  have hready : readyForRecord "write_record_with_added_data" (⟨stream, state⟩ : Archive σ)
      = .ok () ⟨stream, state⟩ := readyForRecord_of_atRecord hmode _
  rw [writeRecordWithAddedData, bind_of_ok (lift_eq_ok.mpr ⟨_, hready, rfl⟩),
    bind_of_ok (CallWith.value_apply _ _), bind_of_ok (CallWith.setValue_apply _ _ _)]
  cases hfix : (record.announcing payload).fix with
  | error error =>
    rw [bind_of_error (fixValue_of_error hfix _)]
    rfl
  | ok fixed =>
    have hfits := (Record.fix_eq_ok.mp hfix).1
    rw [bind_of_ok (fixValue_of_fits hfits _)]
    refine Outcome.bind (outcome_lift ((outcome_emit hk hfits stream state).mono ?_ ?_))
    · rintro _ ⟨middle, state'⟩ ⟨hstate, -⟩
      obtain rfl : state' = state := hstate
      refine Outcome.bind (outcome_lift ((outcome_writeStream hk payload middle state').mono ?_ ?_))
      · rintro _ ⟨behind, _⟩ -
        rfl
      · exact fun _ final hfinal => hfinal.2.1
    · exact fun _ final hstate => hstate

/-! ## Appending to a payload -/

/-- **A chunk** is counted when all that is accepted of it has been put on the stream. A failure
leaves some of it there, uncounted. -/
theorem outcome_writeAddedData (hk : IsFallibleStorage kept) (hfits : draft.Fits)
    (hsize : draft.record.hasAddedSize = true) (h : IsStreaming kept base draft body handle)
    (chunk : List UInt8) :
    Outcome (fun _ final => (draft.add chunk).Fits ∧
        IsStreaming kept base (draft.add chunk) (body ++ (draft.account none).accept chunk) final)
      (fun _ final => ∃ front, IsStreaming kept base draft (body ++ front) final)
      (writeAddedData chunk handle) := by
  obtain ⟨stream, state⟩ := handle
  obtain ⟨⟨offset?, pending, hopen, hpending, hoffset⟩, hkept⟩ := h
  rw [writeAddedData, bind_of_ok (expectPending_of_isOpen hopen _)]
  refine Outcome.bind (outcome_require (fun hchunk => ?_) fun _ => ?_)
  · have haccept : pending.accept chunk = (draft.account none).accept chunk := hpending.accept chunk
    refine Outcome.bind ((outcome_writeStream hk (pending.accept chunk) stream state).mono ?_ ?_)
    · rintro _ ⟨final, state'⟩ ⟨hstate, hfinal⟩
      obtain rfl : state' = state := hstate
      rw [hkept, haccept] at hfinal
      rw [hpending.fits] at hchunk
      refine ⟨hfits.add hsize hchunk,
        ⟨offset?, _, ⟨hopen.mode, rfl⟩, hpending.add chunk, hoffset⟩, ?_⟩
      rw [← List.append_assoc]
      exact hfinal.eq_write_append
    · rintro error ⟨final, state'⟩ ⟨-, hstate, front, -, hfinal⟩
      obtain rfl : state' = state := hstate
      rw [hkept] at hfinal
      refine ⟨front, ⟨offset?, pending, hopen, hpending, hoffset⟩, ?_⟩
      rw [← List.append_assoc]
      exact hfinal.eq_write_append
  · -- A chunk that does not fit is refused before anything is written.
    refine ⟨[], ⟨offset?, pending, hopen, hpending, hoffset⟩, ?_⟩
    rw [List.append_nil]
    exact hkept

end Archive

/-! ## One call -/

/-- The stream stands behind the record and what lies behind that. -/
theorem Archive.IsStreaming.position_kept (h : IsStreaming kept base draft body handle) :
    (kept handle.stream).position
      = base.position + draft.record.fixed.toBytes.length + body.length := by
  rw [h.kept]
  show base.position + (draft.record.fixed.toBytes ++ body).length = _
  rw [List.length_append, Nat.add_assoc]

namespace IsAccounted

/-- The account says nothing of the rest of the stream, and an attempt to seal keeps it. -/
theorem of_attempted (h : IsAccounted kept lost handle) {final : Archive σ}
    (hstate : handle.state.Attempted final.state) (hkept : kept final.stream = kept handle.stream) :
    IsAccounted kept lost final := by
  cases h with
  | between hmode =>
    obtain ⟨pending?, hpending⟩ := hstate.exists_pending?
    exact .between (by rw [hpending]; exact hmode)
  | inside hfits hsize hstreaming hpayload hlength =>
    obtain ⟨⟨offset?, pending, hopen, hpending, hoffset⟩, hbytes⟩ := hstreaming
    refine .inside hfits hsize ⟨⟨offset?, ?_⟩, hkept.trans hbytes⟩ hpayload hlength
    rcases hstate.isOpen hopen with hopen | hopen
    · exact ⟨pending, hopen, hpending, hoffset⟩
    · exact ⟨_, hopen, hpending.described hsize hfits, hoffset⟩

variable [ByteSink σ] [Seekable σ]

/-- **A further chunk** is counted, or what was put on the stream of it is lost. -/
theorem append (hk : IsFallibleStorage kept) (h : IsAccounted kept lost handle)
    (chunk : List UInt8) :
    Outcome (fun _ final => IsAccounted kept lost final)
      (fun _ final => IsAccounted kept
        (lost + ((kept final.stream).position - (kept handle.stream).position)) final)
      (writeAddedData chunk handle) := by
  cases h with
  | between hmode =>
    -- There is no payload to append to.
    rw [writeAddedData, bind_of_error (expectPending_of_not_isOpen
      (HandleState.not_isOpen_of_atRecord hmode) _)]
    exact .between hmode
  | @inside base draft body hfits hsize hopen hpayload hlength =>
    refine (outcome_writeAddedData hk hfits hsize hopen chunk).mono ?_ ?_
    · rintro _ final ⟨hadded, hfinal⟩
      have hmore := draft.payload_add chunk none
      refine .inside hadded hsize hfinal ?_ ?_
      · rw [hmore]
        exact hpayload.append (List.Sublist.refl _)
      · rw [hmore, List.length_append, List.length_append]
        omega
    · rintro error final ⟨front, hfinal⟩
      have hbefore := hopen.position_kept
      have hafter := hfinal.position_kept
      rw [List.length_append] at hafter
      refine .inside hfits hsize hfinal ?_ ?_
      · exact hpayload.trans (List.sublist_append_left body front)
      · rw [List.length_append]
        omega

/-- A call that seals first does from inside a payload what it does between two records, unless
the seal fails. -/
theorem sealing (hk : IsFallibleStorage kept) (h : IsAccounted kept lost handle)
    (call : SealingCall) {ok : Unit → Archive σ → Prop}
    (hbetween : ∀ stream state, state.mode = .writing .atRecord →
      Outcome ok (fun _ final => final.state = state) (call.run ⟨stream, state⟩)) :
    Outcome ok
      (fun _ final => handle.state.Attempted final.state ∨ final.state.mode = .writing .atRecord)
      (call.run handle) := by
  cases h with
  | between hmode =>
    exact (hbetween handle.stream handle.state hmode).mono (fun _ _ hfinal => hfinal)
      fun _ _ hstate => .inl (.inl hstate)
  | inside hfits hsize hstreaming hpayload hlength =>
    obtain ⟨offset?, pending, hopen, -, -⟩ := hstreaming.account
    have hseal := finishAddedData_outcome hk hfits hsize (hstreaming.isUnsealed hsize)
    cases hrun : finishAddedData handle with
    | ok _ sealed =>
      have hmode : sealed.state.mode = .writing .atRecord := by
        rw [(hseal.of_ok hrun).1]
      rw [call.run_of_finishAddedData hopen hrun hmode]
      refine (hbetween sealed.stream sealed.state hmode).mono (fun _ _ hfinal => hfinal) ?_
      exact fun _ final hfinal => .inr (hfinal ▸ hmode)
    | error error failed =>
      rw [call.run_of_finishAddedData_error hopen hrun]
      exact .inl (hseal.of_error hrun).2.1

/-- **Every other call** keeps the account of an open payload, or begins a new one. If it fails it
leaves the state of the handle, but for an attempt to seal, or has sealed the payload in front of the
record that it should have started. -/
theorem run (hk : IsFallibleStorage kept) (h : IsAccounted kept lost handle) (call : WriterCall)
    (hcall : ∀ chunk, call ≠ .append chunk) :
    Outcome
      (fun _ final => IsAccounted kept (if call.startsRecord then 0 else lost) final)
      (fun _ final => handle.state.Attempted final.state ∨ final.state.mode = .writing .atRecord)
      (call.run handle) := by
  have hstart (record : Record) := h.sealing hk (.start record)
    fun stream state hmode => outcome_writeRecord hk record hmode
  cases call with
  | start record => exact hstart record
  | startStreamed record =>
    by_cases hsize : record.hasAddedSize = true
    · have hsame : WriterCall.run (.startStreamed record) handle
          = SealingCall.run (.start record) handle := by
        show CallWith.withValue record startStreamedRecord handle
          = CallWith.withValue record writeRecord handle
        unfold CallWith.withValue
        rw [startStreamedRecord_of_hasAddedSize hsize]
      rw [hsame]
      exact hstart record
    · have hrefused : WriterCall.run (.startStreamed record) handle
          = .error (.invalidParameter .missingAddedSize) handle :=
        CallWith.withValue_of_error (startStreamedRecord_of_not_hasAddedSize hsize handle)
      rw [hrefused]
      exact .inl (.refl _)
  | whole record payload =>
    refine (h.sealing hk (.whole record payload.bytes) fun stream state hmode =>
      outcome_writeRecordWithAddedData hk record payload.bytes hmode).mono ?_ ?_
    · exact fun _ final hmode => .between hmode
    · exact fun _ final hfinal => hfinal
  | append chunk => exact absurd rfl (hcall chunk)
  | finish =>
    cases h with
    | between hmode =>
      show Outcome _ _ (finishAddedData handle)
      rw [finishAddedData, bind_of_error (expectPending_of_not_isOpen
        (HandleState.not_isOpen_of_atRecord hmode) _)]
      exact .inl (.refl _)
    | inside hfits hsize hopen hpayload hlength =>
      refine (finishAddedData_outcome hk hfits hsize (hopen.isUnsealed hsize)).mono ?_ ?_
      · rintro _ final ⟨hstate, -⟩
        exact .between (by rw [hstate])
      · exact fun _ final hfinal => .inl hfinal.2.1
  | flush =>
    refine (outcome_flushStream hk handle.stream handle.state).mono ?_ ?_
    · exact fun _ final hfinal => h.of_attempted (.inl hfinal.1) hfinal.2
    · exact fun _ final hfinal => .inl (.inl hfinal.2.1)

end IsAccounted

/-! ## Calls in a row -/

section Run

variable [ByteSink σ] [Seekable σ]

/-- **A run of writer calls** in which calls may fail, with the bytes that failed ones have left
behind the record that is open. Seals that fail after they have touched the stream are left out:
the payload stays open then and is sealed again from another place. -/
inductive WriterRun (kept : σ → MemoryStream) (start : Archive σ) : Nat → Archive σ → Prop
  | nil : WriterRun kept start 0 start
  /-- A call succeeds. -/
  | accepted {lost : Nat} {middle final : Archive σ} {call : WriterCall}
    (h : WriterRun kept start lost middle) (hrun : call.run middle = .ok () final) :
    WriterRun kept start (if call.startsRecord then 0 else lost) final
  /-- A call fails. -/
  | refused {lost : Nat} {middle final : Archive σ} {call : WriterCall} {error : ArchiveError}
    (h : WriterRun kept start lost middle) (hrun : call.run middle = .error error final)
    (huntouched : (∃ chunk, call = .append chunk) ∨ final.state.mode ≠ .writing .atAddedData ∨
      kept final.stream = kept middle.stream) :
    WriterRun kept start
      (lost + ((kept final.stream).position - (kept middle.stream).position)) final

/-- **Every run** keeps the account of the payload that is open, but for the lost bytes. -/
theorem WriterRun.isAccounted (hk : IsFallibleStorage kept) {start : Archive σ}
    (hstart : start.state.mode = .writing .atRecord) (h : WriterRun kept start lost handle) :
    IsAccounted kept lost handle := by
  induction h with
  | nil => exact .between hstart
  | @accepted lost middle final call _ hrun ih =>
    by_cases happend : ∃ chunk, call = .append chunk
    · obtain ⟨chunk, rfl⟩ := happend
      exact (ih.append hk chunk).of_ok hrun
    · exact (ih.run hk call (not_exists.mp happend)).of_ok hrun
  | @refused lost middle final call error _ hrun huntouched ih =>
    by_cases happend : ∃ chunk, call = .append chunk
    · obtain ⟨chunk, rfl⟩ := happend
      exact (ih.append hk chunk).of_error hrun
    · rcases (ih.run hk call (not_exists.mp happend)).of_error hrun with hstate | hmode
      · -- The payload is open as it was before, so the call has not touched the stream.
        rcases huntouched.resolve_left happend with hleft | hkept
        · cases ih with
          | between hmode =>
            obtain ⟨pending?, hpending⟩ := hstate.exists_pending?
            exact .between (by rw [hpending]; exact hmode)
          | inside hfits hsize hstreaming hpayload hlength =>
            obtain ⟨offset?, pending, hopen, -, -⟩ := hstreaming.account
            rcases hstate.isOpen hopen with hopen | hopen
            · exact absurd hopen.mode hleft
            · exact absurd hopen.mode hleft
        · rw [hkept, Nat.sub_self, Nat.add_zero]
          exact ih.of_attempted hstate hkept
      · exact .between hmode

/-- **The account and the stream**: in every run of writer calls that may fail, the stream stands
behind the record that is open, the bytes that are counted and the lost ones, and the bytes that
are counted are among those behind the record. The seal, by itself or by a call that seals first,
leaves in front of all of them the header that describes the counted ones, so that the record
describes what stands behind it exactly if no byte was lost. -/
theorem WriterRun.position_eq (hk : IsFallibleStorage kept) {start : Archive σ}
    (hstart : start.state.mode = .writing .atRecord) (h : WriterRun kept start lost handle)
    {pending : PendingPayload} (hopen : handle.state.IsOpen pending) :
    ∃ (base : MemoryStream) (draft : Draft) (body : List UInt8),
      draft.IsKeptAs pending.offset? pending ∧
      (∀ offset, pending.offset? = some offset → offset = base.position) ∧
      kept handle.stream = base.write (draft.record.fixed.toBytes ++ body) ∧
      (kept handle.stream).position
        = base.position + draft.record.fixed.toBytes.length + pending.written + lost ∧
      draft.payload.Sublist body ∧
      ∀ sealed, finishAddedData handle = .ok () sealed →
        kept sealed.stream = base.write (draft.sealedBytes ++ body) ∧
        draft.segment.IsComplete ∧
        ((⟨draft.record.describing draft.payload, body⟩ : Segment).IsComplete ↔ lost = 0) ∧
        ∀ call : SealingCall, call.run handle = call.run sealed := by
  cases h.isAccounted hk hstart with
  | between hmode => cases hmode.symm.trans hopen.mode
  | @inside base draft body hfits hsize hstreaming hpayload hlength =>
    obtain ⟨offset?, found, hfound, hpending, hoffset⟩ := hstreaming.account
    obtain rfl := hopen.unique hfound
    have hknown : pending.offset? = offset? := by
      rw [hpending.account]
      rfl
    have hwritten : pending.written = draft.payload.length := by
      rw [hpending.account]
      rfl
    have hposition := hstreaming.position_kept
    rw [hknown]
    refine ⟨base, draft, body, hpending, hoffset, hstreaming.kept, ?_, hpayload, fun sealed hrun => ?_⟩
    · rw [hwritten]
      omega
    · obtain ⟨hstate, hsealed⟩ :=
        (finishAddedData_outcome hk hfits hsize (hstreaming.isUnsealed hsize)).of_ok hrun
      refine ⟨?_, hfits.isComplete, ⟨fun hcomplete => ?_, fun hnone => ?_⟩, fun call => ?_⟩
      · rw [hsealed, hposition, ← draft.length_sealedBytes, Nat.add_assoc, ← List.length_append]
        exact MemoryStream.movedTo_write _ _
      · -- The size in the header is that of the payload, which is shorter by the lost bytes.
        have hpresent : (draft.record.describing draft.payload).hasAddedSize = true := by
          rw [Record.describing_of_hasAddedSize hsize]
          exact hsize
        have hbody := hcomplete.length hpresent
        have hcounted := hfits.isComplete.length hpresent
        have hsame : body.length = draft.payload.length := hbody.symm.trans hcounted
        omega
      · have hsame : draft.payload = body := hpayload.eq_of_length (by omega)
        rw [← hsame]
        exact hfits.isComplete
      · exact call.run_of_finishAddedData hopen hrun (by rw [hstate])

end Run

/-! ### A stream with little room -/

/-- A writer behind the marker, on a stream that cannot be written to from the byte with the
number 18 on. -/
def cramped : Recording FaultyStream :=
  ⟨⟨⟨({} : MemoryStream).write Marker.bytes, { writeFailAt? := some 18 }⟩,
    { mode := .writing .atRecord }⟩, []⟩

/-- The writer inside a payload for which the stream has room for two bytes. -/
def insideCramped : Recording FaultyStream := cramped.perform (.start unsized)

/-- The writer after it could only write two of four bytes. -/
def behindCramped : Recording FaultyStream := insideCramped.perform (.append [1, 2, 3, 4])

/-- The record is started while there is room for it. -/
theorem run_start_cramped :
    WriterCall.run (.start unsized) cramped.handle = .ok () insideCramped.handle := by
  cbv

/-- Of the chunk only two bytes have room. -/
theorem run_append_cramped : WriterCall.run (.append [1, 2, 3, 4]) insideCramped.handle
    = .error (.write (.worded .other "write fault")) behindCramped.handle := by
  cbv

/-- The payload can be finished behind the failure. -/
theorem finishAddedData_cramped :
    finishAddedData behindCramped.handle = .ok () (behindCramped.perform .finish).handle := by
  cbv

/-- Two bytes are on the stream that are not counted. -/
theorem lost_cramped : 0 + (behindCramped.handle.stream.memory.position
    - insideCramped.handle.stream.memory.position) = 2 := by
  cbv

/-- The run ends two bytes behind what is counted. -/
theorem writerRun_cramped :
    WriterRun FaultyStream.memory cramped.handle 2 behindCramped.handle := by
  have hinside : WriterRun FaultyStream.memory cramped.handle 0 insideCramped.handle :=
    WriterRun.nil.accepted run_start_cramped
  have hbehind := hinside.refused run_append_cramped (.inl ⟨_, rfl⟩)
  rwa [lost_cramped] at hbehind

/-- Two bytes are lost there: the record that is sealed does not describe what stands behind it. -/
theorem WriterRun.position_eq_cramped : ∃ pending sealed,
    cramped.handle.state.mode = .writing .atRecord ∧
      WriterRun FaultyStream.memory cramped.handle 2 behindCramped.handle ∧
      behindCramped.handle.state.IsOpen pending ∧
      finishAddedData behindCramped.handle = .ok () sealed ∧
      ∃ (base : MemoryStream) (draft : Draft) (body : List UInt8),
        sealed.stream.memory = base.write (draft.sealedBytes ++ body) ∧
        ¬ (⟨draft.record.describing draft.payload, body⟩ : Segment).IsComplete := by
  have hopen : behindCramped.handle.state.IsOpen ((⟨unsized, []⟩ : Draft).account (some 6)) :=
    ⟨by cbv, by cbv⟩
  obtain ⟨base, draft, body, -, -, -, -, -, hsealed⟩ :=
    WriterRun.position_eq FaultyStream.isFallibleStorage rfl writerRun_cramped hopen
  obtain ⟨hstream, -, hcomplete, -⟩ := hsealed _ finishAddedData_cramped
  refine ⟨_, _, rfl, writerRun_cramped, hopen, finishAddedData_cramped, base, draft, body, hstream,
    fun h => ?_⟩
  cases hcomplete.mp h

/-- **Bytes that are not counted**: of four bytes two are written before the stream fails. The
account of the payload still says zero, and the record that is sealed then says so too, in front
of the two bytes. -/
theorem writeAddedData_uncounted : ∃ failed sealed,
    writeAddedData [1, 2, 3, 4] insideCramped.handle
        = .error (.write (.worded .other "write fault")) failed ∧
      failed.pending?.map PendingPayload.written = some 0 ∧
      failed.stream.memory.position = 18 ∧
      finishAddedData failed = .ok () sealed ∧
      sealed.stream.memory.position = 18 ∧
      sealed.stream.memory.toList
        = Marker.bytes ++ (⟨unsized, []⟩ : Draft).segment.toBytes ++ [1, 2] := by
  refine ⟨behindCramped.handle, (behindCramped.perform .finish).handle, run_append_cramped, ?_, ?_,
    finishAddedData_cramped, ?_, ?_⟩
  all_goals cbv

end RecordArchive
