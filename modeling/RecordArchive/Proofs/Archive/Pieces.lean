import RecordArchive.Proofs.Archive.WritingEffects

/-! # Payloads in pieces and at once

A writer that knows the whole payload writes a header that describes it. A writer that does not know
it writes a preliminary header, appends the payload piece by piece and seals it. Either way the same
bytes stand on the stream in the end.

* `Draft.toBytes_whole_payload`: the header that sealing leaves is the one that a known payload gets,
  if the size field is four bytes wide either way.
* `Archive.forM_writeAddedData`: the pieces add up to the payload, cut to the announced size.
* `Archive.writeInPieces_eq_whole`: on a stream in memory both ways give the same result.
* `Archive.agree_inPieces_whole`: so they do on any infallible seekable stream. -/

namespace RecordArchive

open Program Call

variable {σ : Type}

/-! ## Drafts -/

/-- Flags that select a size of four bytes stay as they are when they are told to. -/
theorem RecordFlags.announce_narrow (flags : UInt8) (h : SizeWidth.ofFlags flags = .four) :
    flags &&& ~~~sizeMask ||| narrowSize = flags := by
  revert flags
  apply forall_of_fin
  decide +kernel

namespace Record

/-- A record with a size field of four bytes announces a payload of such a size by the values of its
fields alone. -/
theorem announcing_of_narrow {record : Record} (hwidth : record.sizeWidth = .four)
    {payload : List UInt8} (hne : payload ≠ []) (hlength : payload.length ≤ narrowPayloadMax) :
    record.announcing payload =
      { record with
        addedSize := UInt64.ofNat payload.length
        addedCrc := if record.hasAddedCrc then crc32c 0 payload else record.addedCrc } := by
  rw [announcing_of_ne_nil hne, if_neg (Nat.not_lt.mpr hlength),
    RecordFlags.announce_narrow record.flags hwidth]

/-- A record whose payload size fits its field is fixed unless it is too long. -/
theorem fix_of_le {record : Record} (h : record.addedSize.toNat ≤ record.sizeWidth.maxValue) :
    record.fix = if 65535 < record.encodedLength then
        .error (.invalidParameter (.recordTooLong record.encodedLength))
      else .ok record.fixed := by
  rw [fix, fixInPlace_apply, if_neg fun hlarge => Nat.not_lt.mpr h hlarge.2]
  by_cases hlength : 65535 < record.encodedLength
  · rw [if_pos hlength, if_pos hlength]
  · rw [if_neg hlength, if_neg hlength]

end Record

namespace Draft

/-- **The header that sealing leaves** is the one that the payload gets when it is known at once. -/
theorem toBytes_whole_payload (draft : Draft) (hwidth : draft.record.sizeWidth = .four)
    (hne : draft.payload ≠ []) (hlength : draft.payload.length ≤ Record.narrowPayloadMax) :
    (whole draft.record draft.payload).segment.toBytes = draft.segment.toBytes := by
  have hbounded : draft.payload.length < UInt64.size :=
    Nat.lt_of_le_of_lt hlength (by decide)
  have hsize : draft.record.hasAddedSize = true := by
    rw [Record.hasAddedSize, hwidth]
    rfl
  rw [toBytes_whole hbounded, Record.announcing_of_narrow hwidth hne hlength, Segment.toBytes,
    segment, Record.describing_of_hasAddedSize hsize]
  by_cases hcrc : draft.record.hasAddedCrc = true
  · rw [if_pos hcrc, if_pos hcrc]
  · -- Without room for a checksum it does not matter which one the record holds.
    have habsent : ({ draft.record with addedSize := UInt64.ofNat draft.payload.length } :
        Record).hasAddedCrc = false := Bool.not_eq_true _ ▸ hcrc
    rw [if_neg hcrc, if_neg hcrc]
    exact congrArg (· ++ draft.payload) (Record.toBytes_fixed_of_not_hasAddedCrc habsent 0).symm

/-- Each chunk of a draft that fits has fitted behind those in front of it. -/
theorem Fits.fits_chunk {record : Record} {done later : List (List UInt8)} {chunk : List UInt8}
    (h : (⟨record, done ++ chunk :: later⟩ : Draft).Fits) (offset? : Option Nat) :
    ((⟨record, done⟩ : Draft).account offset?).fits chunk = true := by
  rw [PendingPayload.fits, Bool.or_eq_true, decide_eq_true_eq, decide_eq_true_eq]
  by_cases hdeclared : 0 < record.addedSize.toNat
  · exact .inl hdeclared
  · -- Nothing is cut, so the chunks in front count for all of their bytes.
    have hall : (⟨record, done ++ chunk :: later⟩ : Draft).payload.length
        ≤ record.sizeWidth.maxValue := h.length
    refine .inr (show (⟨record, done⟩ : Draft).payload.length + chunk.length
      ≤ record.sizeWidth.maxValue from ?_)
    rw [payload, if_neg hdeclared, List.flatten_append, List.flatten_cons, List.length_append,
      List.length_append] at hall
    rw [payload, if_neg hdeclared]
    show done.flatten.length + chunk.length ≤ _
    omega

end Draft

namespace Archive

/-! ## Programs -/

/-- How a record is started whose payload follows in pieces. -/
inductive Opening
  /-- As any record. -/
  | plain
  /-- As one that has to announce a payload. -/
  | streamed

/-- The call that starts the record of the caller. -/
def Opening.call [ByteSink σ] [Seekable σ] : Opening → CallWith Record σ Unit
  | .plain => writeRecord
  | .streamed => startStreamedRecord

/-- Starts a record, writes its payload in pieces and seals it. -/
def writeInPieces [ByteSink σ] [Seekable σ] (opening : Opening) (record : Record)
    (chunks : List (List UInt8)) : Call σ Unit := do
  CallWith.withValue record opening.call
  chunks.forM writeAddedData
  finishAddedData

/-- A record with room for a payload size is started the same way by either call. -/
theorem Opening.withValue_call [ByteSink σ] [Seekable σ] {record : Record}
    (hsize : record.hasAddedSize = true) (opening : Opening) (handle : Archive σ) :
    CallWith.withValue record opening.call handle = CallWith.withValue record writeRecord handle := by
  cases opening with
  | plain => rfl
  | streamed =>
    unfold CallWith.withValue
    rw [Opening.call, startStreamedRecord_of_hasAddedSize hsize]

/-! ## In memory -/

variable {base memory : MemoryStream} {front : List UInt8} {state : HandleState} {record : Record}

/-- **The pieces of a payload** are added to the draft one after another. -/
theorem forM_writeAddedData {done chunks : List (List UInt8)}
    (h : (⟨record, done ++ chunks⟩ : Draft).Fits) :
    chunks.forM writeAddedData (insidePayload base front ⟨record, done⟩ state)
      = .ok () (insidePayload base front ⟨record, done ++ chunks⟩ state) := by
  induction chunks generalizing done with
  | nil =>
    rw [List.append_nil]
    rfl
  | cons chunk chunks ih =>
    have hwrite := @writeAddedData_insidePayload base front ⟨record, done⟩ state chunk
    rw [if_pos (h.fits_chunk _)] at hwrite
    have hsplit : done ++ chunk :: chunks = done ++ [chunk] ++ chunks := by
      rw [List.append_assoc, List.singleton_append]
    rw [hsplit] at h ⊢
    exact (bind_of_ok hwrite).trans (ih h)

/-- A writer between two records of which the position is not looked at. -/
theorem emit_fixed_apply (hfits : record.Fits) (memory : MemoryStream) (state : HandleState) :
    emit record.fixed ⟨memory, state⟩ = .ok () ⟨memory.write record.fixed.toBytes, state⟩ := by
  have hencode : ofResult record.fixed.encode? ⟨memory, state⟩
      = .ok record.fixed.toBytes ⟨memory, state⟩ :=
    ofResult_eq_ok.mpr ⟨Record.encode?_eq_ok.mpr ⟨hfits.size_fixed, rfl⟩, rfl⟩
  rw [emit, bind_of_ok hencode]
  exact writeStream_of_ne_nil record.fixed.toBytes_ne_nil memory state

/-- A record with room for a payload size opens a draft behind whatever the stream holds. -/
theorem writeRecord_atRecord (hmode : state.mode = .writing .atRecord) (hfits : record.Fits)
    (hsize : record.hasAddedSize = true) :
    CallWith.withValue record writeRecord ⟨memory, state⟩
      = .ok () (insidePayload memory [] ⟨record, []⟩ state) := by
  have hready : readyForRecord "write_record" (⟨memory, state⟩ : Archive MemoryStream)
      = .ok () ⟨memory, state⟩ := readyForRecord_of_atRecord hmode _
  have hoffset : recordOffset record.fixed (⟨memory, state⟩ : Archive MemoryStream)
      = .ok (some memory.position) ⟨memory, state⟩ := rfl
  have hplace : record.fixed.placeBehind (some memory.position)
      = .atAddedData (.start record.fixed (some memory.position)) := if_pos hsize
  have hrun : writeRecord (record, (⟨memory, state⟩ : Archive MemoryStream))
      = .ok () (record.fixed, insidePayload memory [] ⟨record, []⟩ state) := by
    rw [writeRecord, bind_of_ok (lift_eq_ok.mpr ⟨_, hready, rfl⟩),
      bind_of_ok (fixValue_of_fits hfits _), bind_of_ok (lift_eq_ok.mpr ⟨_, hoffset, rfl⟩),
      bind_of_ok (lift_eq_ok.mpr ⟨_, emit_fixed_apply hfits memory state, rfl⟩), lift_apply,
      passRecord_apply hmode, hplace, insidePayload, Draft.payload_start, Draft.account_start,
      List.append_nil]
    rfl
  exact CallWith.withValue_of_ok hrun

/-- A record with its whole payload is put behind whatever the stream holds. -/
theorem writeRecordWithAddedData_atRecord (hmode : state.mode = .writing .atRecord)
    {payload : List UInt8} (hlength : payload.length < UInt64.size)
    (hfits : (record.announcing payload).Fits) :
    CallWith.withValue record (writeRecordWithAddedData payload) ⟨memory, state⟩
      = .ok () ⟨memory.write (Draft.whole record payload).segment.toBytes, state⟩ := by
  have hready : readyForRecord "write_record_with_added_data" (⟨memory, state⟩ : Archive MemoryStream)
      = .ok () ⟨memory, state⟩ := readyForRecord_of_atRecord hmode _
  have hpayload := writeStream_write payload (record.announcing payload).fixed.toBytes memory state
  have hrun : writeRecordWithAddedData payload (record, (⟨memory, state⟩ : Archive MemoryStream))
      = .ok () ((record.announcing payload).fixed,
          ⟨memory.write (Draft.whole record payload).segment.toBytes, state⟩) := by
    rw [writeRecordWithAddedData, bind_of_ok (lift_eq_ok.mpr ⟨_, hready, rfl⟩),
      bind_of_ok (CallWith.value_apply _ _), bind_of_ok (CallWith.setValue_apply _ _ _),
      bind_of_ok (fixValue_of_fits hfits _),
      bind_of_ok (lift_eq_ok.mpr ⟨_, emit_fixed_apply hfits memory state, rfl⟩),
      bind_of_ok (lift_eq_ok.mpr ⟨_, hpayload, rfl⟩), lift_apply, setMode_apply, ← hmode,
      Draft.toBytes_whole hlength]
  exact CallWith.withValue_of_ok hrun

/-- What the pieces of a payload are to a record that gives their number in four bytes: some bytes of
payload, and not more than such a record is used for. -/
structure IsNarrow (record : Record) (chunks : List (List UInt8)) : Prop where
  width : record.sizeWidth = .four
  declared : record.addedSize.toNat < UInt32.size
  ne_nil : (⟨record, chunks⟩ : Draft).payload ≠ []
  length : (⟨record, chunks⟩ : Draft).payload.length ≤ Record.narrowPayloadMax

/-- A record in pieces has a payload. -/
theorem IsNarrow.hasAddedSize {chunks : List (List UInt8)} (h : IsNarrow record chunks) :
    record.hasAddedSize = true := by
  rw [Record.hasAddedSize, h.width]
  rfl

/-- Between two records both ways put the same bytes on the stream, unless the record is too long. -/
theorem inPieces_atRecord (memory : MemoryStream) (hmode : state.mode = .writing .atRecord)
    (hpending : state.pending? = none) (opening : Opening) {chunks : List (List UInt8)}
    (h : IsNarrow record chunks) :
    writeInPieces opening record chunks ⟨memory, state⟩
        = (if 65535 < record.encodedLength then
            .error (.invalidParameter (.recordTooLong record.encodedLength)) ⟨memory, state⟩
          else .ok () (betweenRecords memory (⟨record, chunks⟩ : Draft).segment.toBytes state)) ∧
      CallWith.withValue record (writeRecordWithAddedData (⟨record, chunks⟩ : Draft).payload)
          ⟨memory, state⟩
        = (if 65535 < record.encodedLength then
            .error (.invalidParameter (.recordTooLong record.encodedLength)) ⟨memory, state⟩
          else .ok () (betweenRecords memory (⟨record, chunks⟩ : Draft).segment.toBytes state)) := by
  obtain ⟨hwidth, hdeclared, hne, hlength⟩ := h
  have hsize : record.hasAddedSize = true := by
    rw [Record.hasAddedSize, hwidth]
    rfl
  have hroom : record.addedSize.toNat ≤ record.sizeWidth.maxValue := by
    rw [hwidth]
    exact Nat.le_sub_one_of_lt hdeclared
  have hready (name : String) : readyForRecord name (⟨memory, state⟩ : Archive MemoryStream)
      = .ok () ⟨memory, state⟩ := readyForRecord_of_atRecord hmode name
  obtain ⟨payload, hpayload⟩ : ∃ payload, (⟨record, chunks⟩ : Draft).payload = payload := ⟨_, rfl⟩
  have hwhole := Draft.toBytes_whole_payload ⟨record, chunks⟩ hwidth hne hlength
  rw [hpayload] at hne hlength hwhole ⊢
  have hbounded : payload.length < UInt64.size := Nat.lt_of_le_of_lt hlength (by decide)
  -- the header of the known payload is as long as the preliminary one, and its size fits as well
  have hannounced := Record.announcing_of_narrow hwidth hne hlength
  have hsame : (record.announcing payload).encodedLength = record.encodedLength := by
    rw [hannounced]
    rfl
  have hroom' : (record.announcing payload).addedSize.toNat
      ≤ (record.announcing payload).sizeWidth.maxValue := by
    have hvalue : (record.announcing payload).addedSize.toNat = payload.length := by
      rw [hannounced]
      exact UInt64.toNat_ofNat_of_lt' hbounded
    rw [hvalue]
    exact (record.sizeWidth_announcing hne hbounded).2
  have hfix := Record.fix_of_le hroom
  have hfix' := Record.fix_of_le hroom'
  rw [hsame] at hfix'
  rw [writeInPieces]
  by_cases hlarge : 65535 < record.encodedLength
  · rw [if_pos hlarge] at hfix hfix' ⊢
    have hstart := (opening.withValue_call hsize (⟨memory, state⟩ : Archive MemoryStream)).trans
      (CallWith.withValue_of_error (writeRecord_of_error (hready _) hfix))
    exact ⟨bind_of_error hstart,
      CallWith.withValue_of_error (writeRecordWithAddedData_of_error (hready _) hfix')⟩
  · rw [if_neg hlarge] at hfix hfix' ⊢
    have hfits : record.Fits := (Record.fix_eq_ok.mp hfix).1
    have hdraft : (⟨record, [] ++ chunks⟩ : Draft).Fits := by
      refine ⟨hfits, ?_⟩
      show (⟨record, chunks⟩ : Draft).payload.length ≤ record.sizeWidth.maxValue
      rw [hpayload, hwidth]
      exact Nat.le_trans hlength (by decide)
    have hstart := (opening.withValue_call hsize (⟨memory, state⟩ : Archive MemoryStream)).trans
      (writeRecord_atRecord hmode hfits hsize)
    refine ⟨?_, ?_⟩
    · rw [bind_of_ok hstart, bind_of_ok (forM_writeAddedData hdraft)]
      exact finishAddedData_insidePayload hdraft hsize
    · rw [writeRecordWithAddedData_atRecord hmode hbounded (Record.fix_eq_ok.mp hfix').1, hwhole,
        betweenRecords, ← hmode, ← hpending]

/-! ## From any place where a record can start -/

section Ready

variable [ByteSink σ] [Seekable σ] {handle middle : Archive σ}

/-- A handle that is ready stands between two records. -/
theorem mode_of_readyForRecord {name : String} (h : readyForRecord name handle = .ok () middle) :
    middle.state.mode = .writing .atRecord := by
  rw [((effect_readyForRecord name handle).of_ok h).2.1]
  rfl

/-- Where a record can start, nothing is kept of a payload in front. -/
theorem pending?_of_readyForRecord {name : String} (hkeeps : handle.state.KeepsPending)
    (h : readyForRecord name handle = .ok () middle) : middle.state.pending? = none := by
  rw [((effect_readyForRecord name handle).of_ok h).2.1]
  exact (hkeeps.writingAt .atRecord).pending?_eq_none nofun

/-- Where a record can start, it starts in the same way for every call. -/
theorem readyForRecord_of_isReady (h : IsReady handle) (name name' : String) :
    readyForRecord name handle = readyForRecord name' handle := by
  rcases h with hmode | ⟨pending, hopen⟩
  · rw [readyForRecord_of_atRecord hmode, readyForRecord_of_atRecord hmode]
  · rw [readyForRecord_of_isOpen hopen, readyForRecord_of_isOpen hopen]

/-- A call that starts a record goes on as from behind the payload that it has sealed. -/
theorem withValue_readyForRecord {name : String} (h : readyForRecord name handle = .ok () middle)
    (record : Record) (next : Unit → CallWith Record σ Unit) :
    CallWith.withValue record (Call.lift (readyForRecord name) >>= next) handle
      = CallWith.withValue record (Call.lift (readyForRecord name) >>= next) middle := by
  have hagain : readyForRecord name middle = .ok () middle :=
    readyForRecord_of_atRecord (mode_of_readyForRecord h) name
  unfold CallWith.withValue
  rw [bind_of_ok (lift_eq_ok.mpr ⟨_, h, rfl⟩), bind_of_ok (lift_eq_ok.mpr ⟨_, hagain, rfl⟩)]

/-- A call that starts a record fails if the payload in front of it cannot be sealed. -/
theorem withValue_readyForRecord_error {name : String} {error : ArchiveError}
    (h : readyForRecord name handle = .error error middle) (record : Record)
    (next : Unit → CallWith Record σ Unit) :
    CallWith.withValue record (Call.lift (readyForRecord name) >>= next) handle
      = .error error middle :=
  CallWith.withValue_of_error (bind_of_error (lift_of_error h))

end Ready

/-- **Both ways are one** on a stream in memory: wherever a record can start, they give the same
result, whether that is a success or a failure. -/
theorem writeInPieces_eq_whole {handle : Archive MemoryStream} (hready : IsReady handle)
    (hkeeps : handle.state.KeepsPending) (opening : Opening) {chunks : List (List UInt8)}
    (h : IsNarrow record chunks) :
    writeInPieces opening record chunks handle = CallWith.withValue record
        (writeRecordWithAddedData (⟨record, chunks⟩ : Draft).payload) handle ∧
      ∀ middle, readyForRecord "write_record" handle = .ok () middle →
        ((∃ final, writeInPieces opening record chunks handle = .ok () final) ↔
          record.encodedLength ≤ 65535) := by
  have hcall := readyForRecord_of_isReady hready "write_record_with_added_data" "write_record"
  rcases hrun : readyForRecord "write_record" handle with ⟨_, ⟨memory, state⟩⟩ | ⟨error, middle⟩
  · -- behind the payload in front of the record, if there is one, it is the same for both
    have hpieces : writeInPieces opening record chunks handle
        = writeInPieces opening record chunks ⟨memory, state⟩ := by
      have hstart : CallWith.withValue record writeRecord handle
          = CallWith.withValue record writeRecord ⟨memory, state⟩ :=
        withValue_readyForRecord hrun record _
      rw [writeInPieces, bind_apply, bind_apply, opening.withValue_call h.hasAddedSize,
        opening.withValue_call h.hasAddedSize, hstart]
    have hwhole : CallWith.withValue record (writeRecordWithAddedData
          (⟨record, chunks⟩ : Draft).payload) handle = CallWith.withValue record
          (writeRecordWithAddedData (⟨record, chunks⟩ : Draft).payload) ⟨memory, state⟩ :=
      withValue_readyForRecord (hcall.trans hrun) record _
    obtain ⟨hfirst, hsecond⟩ := inPieces_atRecord memory (mode_of_readyForRecord hrun)
      (pending?_of_readyForRecord hkeeps hrun) opening h
    refine ⟨by rw [hpieces, hwhole, hfirst, hsecond], fun _ _ => ?_⟩
    rw [hpieces, hfirst]
    by_cases hlarge : 65535 < record.encodedLength
    · rw [if_pos hlarge]
      constructor
      · rintro ⟨final, hfinal⟩
        cases hfinal
      · exact fun hle => absurd hle (Nat.not_le.mpr hlarge)
    · rw [if_neg hlarge]
      exact ⟨fun _ => Nat.le_of_not_lt hlarge, fun _ => ⟨_, rfl⟩⟩
  · have hstart : CallWith.withValue record writeRecord handle = .error error middle :=
      withValue_readyForRecord_error hrun record _
    have hwhole : CallWith.withValue record (writeRecordWithAddedData
        (⟨record, chunks⟩ : Draft).payload) handle = .error error middle :=
      withValue_readyForRecord_error (hcall.trans hrun) record _
    constructor
    · rw [hwhole]
      exact bind_of_error ((opening.withValue_call h.hasAddedSize handle).trans hstart)
    · intro _ hok
      cases hok

/-! ## On any storage -/

variable [ByteSink σ] [Seekable σ] {keeps : σ → MemoryStream → Prop}

/-- **A record in pieces** is the same on any storage as in memory. -/
theorem simulates_writeInPieces (hk : IsStorage keeps) (opening : Opening) (record : Record)
    (chunks : List (List UInt8)) : Simulates (Related keeps) (writeInPieces opening record chunks)
      (writeInPieces opening record chunks) := by
  have hopening : Simulates (Paired Eq keeps) opening.call opening.call := by
    cases opening with
    | plain => exact simulates_writeRecord hk.writesAlike
    | streamed => exact simulates_startStreamedRecord hk.writesAlike
  exact (CallWith.simulates_withValue record hopening).bind fun _ =>
    (Simulates.forM (simulates_writeAddedData hk.writesAlike) chunks).bind fun _ =>
    simulates_finishAddedData hk.writesAlike

/-- **A payload in pieces is a payload at once.** Let a record have a size field of four bytes, and let
the pieces in a row, cut to the announced size if there is one, be some bytes of payload, at most
`0x7FFFFFFF` of them. On any infallible seekable stream, and wherever a record can start on a handle
that keeps what sealing needs exactly inside payloads, as every handle in use does, starting the
record, appending the pieces and sealing the payload gives the same result as writing the record with
that payload at once.

* Both succeed, and leave the same bytes and position of the stream and the same state of the handle,
  or both fail with the same error.
* If the payload in front, if there is one, can be sealed, they succeed if and only if the record is
  not longer than its size field can say. -/
theorem agree_inPieces_whole (hk : IsStorage keeps) {handle : Archive σ}
    {memory : Archive MemoryStream} (hkept : Related keeps handle memory) (hready : IsReady handle)
    (hkeeps : handle.state.KeepsPending) (opening : Opening) {record : Record}
    {chunks : List (List UInt8)}
    (hwidth : record.sizeWidth = .four) (hdeclared : record.addedSize.toNat < UInt32.size)
    {payload : List UInt8} (hpayload : payload = if 0 < record.addedSize.toNat then
      chunks.flatten.take record.addedSize.toNat else chunks.flatten)
    (hne : payload ≠ []) (hlength : payload.length ≤ 0x7FFFFFFF) :
    Agree (fun first second => ∃ kept, Related keeps first kept ∧ Related keeps second kept)
      (writeInPieces opening record chunks handle)
      (CallWith.withValue record (writeRecordWithAddedData payload) handle) ∧
    ∀ middle, readyForRecord "write_record" handle = .ok () middle →
      ((∃ final, writeInPieces opening record chunks handle = .ok () final) ↔
        record.encodedLength ≤ 65535) := by
  obtain rfl : (⟨record, chunks⟩ : Draft).payload = payload := hpayload.symm
  have hnarrow : IsNarrow record chunks := ⟨hwidth, hdeclared, hne, hlength⟩
  obtain ⟨stream, state⟩ := handle
  obtain ⟨kept, _⟩ := memory
  obtain rfl : state = _ := hkept.state
  have hready' : IsReady (⟨kept, state⟩ : Archive MemoryStream) := hready
  have hkeeps' : state.KeepsPending := hkeeps
  obtain ⟨hsame, hfits⟩ := writeInPieces_eq_whole hready' hkeeps' opening hnarrow
  have hpieces := simulates_writeInPieces hk opening record chunks _ _ hkept
  have hwhole := CallWith.simulates_withValue record (simulates_writeRecordWithAddedData hk.writesAlike
    (⟨record, chunks⟩ : Draft).payload) _ _ hkept
  rw [← hsame] at hwhole
  refine ⟨hpieces.join hwhole, fun middle hmiddle => ?_⟩
  have hstart := simulates_readyForRecord hk.writesAlike "write_record" _ _ hkept
  rw [hmiddle] at hstart
  obtain ⟨middle', hmiddle', -⟩ := hstart.exists_ok_right
  rw [← hfits middle' hmiddle']
  -- a success on the stream is one in memory, and the other way round
  constructor
  · rintro ⟨final, hfinal⟩
    rw [hfinal] at hpieces
    obtain ⟨final', hrun, -⟩ := hpieces.exists_ok_right
    exact ⟨final', hrun⟩
  · rintro ⟨final, hfinal⟩
    rw [hfinal] at hpieces
    obtain ⟨final', hrun, -⟩ := hpieces.exists_ok
    exact ⟨final', hrun⟩

/-- Three bytes with a checksum, in pieces of which one is empty, behind nothing yet. -/
theorem agree_inPieces_whole_three :
    let handle : Archive MemoryStream := ⟨{}, { mode := .writing .atRecord }⟩
    let record : Record := { kind := .unknown 88, flags := 0xA0, data := [7] }
    ∃ first second, writeInPieces .streamed record [[1], [], [2, 3]] handle = .ok () first ∧
      CallWith.withValue record (writeRecordWithAddedData [1, 2, 3]) handle = .ok () second ∧
      first = second := by
  intro handle record
  have hwidth : record.sizeWidth = .four := by decide
  have hdeclared : record.addedSize.toNat < UInt32.size := by decide
  have hpayload : ([1, 2, 3] : List UInt8) = if 0 < record.addedSize.toNat then
      [[1], [], [2, 3]].flatten.take record.addedSize.toNat else [[1], [], [2, 3]].flatten := rfl
  obtain ⟨hagree, hfits⟩ := agree_inPieces_whole isStorage_eq
    (⟨rfl, rfl⟩ : Related Eq handle handle) (.inl rfl)
    (HandleState.keepsPending_of_none rfl nofun) .streamed hwidth hdeclared hpayload
    (by decide) (by decide)
  obtain ⟨first, hfirst⟩ := (hfits handle rfl).mpr (by decide)
  rw [hfirst] at hagree
  obtain ⟨second, hsecond, kept, ⟨hstream, hstate⟩, ⟨hstream', hstate'⟩⟩ := hagree.exists_ok_right
  refine ⟨first, second, hfirst, hsecond, ?_⟩
  obtain ⟨_, _⟩ := first
  obtain ⟨_, _⟩ := second
  cases hstream.trans hstream'.symm
  cases hstate.trans hstate'.symm
  rfl

end Archive

end RecordArchive
