import RecordArchive.Archive.Basic

/-! # Writing records

A writer emits the marker and then record after record. A record that announces a payload leaves
the writer inside that payload; it is sealed by `finishAddedData`, by the next record, or when the
handle is closed or turned to reading. Sealing writes the header again, in place, unless the
announced size was met and no checksum was asked for, so a record that will need it is refused on a
stream that cannot tell its position. `writeRecordWithAddedData` knows the whole payload and never seeks. -/

namespace RecordArchive

namespace Record

/-- Whether the header has to be written again behind the payload. -/
def needsSeal (record : Record) : Bool :=
  record.hasAddedSize && (record.addedSize = 0 || record.hasAddedCrc)

/-- The most payload bytes whose number is written in four bytes. -/
def narrowPayloadMax : Nat := 0x7FFFFFFF

/-- The record with size, checksum and flags for a payload. Without payload there is neither. -/
def announcing (record : Record) (payload : List UInt8) : Record :=
  let flags := record.flags &&& ~~~ RecordFlags.sizeMask
  if payload = [] then
    { record with
      flags := flags &&& ~~~ RecordFlags.payloadCrc
      addedSize := 0
      addedCrc := 0 }
  else
    { record with
      flags := flags |||
        (if narrowPayloadMax < payload.length then RecordFlags.wideSize else RecordFlags.narrowSize)
      addedSize := UInt64.ofNat payload.length
      addedCrc := if record.hasAddedCrc then crc32c 0 payload else record.addedCrc }

end Record

namespace PendingPayload

/-- Nothing is written yet of the payload of a record. -/
def start (record : Record) (offset? : Option Nat) : PendingPayload :=
  { record, offset?, declaredSize := record.addedSize.toNat, hasCrc := record.hasAddedCrc }

/-- Whether exactly the announced bytes were written. -/
def isExact (pending : PendingPayload) : Bool :=
  0 < pending.declaredSize && pending.written = pending.declaredSize

/-- The part of a chunk that is accepted: what the announced size leaves room for. -/
def accept (pending : PendingPayload) (chunk : List UInt8) : List UInt8 :=
  if 0 < pending.declaredSize then chunk.take (pending.declaredSize - pending.written) else chunk

/-- Whether a chunk fits behind what was written. A payload of announced size is cut instead. -/
def fits (pending : PendingPayload) (chunk : List UInt8) : Bool :=
  0 < pending.declaredSize || pending.written + chunk.length ≤ pending.record.sizeWidth.maxValue

/-- The payload with some more bytes written. -/
def append (pending : PendingPayload) (bytes : List UInt8) : PendingPayload :=
  { pending with
    written := pending.written + bytes.length
    crc := if pending.hasCrc then crc32c pending.crc bytes else pending.crc }

/-- The record as it describes what was written, before it is fixed. -/
def sealedRecord (pending : PendingPayload) : Record :=
  { pending.record with
    addedSize := UInt64.ofNat pending.written
    addedCrc := pending.crc }

end PendingPayload

namespace Archive

variable {σ : Type}

open Call

/-- The position of the stream, or why it cannot tell it. -/
def tellStream [Seekable σ] : Call σ (Except IoError Nat) := fun archive =>
  match archive with
  | ⟨stream, state⟩ =>
    match Seekable.tell stream with
    | .ok position stream => .ok (.ok position) ⟨stream, state⟩
    | .error cause stream => .ok (.error cause) ⟨stream, state⟩

/-- Moves the stream to a position. -/
def seekStream [Seekable σ] (position : Nat) : Call σ Unit :=
  onStream (EStateM.adaptExcept .write (Seekable.seekTo position))

/-- Writes bytes to the stream. -/
def writeStream [ByteSink σ] (bytes : List UInt8) : Call σ Unit :=
  onStream (EStateM.adaptExcept .write (writeAll bytes))

/-- Hands over what was written to the stream. -/
def flushStream [ByteSink σ] : Call σ Unit :=
  onStream (EStateM.adaptExcept .write ByteSink.flush)

/-- Keeps a payload as the one that is being written. -/
def setPending (pending : PendingPayload) : Call σ Unit :=
  update fun state => { state with pending? := some pending }

/-- The payload that is being written. The handle has to stand inside a payload, and has to have kept
what sealing needs. -/
def expectPending (call : String) : Call σ PendingPayload := do
  let state ← Call.state
  require (state.mode = .writing .atAddedData) (.invalidState call)
  match state.pending? with
  | some pending => pure pending
  | none => throw (.invalidState call)

variable [ByteSink σ] [Seekable σ]

/-- Writes the marker. -/
def writeMarker : Call σ Unit := do
  let state ← Call.state
  require (state.mode = .writing .atMarker) (.invalidState "write_marker")
  onStream Marker.write
  setMode (.writing .atRecord)

/-- The failure of a seal whose record has no known position. -/
def positionUnknown : ArchiveError :=
  .write (.worded .unsupported "cannot backpatch: stream position unknown")

/-- Assigns to the record of a payload what was written, fixes it, and gives its bytes. What was
assigned is kept even if the header cannot be written again. -/
def describePayload (pending : PendingPayload) : Call σ (List UInt8) := do
  setPending { pending with record := pending.sealedRecord }
  let record ← ofResult pending.sealedRecord.fix
  setPending { pending with record }
  ofResult record.encode?

/-- Writes the header of a payload again and returns to the end of the payload. -/
def sealHeader (pending : PendingPayload) : Call σ Unit := do
  let offset ← ofResult (pending.offset?.elim (.error positionUnknown) .ok)
  let bytes ← describePayload pending
  let position ← tellStream
  let payloadEnd ← ofResult (position.mapError .write)
  seekStream offset
  writeStream bytes
  seekStream payloadEnd

/-- Seals the payload that is being written. -/
def finishAddedData : Call σ Unit := do
  let pending ← expectPending "finish_added_data"
  if pending.isExact ∧ !pending.hasCrc then pure ()
  else sealHeader pending
  update fun state => { state with mode := .writing .atRecord, pending? := none }

/-- Makes sure that a record can start, which seals the payload in front of it. -/
def readyForRecord (call : String) : Call σ Unit := do
  let state ← Call.state
  match state.mode with
  | .writing .atRecord => pure ()
  | .writing .atAddedData => finishAddedData
  | _ => throw (.invalidState call)

/-- The failure to start a record that could not be completed on the stream. -/
def cannotSeal (cause : IoError) : ArchiveError :=
  .write (.worded cause.kind
    s!"record needs a backpatch but the stream cannot seek: {cause.message}")

/-- The position at which a record starts, if it is known or needed. -/
def recordOffset (record : Record) : Call σ (Option Nat) := do
  let position ← tellStream
  match position with
  | .ok position => pure (some position)
  | .error cause => if record.needsSeal then throw (cannotSeal cause) else pure none

/-- Puts the bytes of a record on the stream. -/
def emit (record : Record) : Call σ Unit := do
  let bytes ← ofResult record.encode?
  writeStream bytes

/-- Makes the record of the caller consistent, in place. -/
def fixValue : CallWith Record σ Record := do
  CallWith.onValue Record.fixInPlace
  CallWith.value

/-- Moves the handle behind a record that was written: inside its payload if it announces one. -/
def passRecord (record : Record) (offset? : Option Nat) : Call σ Unit :=
  if record.hasAddedSize then
    update fun state =>
      { state with mode := .writing .atAddedData, pending? := some (.start record offset?) }
  else setMode (.writing .atRecord)

/-- Starts the record of the caller, which is made consistent first. If it announces a payload the
writer then stands inside that payload. -/
def writeRecord : CallWith Record σ Unit := do
  Call.lift (readyForRecord "write_record")
  let record ← fixValue
  let offset? ← Call.lift (recordOffset record)
  Call.lift (emit record)
  Call.lift (passRecord record offset?)

/-- Writes the record of the caller together with its whole payload. -/
def writeRecordWithAddedData (payload : List UInt8) : CallWith Record σ Unit := do
  Call.lift (readyForRecord "write_record_with_added_data")
  let record ← CallWith.value
  CallWith.setValue (record.announcing payload)
  let fixed ← fixValue
  Call.lift (emit fixed)
  Call.lift (writeStream payload)
  Call.lift (setMode (.writing .atRecord))

/-- Appends bytes to the payload that is being written and drops what exceeds its announced size. -/
def writeAddedData (chunk : List UInt8) : Call σ Unit := do
  let pending ← expectPending "write_added_data"
  require (pending.fits chunk) (.invalidParameter (.payloadTooLong pending.record.sizeWidth.length))
  let bytes := pending.accept chunk
  writeStream bytes
  setPending (pending.append bytes)

/-- Starts the record of the caller, which has to announce a payload. -/
def startStreamedRecord : CallWith Record σ Unit := do
  let record ← CallWith.value
  Call.lift (require record.hasAddedSize (.invalidParameter .missingAddedSize))
  writeRecord

/-- The payload bytes accepted so far. -/
def streamedLength (archive : Archive σ) : Nat := archive.pending?.elim 0 PendingPayload.written

/-! ### Turning and closing a handle -/

/-- Seals an open payload and hands over what was written. -/
def finishWriting : Call σ Unit := do
  let state ← Call.state
  match state.mode with
  | .writing .atAddedData => do
    finishAddedData
    flushStream
  | .writing _ => flushStream
  | _ => pure ()

/-- Turns the handle to reading, in front of the marker. -/
def startReading : Call σ Unit := do
  let state ← Call.state
  match state.mode with
  | .reading _ => pure ()
  | _ => do
    finishWriting
    update fun state =>
      { state with
        mode := .reading .atMarker
        incoming := {}
        unpacker := .validatingFormat
        entry := {}
        currentFile? := none }

/-- Turns the handle to writing and emits the marker. -/
def startWriting : Call σ Unit := do
  let state ← Call.state
  match state.mode with
  | .writing _ => pure ()
  | _ => do
    update fun state =>
      { state with
        mode := .writing .atMarker
        pending? := none
        packer := .idle
        currentFile? := none }
    writeMarker

/-- Completes what is being written and gives the stream back. After a failure it is lost. -/
def close (archive : Archive σ) : Except ArchiveError σ :=
  match finishWriting archive with
  | .ok () archive => .ok archive.stream
  | .error error _ => .error error

end Archive

end RecordArchive
