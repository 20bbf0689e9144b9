import RecordArchive.Archive.Basic
import RecordArchive.Record.Decode

/-! # Reading records

A reader finds the marker and then takes record after record. A record that announces a payload
leaves the reader inside that payload, which is read in pieces or skipped; the payload checksum is
compared when its last byte has been read. A stream that ends between two records gives
`ArchiveError.eof`, one that ends elsewhere `ArchiveError.prematureEof`. -/

namespace RecordArchive

/-- The progress at the start of the payload that a record announces. -/
def IncomingPayload.ofRecord (record : Record) : IncomingPayload :=
  if record.hasAddedSize then
    { remaining := record.addedSize.toNat
      declaredCrc? := if record.hasAddedCrc then some record.addedCrc else none }
  else {}

/-- The progress after some more bytes. -/
def IncomingPayload.consume (payload : IncomingPayload) (bytes : List UInt8) : IncomingPayload :=
  { payload with
    remaining := payload.remaining - bytes.length
    consumed := payload.consumed + bytes.length
    crc := crc32c payload.crc bytes }

namespace Archive

variable {σ : Type}

open Call

/-- Fails unless the reader stands at the given place. -/
def expectReader (place : ReaderState) (call : String) : Call σ Unit := do
  let state ← Call.state
  require (state.mode = .reading place) (.invalidState call)

variable [ByteSource σ]

/-- Takes the marker and what is in front of it, and gives the number of bytes taken. -/
def findMarker : Call σ Nat := do
  expectReader .atMarker "find_marker"
  let consumed ← onStream Marker.find
  setMode (.reading .atRecordHeader)
  pure consumed

/-- Takes the header of the next record. Behind its first byte the reader is inside the record. -/
def readRecordHeader : Call σ Record := do
  let first ← onStream (readExactly .boundary 1)
  setMode (.reading .atRecordData)
  let fixed ← onStream (readExactly .inside (RecordFlags.fixedHeaderLength - 1))
  let flags := (first ++ fixed).getD 3 0
  let optional ← onStream
    (readExactly .inside (RecordFlags.headerLength flags - RecordFlags.fixedHeaderLength))
  ofResult (Record.decodeHeader (first ++ fixed ++ optional))

/-- The header of a record is at least one byte. -/
theorem readRecordHeader_spends :
    Spends readBudget (fun _ => 1) (readRecordHeader : Call σ Record) := by
  refine Spends.bind (fun _ _ => 0) (onStream_spends (readExactly_spends _ _))
    (fun first => ?_) (fun _ _ => by omega)
  refine Spends.bind_of_free (update_spends _) fun _ => ?_
  refine Spends.bind (fun _ _ => 0) (onStream_spends (readExactly_spends _ _))
    (fun fixed => ?_) (fun _ _ => Nat.zero_le _)
  refine Spends.bind (fun _ _ => 0) (onStream_spends (readExactly_spends _ _))
    (fun optional => ofResult_spends _) (fun _ _ => Nat.zero_le _)

/-- Moves the reader behind a record, into its payload if it announces one. -/
def enterPayload (record : Record) : Call σ Unit :=
  update fun state =>
    { state with
      incoming := .ofRecord record
      mode := .reading (if record.hasAddedSize then .atAddedData else .atRecordHeader) }

/-- Takes the next record. Its payload, if it announces one, stays on the stream. -/
def readRecord : Call σ Record := do
  expectReader .atRecordHeader "read_record"
  let header ← readRecordHeader
  let data ← onStream (readExactly .inside header.dataLength)
  let record := { header with data }
  enterPayload record
  pure record

/-- The check of the place takes no bytes. -/
theorem expectReader_spends (place : ReaderState) (call : String) :
    Spends readBudget (fun _ => 0) (expectReader place call : Call σ Unit) := by
  exact Spends.bind_of_free state_spends fun _ => require_spends _ _

/-- A record is at least one byte. -/
theorem readRecord_spends : Spends readBudget (fun _ => 1) (readRecord : Call σ Record) := by
  refine Spends.bind_of_free (expectReader_spends _ _) fun _ => ?_
  refine Spends.bind_free readRecordHeader_spends fun header => ?_
  refine Spends.bind (fun _ _ => 0) (onStream_spends (readExactly_spends _ _)) (fun data => ?_)
    (fun _ _ => Nat.zero_le _)
  refine Spends.bind_of_free (update_spends _) fun _ => Spends.pure _ rfl

/-- Moves the reader to the payload that is to be skipped and gives its length: that of the next
record, whose data is skipped on the way, or what is left of the current payload. -/
def payloadToSkip : Call σ Nat := do
  let state ← Call.state
  match state.mode with
  | .reading .atRecordHeader => do
    let header ← readRecordHeader
    onStream (discard header.dataLength)
    pure header.addedSize.toNat
  | .reading .atAddedData => pure state.incoming.remaining
  | _ => throw (.invalidState "skip_record")

/-- Skips what is left of the current record: the record with its payload if the reader stands in
front of it, and the unread payload if it stands inside. -/
def skipRecord : Call σ Unit := do
  let payload ← payloadToSkip
  onStream (discard payload)
  update fun state => { state with incoming := {}, mode := .reading .atRecordHeader }

/-- The header and the data in front of a payload are taken, if they have not been. -/
theorem payloadToSkip_spends : Spends readBudget (fun _ => 0) (payloadToSkip : Call σ Nat) := by
  refine Spends.bind_of_free state_spends fun state => ?_
  split
  next =>
    refine Spends.bind (fun _ _ => 0) readRecordHeader_spends (fun header => ?_)
      (fun _ _ => Nat.zero_le _)
    exact Spends.bind_of_free (onStream_spends (discard_spends _)) fun _ => Spends.pure _ rfl
  next => exact Spends.pure _ rfl
  next => exact Spends.throw _ _

/-- Skipping gives nothing back. -/
theorem skipRecord_spends : Spends readBudget (fun _ => 0) (skipRecord : Call σ Unit) := by
  refine Spends.bind_of_free payloadToSkip_spends fun payload => ?_
  exact Spends.bind_of_free (onStream_spends (discard_spends _)) fun _ => update_spends _

/-- Leaves a payload that has been read and compares its checksum. -/
def endAddedData : Call σ Unit := do
  setMode (.reading .atRecordHeader)
  let state ← Call.state
  match state.incoming.declaredCrc? with
  | some stored =>
    require (stored = state.incoming.crc)
      (.invalidData (.payloadChecksum stored state.incoming.crc))
  | none => pure ()

/-- The end of a payload takes no bytes. -/
theorem endAddedData_spends : Spends readBudget (fun _ => 0) (endAddedData : Call σ Unit) := by
  refine Spends.bind_of_free (update_spends _) fun _ => ?_
  refine Spends.bind_of_free state_spends fun state => ?_
  split
  next => exact require_spends _ _
  next => exact Spends.pure () rfl

/-- The most bytes that one call takes from a payload. -/
def maxTransfer : Nat := 0x40000000

/-- Takes up to `count` bytes of the current payload. No bytes come back when the payload is
exhausted, and the reader is then between records again, or when `count` is zero. -/
def readAddedData (count : Nat) : Call σ (List UInt8) := do
  expectReader .atAddedData "read_added_data"
  let state ← Call.state
  if state.incoming.remaining = 0 then do
    endAddedData
    pure []
  else do
    let length := min (min count state.incoming.remaining) maxTransfer
    let bytes ← onStream (readExactly .inside length)
    let incoming := state.incoming.consume bytes
    update fun state => { state with incoming }
    if incoming.remaining = 0 then endAddedData
    pure bytes

/-- The bytes of a payload are taken from the budget. -/
theorem readAddedData_spends (count : Nat) :
    Spends readBudget List.length (readAddedData count : Call σ (List UInt8)) := by
  refine Spends.bind_of_free (expectReader_spends _ _) fun _ => ?_
  refine Spends.bind_of_free state_spends fun state => ?_
  split
  next =>
    exact Spends.bind_of_free endAddedData_spends fun _ => Spends.pure _ rfl
  next =>
    refine Spends.bind (fun bytes result => result.length - bytes.length)
      (onStream_spends (readExactly_spends _ _)) (fun bytes => ?_) (fun _ _ => by omega)
    refine Spends.bind_of_free (update_spends _) fun _ => ?_
    split
    next =>
      exact Spends.bind_of_free endAddedData_spends fun _ => Spends.pure _ (by omega)
    next => exact Spends.pure _ (by omega)

end Archive

end RecordArchive
