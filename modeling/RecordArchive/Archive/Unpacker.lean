import RecordArchive.Archive.RecordReader
import RecordArchive.ArchiveHeader
import RecordArchive.Entry.Record

/-! # Unpacking entries

An entry is a file header and, while a record says that it is continued, the data fragments behind
it; its content is their payloads in a row. The unpacker reads the archive header, then the metadata
and the content of entry after entry, follows continuations, and compares length and checksum of the
content with what the file header says. The loops below end because every further record takes at
least one byte from the stream. -/

namespace RecordArchive

/-- The progress after some more bytes of content. -/
def EntryProgress.consume (progress : EntryProgress) (bytes : List UInt8) : EntryProgress :=
  { progress with
    bytes := progress.bytes + bytes.length
    crc := crc32c progress.crc bytes }

/-- Compares the content of an entry with its metadata, the length before the checksum. -/
def EntryInfo.verify (info : EntryInfo) (progress : EntryProgress) : Except ArchiveError Unit :=
  if info.unpackedSize?.any fun size => size.toNat != progress.bytes then
    .error (.invalidData
      (.entrySize info.name ((info.unpackedSize?.getD 0).toNat) progress.bytes))
  else if info.crc?.any fun crc => crc != progress.crc then
    .error (.invalidData (.entryChecksum info.name))
  else .ok ()

/-- The caller's end of a copy out of an archive: a stream and the number of bytes that went through
it. -/
structure CopySink (τ : Type) where
  stream : τ
  total : Nat := 0

namespace Archive

variable {σ τ : Type}

open Call

/-- Fails unless the handle is reading. -/
def expectReading (call : String) : Call σ Unit := do
  let state ← Call.state
  match state.mode with
  | .reading _ => pure ()
  | _ => throw (.invalidState call)

/-- Forgets the entry that was being unpacked and stands between two entries. -/
def finishEntry : Call σ Unit :=
  update fun state => { state with entry := {}, currentFile? := none, unpacker := .fileHeader }

/-- Notes whether the content goes on behind the current record. -/
def setContinued (continued : Bool) : Call σ Unit :=
  update fun state => { state with entry := { state.entry with continued } }

/-- Compares the content that was read with the metadata of the current entry. -/
def verifyEntry : Call σ Unit := do
  let state ← Call.state
  match state.currentFile? with
  | some info => ofResult (info.verify state.entry)
  | none => pure ()

variable [ByteSource σ]

/-- Skips the unread payload if the reader stands inside one. -/
def leavePayload : Call σ Unit := do
  let state ← Call.state
  if state.mode = .reading .atAddedData then skipRecord

/-- Reads the archive header, behind the marker if that has not been taken yet. -/
def readArchiveHeader : Call σ ArchiveHeader := do
  expectReading "read_archive_header"
  let state ← Call.state
  require (state.unpacker = .validatingFormat) (.invalidState "read_archive_header")
  if state.mode = .reading .atMarker then
    let _ ← findMarker
  let record ← readRecord
  let header ← ofResult (ArchiveHeader.ofRecord record)
  leavePayload
  require (header.version ≤ ArchiveHeader.supportedVersion)
    (.invalidFormat (.newerVersion header.version ArchiveHeader.supportedVersion))
  update fun state => { state with unpacker := .fileHeader }
  pure header

/-- Reads the header of the next entry and stands in front of its content. -/
def readFileHeader : Call σ EntryInfo := do
  let record ← readRecord
  let info ← ofResult (EntryInfo.ofRecord record)
  update fun state =>
    { state with
      entry := { continued := record.isContinued }
      currentFile? := some info
      unpacker := .fileData }
  pure info

/-- The metadata of the entry whose header has been read. -/
def knownFile : Call σ EntryInfo := do
  let state ← Call.state
  match state.currentFile? with
  | some info => pure info
  | none => throw (.invalidState "get_current_file_info")

/-- The metadata of the current entry, read from its header if that is still to come. -/
def currentFileInfo : Call σ EntryInfo := do
  expectReading "get_current_file_info"
  let state ← Call.state
  match state.unpacker with
  | .fileHeader => readFileHeader
  | .fileData | .afterFileData => knownFile
  | .validatingFormat => throw (.invalidState "get_current_file_info")

/-- Reads the record that continues the content. -/
def readFragment : Call σ Record := do
  let record ← readRecord
  require (record.kind = .dataFragment) (.invalidData (.notDataFragment record.kind))
  require record.isValid (.invalidData .fragmentChecksum)
  setContinued record.isContinued
  pure record

/-! ### Skipping -/

/-- One round of skipping: leaves the current payload and, if the content goes on, enters the next
record. -/
def skipRound : Call σ (Option Unit) := do
  leavePayload
  let state ← Call.state
  if state.entry.continued then do
    let _ ← readFragment
    pure none
  else pure (some ())

/-- Enters the entry that is to be skipped. -/
def beginSkip : Call σ Unit := do
  let state ← Call.state
  match state.unpacker with
  | .validatingFormat => throw (.invalidState "skip_file")
  | .fileHeader => do
    let record ← readRecord
    require (record.kind = .fileHeader ∧ record.isValid) (.invalidData .misplacedFileHeader)
    setContinued record.isContinued
  | .fileData | .afterFileData => pure ()

/-- Leaving a payload gives nothing back. -/
theorem leavePayload_spends : Spends readBudget (fun _ => 0) (leavePayload : Call σ Unit) := by
  refine Spends.bind_of_free state_spends fun state => ?_
  split
  next => exact skipRecord_spends
  next => exact Spends.pure () rfl

/-- A fragment is at least one byte. -/
theorem readFragment_spends : Spends readBudget (fun _ => 1) (readFragment : Call σ Record) := by
  refine Spends.bind_free readRecord_spends fun record => ?_
  refine Spends.bind_of_free (require_spends _ _) fun _ => ?_
  refine Spends.bind_of_free (require_spends _ _) fun _ => ?_
  exact Spends.bind_of_free (update_spends _) fun _ => Spends.pure _ rfl

/-- A round of skipping that goes on has taken a fragment. -/
theorem skipRound_spends :
    Spends readBudget roundCost (skipRound : Call σ (Option Unit)) := by
  refine Spends.bind_of_free leavePayload_spends fun _ => ?_
  refine Spends.bind_of_free state_spends fun state => ?_
  split
  next =>
    refine Spends.bind (fun _ _ => 0) readFragment_spends (fun _ => Spends.pure _ rfl) ?_
    intro _ round
    cases round <;> simp [roundCost]
  next => exact Spends.pure _ rfl

/-- Skips the current entry with all records that continue it. -/
def skipFile : Call σ Unit := do
  expectReading "skip_file"
  beginSkip
  repeatUntil skipRound readBudget skipRound_spends
  finishEntry

/-! ### Reading content -/

/-- The next bytes of the current payload, none if the reader stands in no payload. -/
def takePayload (count : Nat) : Call σ (List UInt8) := do
  let state ← Call.state
  if state.mode = .reading .atAddedData then readAddedData count else pure []

/-- One round of reading content: gives bytes of the current payload if there are any; otherwise
enters the next record if the content goes on, and gives nothing at the end of the content. -/
def readRound (count : Nat) : Call σ (Option (List UInt8)) := do
  let bytes ← takePayload count
  let state ← Call.state
  if bytes ≠ [] then do
    update fun state => { state with entry := state.entry.consume bytes }
    pure (some bytes)
  else if state.entry.continued then do
    let _ ← readFragment
    pure none
  else do
    verifyEntry
    update fun state => { state with unpacker := .afterFileData }
    pure (some [])

/-- A piece of payload is taken from the budget. -/
theorem takePayload_spends (count : Nat) :
    Spends readBudget List.length (takePayload count : Call σ (List UInt8)) := by
  refine Spends.bind_of_free state_spends fun state => ?_
  split
  next => exact readAddedData_spends count
  next => exact Spends.pure _ rfl

/-- The check of an entry takes no bytes. -/
theorem verifyEntry_spends : Spends readBudget (fun _ => 0) (verifyEntry : Call σ Unit) := by
  refine Spends.bind_of_free state_spends fun state => ?_
  split
  next => exact ofResult_spends _
  next => exact Spends.pure () rfl

/-- A round takes the bytes it gives, or the record it enters, from the budget. -/
theorem readRound_spends (count : Nat) :
    Spends readBudget (fun round => round.elim 1 List.length)
      (readRound count : Call σ (Option (List UInt8))) := by
  refine Spends.bind (fun bytes round => round.elim 1 List.length - bytes.length)
    (takePayload_spends count) (fun bytes => ?_) (fun _ _ => by omega)
  refine Spends.bind_of_free state_spends fun state => ?_
  split
  next =>
    exact Spends.bind_of_free (update_spends _) fun _ => Spends.pure _ (Nat.sub_self _)
  next hnil =>
    have hbytes : bytes = [] := Decidable.not_not.mp hnil
    subst hbytes
    split
    next =>
      refine Spends.bind (fun _ round => round.elim 0 List.length) readFragment_spends
        (fun _ => Spends.pure _ rfl) ?_
      intro _ round
      cases round <;> simp
    next =>
      refine Spends.bind_of_free verifyEntry_spends fun _ => ?_
      exact Spends.bind_of_free (update_spends _) fun _ => Spends.pure _ rfl

/-- A round of reading that goes on has taken a record. -/
theorem readRound_progress (count : Nat) :
    Spends readBudget roundCost (readRound count : Call σ (Option (List UInt8))) :=
  (readRound_spends count).mono fun round => by cases round <;> simp [roundCost]

/-- Takes up to `count` bytes of the content of the current entry, none at its end; there, length
and checksum are compared with what the file header says. -/
def readFileData (count : Nat) : Call σ (List UInt8) := do
  expectReading "read_file_data"
  let state ← Call.state
  match state.unpacker with
  | .fileData =>
    if count = 0 then pure []
    else repeatUntil (readRound count) readBudget (readRound_progress count)
  | .afterFileData => pure []
  | _ => throw (.invalidState "read_file_data")

/-- The check of the mode takes no bytes. -/
theorem expectReading_spends (call : String) :
    Spends readBudget (fun _ => 0) (expectReading call : Call σ Unit) := by
  refine Spends.bind_of_free state_spends fun state => ?_
  split
  next => exact Spends.pure () rfl
  next => exact Spends.throw _ _

/-- The content that is read is taken from the budget, with the records between its pieces. -/
theorem readFileData_spends (count : Nat) :
    Spends readBudget List.length (readFileData count : Call σ (List UInt8)) := by
  refine Spends.bind_of_free (expectReading_spends _) fun _ => ?_
  refine Spends.bind_of_free state_spends fun state => ?_
  split
  next =>
    split
    next => exact Spends.pure _ rfl
    next => exact repeatUntil_spends (readRound_spends count)
  next => exact Spends.pure _ rfl
  next => exact Spends.throw _ _

/-! ### Extracting -/

/-- The budget of the handle beside the other end of a copy. -/
def copyBudget (state : CopySink τ × Archive σ) : Nat := readBudget state.2

variable [ByteSink τ]

/-- Writes bytes to the other end of a copy. -/
def deliver (bytes : List UInt8) : EStateM ArchiveError (CopySink τ) Unit := fun copy =>
  match writeAll bytes copy.stream with
  | .ok () stream => .ok () { stream, total := copy.total + bytes.length }
  | .error error stream => .error (.write error) { copy with stream }

/-- One round of extracting: copies the next bytes of the content, and stops when there are none. -/
def extractRound (count : Nat) : CallWith (CopySink τ) σ (Option Unit) := do
  let bytes ← Call.lift (readFileData count)
  if bytes = [] then pure (some ())
  else do
    CallWith.onValue (deliver bytes)
    pure none

/-- A call spends the same beside another value. -/
theorem lift_spends {ρ α : Type} {cost : α → Nat} {call : Call σ α}
    (h : Spends readBudget cost call) :
    Spends (fun state : ρ × Archive σ => readBudget state.2) cost (Call.lift call) := by
  intro state
  have hcall := h state.2
  unfold Call.lift
  cases hrun : call state.2 <;> simpa only [hrun, Within] using hcall

/-- A program on the other value leaves the handle as it is. -/
theorem onValue_spends {ρ α : Type} (program : EStateM ArchiveError ρ α) :
    Spends (fun state : ρ × Archive σ => readBudget state.2) (fun _ => 0)
      (CallWith.onValue program) := by
  intro state
  unfold CallWith.onValue
  cases hrun : program state.1 <;> simp only [Within, hrun] <;> omega

/-- A round of extraction that goes on has taken content. -/
theorem extractRound_spends (count : Nat) :
    Spends copyBudget roundCost
      (extractRound count : CallWith (CopySink τ) σ (Option Unit)) := by
  refine Spends.bind (fun bytes round => roundCost round - bytes.length)
    (lift_spends (readFileData_spends count)) (fun bytes => ?_) (fun _ _ => by omega)
  split
  next hnil => exact Spends.pure _ (Nat.zero_sub _)
  next hcons =>
    refine Spends.bind_of_free (onValue_spends _) fun _ => Spends.pure _ ?_
    have : 0 < bytes.length := List.length_pos_iff.mpr hcons
    simp only [roundCost]
    omega

/-- Makes sure that the metadata of the entry to extract has been read. -/
def beginExtract : Call σ Unit := do
  expectReading "extract"
  let state ← Call.state
  match state.unpacker with
  | .fileHeader => do
    let _ ← currentFileInfo
    pure ()
  | .validatingFormat => throw (.invalidState "extract")
  | _ => pure ()

/-- The file header is at least one byte. -/
theorem readFileHeader_spends :
    Spends readBudget (fun _ => 1) (readFileHeader : Call σ EntryInfo) := by
  refine Spends.bind_free readRecord_spends fun record => ?_
  refine Spends.bind_of_free (ofResult_spends _) fun info => ?_
  exact Spends.bind_of_free (update_spends _) fun _ => Spends.pure _ rfl

/-- What is known of the current file takes no bytes. -/
theorem knownFile_spends : Spends readBudget (fun _ => 0) (knownFile : Call σ EntryInfo) := by
  refine Spends.bind_of_free state_spends fun state => ?_
  split
  next => exact Spends.pure _ rfl
  next => exact Spends.throw _ _

/-- The metadata may have to be read, and are known otherwise. -/
theorem currentFileInfo_spends :
    Spends readBudget (fun _ => 0) (currentFileInfo : Call σ EntryInfo) := by
  refine Spends.bind_of_free (expectReading_spends _) fun _ => ?_
  refine Spends.bind_of_free state_spends fun state => ?_
  split
  next => exact readFileHeader_spends.mono fun _ => Nat.zero_le _
  next => exact knownFile_spends
  next => exact knownFile_spends
  next => exact Spends.throw _ _

/-- Copies the content of the current entry to the stream of the caller and leaves the handle in
front of the next entry. The total says how many bytes were copied. -/
def extract : CallWith (CopySink τ) σ Unit := do
  Call.lift beginExtract
  let state ← Call.lift Call.state
  repeatUntil (extractRound state.options.copySize) copyBudget (extractRound_spends _)
  Call.lift finishEntry

/-- Extraction may have to read the file header first. -/
theorem beginExtract_spends : Spends readBudget (fun _ => 0) (beginExtract : Call σ Unit) := by
  refine Spends.bind_of_free (expectReading_spends _) fun _ => ?_
  refine Spends.bind_of_free state_spends fun state => ?_
  split
  next =>
    exact Spends.bind_of_free currentFileInfo_spends fun _ => Spends.pure _ rfl
  next => exact Spends.throw _ _
  next => exact Spends.pure _ rfl

/-- Extraction gives nothing back. -/
theorem extract_spends :
    Spends copyBudget (fun _ => 0) (extract : CallWith (CopySink τ) σ Unit) := by
  refine Spends.bind_of_free (lift_spends beginExtract_spends) fun _ => ?_
  refine Spends.bind_of_free (lift_spends state_spends) fun state => ?_
  refine Spends.bind_of_free (repeatUntil_spends ((extractRound_spends _).mono fun round => ?_))
    fun _ => lift_spends (update_spends _)
  cases round <;> exact Nat.le_refl _

end Archive

end RecordArchive
