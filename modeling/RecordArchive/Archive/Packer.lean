import RecordArchive.Archive.RecordWriter
import RecordArchive.ArchiveHeader
import RecordArchive.Entry.Record

/-! # Packing entries

The packer writes the archive header and then entry after entry, each in one record. An entry is
either written in three steps, so that its content can be copied from a stream (`beginFile`,
`insertFileData`, `endFile`), or in one (`addFile`), which never seeks. -/

namespace RecordArchive

namespace EntryInfo

/-- The file header that starts an entry whose content follows in pieces. A known length of the
content is announced; otherwise sealing fills it in. -/
def announceContent (info : EntryInfo) (header : Record) : Record :=
  match info.unpackedSize? with
  | some size =>
    if size = 0 then { header with flags := header.flags ||| RecordFlags.wideSize, addedSize := 0 }
    else
      { header with
        flags := header.flags |||
          (if narrowSizeMax < size.toNat then RecordFlags.wideSize else RecordFlags.narrowSize)
        addedSize := size }
  | none => { header with flags := header.flags ||| RecordFlags.wideSize, addedSize := 0 }

end EntryInfo

namespace ArchiveOptions

/-- The record with the request for a payload checksum that the options make. -/
def requestCrc (options : ArchiveOptions) (record : Record) : Record :=
  if options.payloadCrc then { record with flags := record.flags ||| RecordFlags.payloadCrc }
  else record

end ArchiveOptions

/-- The caller's end of a copy into an archive: a stream and the number of bytes that went through
it. -/
structure CopySource (ι : Type) where
  stream : ι
  total : Nat := 0

namespace Archive

variable {ι σ : Type}

open Call

/-- Fails unless the handle is writing and the packing stands at one of the given places. -/
def expectPacker (allowed : List PackerState) (call : String) : Call σ Unit := do
  let state ← Call.state
  match state.mode with
  | .writing _ => require (state.packer ∈ allowed) (.invalidState call)
  | _ => throw (.invalidState call)

/-- Notes where the packing stands. -/
def setPacker (packer : PackerState) : Call σ Unit := update fun state => { state with packer }

/-! ### Copying content into an entry -/

section Source

variable [ByteSource ι]

/-- The budget of the stream that is copied. -/
def sourceBudget (state : CopySource ι × Archive σ) : Nat := ByteSource.readBudget state.1.stream

/-- The next bytes of the stream that is copied; an interruption gives nothing and has to be tried
again. -/
def fetch (count : Nat) : EStateM ArchiveError (CopySource ι) (Option (List UInt8)) := fun source =>
  match ByteSource.read count source.stream with
  | .ok bytes stream => .ok (some bytes) { stream, total := source.total }
  | .error error stream =>
    if error.isInterrupted then .ok none { source with stream }
    else .error (.read error) { source with stream }

/-- Counts bytes that went through. -/
def countBytes (bytes : List UInt8) : EStateM ArchiveError (CopySource ι) Unit := fun source =>
  .ok () { source with total := source.total + bytes.length }

/-- A round that does not stop takes bytes or an interruption from the stream. -/
theorem fetch_spends (count : Nat) :
    Spends (fun source : CopySource ι => ByteSource.readBudget source.stream)
      (fun fetched? => fetched?.elim 1 List.length) (fetch count) := by
  intro source
  unfold fetch
  cases hrun : ByteSource.read count source.stream with
  | ok bytes stream =>
    have := ByteSource.readBudget_ok hrun
    simpa [hrun, Within] using this
  | error error stream =>
    have := ByteSource.readBudget_error hrun
    cases hagain : error.isInterrupted <;> simp_all [Within]

/-- A program on the source spends the budget of the copy. -/
theorem onValue_spends_source {α : Type} {cost : α → Nat}
    {program : EStateM ArchiveError (CopySource ι) α}
    (h : Spends (fun source => ByteSource.readBudget source.stream) cost program) :
    Spends sourceBudget cost (CallWith.onValue program : CallWith (CopySource ι) σ α) := by
  intro state
  have hprogram := h state.1
  unfold CallWith.onValue
  cases hrun : program state.1 <;> simpa only [hrun, Within, sourceBudget] using hprogram

/-- What is done with the handle leaves the source as it is. -/
theorem lift_spends_source {α : Type} (call : Call σ α) :
    Spends sourceBudget (fun _ => 0) (Call.lift call : CallWith (CopySource ι) σ α) := by
  intro state
  unfold Call.lift
  cases hrun : call state.2 <;> simp only [hrun, Within, sourceBudget] <;> omega

/-- Counting bytes takes none. -/
theorem countBytes_spends (bytes : List UInt8) :
    Spends (fun source : CopySource ι => ByteSource.readBudget source.stream) (fun _ => 0)
      (countBytes bytes) :=
  fun _ => Nat.le_refl _

variable [ByteSink σ]

/-- One round of copying: appends the next bytes to the open content, and stops when there are
none. -/
def insertRound (count : Nat) : CallWith (CopySource ι) σ (Option Unit) := do
  let fetched? ← CallWith.onValue (fetch count)
  match fetched? with
  | none => pure none
  | some [] => pure (some ())
  | some bytes => do
    Call.lift (writeAddedData bytes)
    CallWith.onValue (countBytes bytes)
    pure none

/-- A round that goes on has taken bytes or an interruption from the source. -/
theorem insertRound_spends (count : Nat) :
    Spends sourceBudget roundCost
      (insertRound count : CallWith (CopySource ι) σ (Option Unit)) := by
  refine Spends.bind (fun fetched? round => roundCost round - fetched?.elim 1 List.length)
    (onValue_spends_source (fetch_spends count)) (fun fetched? => ?_) (fun _ _ => by omega)
  split
  next => exact Spends.pure _ rfl
  next => exact Spends.pure _ (Nat.zero_sub _)
  next bytes hbytes =>
    refine Spends.bind (fun _ round => roundCost round - bytes.length) (lift_spends_source _)
      (fun _ => ?_) (fun _ _ => by simp)
    refine Spends.bind_of_free (onValue_spends_source (countBytes_spends bytes))
      fun _ => Spends.pure _ ?_
    have : 0 < bytes.length := List.length_pos_iff.mpr (by simpa using hbytes)
    simp only [roundCost]
    omega

/-- Copies a stream to its end into the open content. -/
def insertFileData : CallWith (CopySource ι) σ Unit := do
  Call.lift (expectPacker [.fileData] "insert_file_data")
  let state ← Call.lift Call.state
  repeatUntil (insertRound state.options.copySize) sourceBudget (insertRound_spends _)
  Call.lift (setPacker .afterFileData)

end Source

/-! ### Steps of packing -/

variable [ByteSink σ] [Seekable σ]

/-- Fails if packing on the handle has begun. -/
def expectFresh (call : String) : Call σ Unit := do
  let state ← Call.state
  match state.mode with
  | .writing _ => require (state.packer = .idle) (.invalidState call)
  | _ => pure ()

/-- Writes the archive header, behind the marker if that has not been written yet. -/
def initArchive : Call σ Unit := do
  expectFresh "init_archive"
  startWriting
  let record ← ofResult ArchiveHeader.current.toRecord
  CallWith.withValue record writeRecord
  setPacker .fileHeader

/-- Writes the file header of an entry and opens its content. -/
def beginFile (info : EntryInfo) : Call σ Unit := do
  expectPacker [.idle, .fileHeader] "begin_file"
  let header ← ofResult info.toRecord
  let state ← Call.state
  CallWith.withValue (state.options.requestCrc (info.announceContent header)) writeRecord
  update fun state => { state with currentFile? := some info, packer := .fileData }

/-- Seals the content of the open entry. -/
def endFile : Call σ Unit := do
  expectPacker [.afterFileData] "end_file"
  finishAddedData
  update fun state => { state with currentFile? := none, packer := .fileHeader }

/-- Writes a whole entry in one record. -/
def addFile (info : EntryInfo) (content : List UInt8) : Call σ Unit := do
  expectPacker [.idle, .fileHeader] "add_file"
  let header ← ofResult info.toRecord
  let state ← Call.state
  CallWith.withValue (state.options.requestCrc header) (writeRecordWithAddedData content)
  setPacker .fileHeader

end Archive

end RecordArchive
