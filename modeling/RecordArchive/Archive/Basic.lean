import RecordArchive.Entry.Info
import RecordArchive.Marker
import RecordArchive.Record.Basic

/-! # Archive handles

A handle is a stream together with the state of reading or writing an archive on it. Calls are
programs on the handle that keep it after a failure; `CallWith` is a call that also works on a value
of its caller, a record to be completed or the other end of a copy. Every call looks at the state
first and fails with `ArchiveError.invalidState`, the stream untouched, when it is out of order. -/

namespace RecordArchive

/-- What a caller chooses about an archive. -/
structure ArchiveOptions where
  /-- The most bytes that are copied at once. -/
  chunkSize : Nat := 65536
  /-- Whether the packer asks for a checksum of every payload. -/
  payloadCrc : Bool := true
  deriving DecidableEq, Repr

namespace ArchiveOptions

/-- The number of bytes copied at once, at least one. -/
def copySize (options : ArchiveOptions) : Nat := max options.chunkSize 1

end ArchiveOptions

/-- Where a reader stands. -/
inductive ReaderState
  /-- In front of the marker. -/
  | atMarker
  /-- Between two records. -/
  | atRecordHeader
  /-- Inside a record, after a failure to read all of it. -/
  | atRecordData
  /-- Inside a payload. -/
  | atAddedData
  deriving DecidableEq, Repr

/-- What is needed to complete the header of the record whose payload is being written. -/
structure PendingPayload where
  /-- The record as it was written, with what an attempt to seal the payload has assigned to it. -/
  record : Record
  /-- The position of the record, if the stream could tell. -/
  offset? : Option Nat
  /-- The size that was announced, zero if it is left to sealing. -/
  declaredSize : Nat
  /-- Whether the record asks for a checksum of the payload. -/
  hasCrc : Bool
  /-- The payload bytes that were written. -/
  written : Nat := 0
  /-- Their checksum, if the record asks for one. -/
  crc : UInt32 := 0
  deriving DecidableEq, Repr

/-- Where a writer stands. -/
inductive WriterState
  /-- In front of the marker. -/
  | atMarker
  /-- Between two records. -/
  | atRecord
  /-- Inside a payload. -/
  | atAddedData
  deriving DecidableEq, Repr

/-- What a handle is used for. -/
inductive Mode
  | idle
  | reading (state : ReaderState)
  | writing (state : WriterState)
  deriving DecidableEq, Repr

/-- Where the unpacking of entries stands. -/
inductive UnpackerState
  /-- In front of the archive header. -/
  | validatingFormat
  /-- Between two entries. -/
  | fileHeader
  /-- Inside the content of an entry. -/
  | fileData
  /-- Behind the content of an entry. -/
  | afterFileData
  deriving DecidableEq, Repr

/-- Where the packing of entries stands. -/
inductive PackerState
  /-- In front of the archive header. -/
  | idle
  /-- Between two entries. -/
  | fileHeader
  /-- Inside the content of an entry. -/
  | fileData
  /-- Behind the content of an entry. -/
  | afterFileData
  deriving DecidableEq, Repr

/-- The progress through the payload of the record that was read last. -/
structure IncomingPayload where
  remaining : Nat := 0
  consumed : Nat := 0
  /-- The checksum that the record gives. -/
  declaredCrc? : Option UInt32 := none
  /-- The checksum of the bytes consumed. -/
  crc : UInt32 := 0
  deriving DecidableEq, Repr

/-- The progress through the content of the entry that is being unpacked. -/
structure EntryProgress where
  /-- Whether the content goes on in the next record. -/
  continued : Bool := false
  bytes : Nat := 0
  crc : UInt32 := 0
  deriving DecidableEq, Repr

/-- The state of a handle apart from its stream. -/
structure HandleState where
  mode : Mode := .idle
  options : ArchiveOptions := {}
  incoming : IncomingPayload := {}
  /-- The payload that is being written. -/
  pending? : Option PendingPayload := none
  unpacker : UnpackerState := .validatingFormat
  packer : PackerState := .idle
  entry : EntryProgress := {}
  /-- The metadata of the entry that is being read or written. -/
  currentFile? : Option EntryInfo := none
  deriving DecidableEq, Repr

/-- A stream and the state of the archive on it. -/
structure Archive (σ : Type) where
  stream : σ
  state : HandleState := {}

/-- A call on a handle. -/
abbrev Call (σ : Type) := EStateM ArchiveError (Archive σ)

/-- A call that also works on a value of its caller. -/
abbrev CallWith (ρ σ : Type) := EStateM ArchiveError (ρ × Archive σ)

variable {ρ σ α : Type}

namespace Archive

/-- A handle on a stream that is used for nothing yet. -/
def ofStream (stream : σ) (options : ArchiveOptions) : Archive σ :=
  { stream, state := { options } }

/-- A handle that reads the archive on a stream. -/
def reader (stream : σ) : Archive σ := { stream, state := { mode := .reading .atMarker } }

/-- The mode of a handle. -/
def mode (archive : Archive σ) : Mode := archive.state.mode

/-- The payload that is being written, if there is one. -/
def pending? (archive : Archive σ) : Option PendingPayload := archive.state.pending?

/-- Whether the record that was read last has payload left to read. -/
def isAddedDataAvailable (archive : Archive σ) : Bool :=
  archive.state.mode = .reading .atAddedData && 0 < archive.state.incoming.remaining

/-- The payload bytes left to read. -/
def addedDataRemaining (archive : Archive σ) : Nat :=
  if archive.state.mode = .reading .atAddedData then archive.state.incoming.remaining else 0

/-- The bytes read of the payload that was read last. -/
def addedDataConsumed (archive : Archive σ) : Nat := archive.state.incoming.consumed

/-- The checksum of those bytes. -/
def addedDataCrc (archive : Archive σ) : UInt32 := archive.state.incoming.crc

end Archive

namespace Call

/-- The state of the handle. -/
def state : Call σ HandleState := fun archive => .ok archive.state archive

/-- Changes the state of the handle and leaves the stream alone. -/
def update (change : HandleState → HandleState) : Call σ Unit := fun archive =>
  match archive with
  | ⟨stream, state⟩ => .ok () ⟨stream, change state⟩

/-- Moves the handle to a mode. -/
def setMode (mode : Mode) : Call σ Unit := update fun state => { state with mode }

/-- A program on the stream below the handle. -/
def onStream (program : EStateM ArchiveError σ α) : Call σ α := fun archive =>
  match archive with
  | ⟨stream, state⟩ =>
    match program stream with
    | .ok value stream => .ok value ⟨stream, state⟩
    | .error error stream => .error error ⟨stream, state⟩

/-- The result of a computation that looks at neither stream nor state. -/
def ofResult (result : Except ArchiveError α) : Call σ α := fun archive =>
  match result with
  | .ok value => .ok value archive
  | .error error => .error error archive

/-- Fails with the given error unless a condition holds. -/
def require (condition : Prop) [Decidable condition] (error : ArchiveError) : Call σ Unit :=
  if condition then pure () else throw error

/-- A call that does not need the value of its caller. -/
def lift (call : Call σ α) : CallWith ρ σ α := fun (value, archive) =>
  match call archive with
  | .ok result archive => .ok result (value, archive)
  | .error error archive => .error error (value, archive)

end Call

namespace CallWith

/-- The value of the caller. -/
def value : CallWith ρ σ ρ := fun (value, archive) => .ok value (value, archive)

/-- Replaces the value of the caller. -/
def setValue (value : ρ) : CallWith ρ σ Unit := fun (_, archive) => .ok () (value, archive)

/-- A program on the value of the caller. -/
def onValue (program : EStateM ArchiveError ρ α) : CallWith ρ σ α := fun (value, archive) =>
  match program value with
  | .ok result value => .ok result (value, archive)
  | .error error value => .error error (value, archive)

/-- A call that makes its own start value and drops the final one. -/
def withValue (value : ρ) (call : CallWith ρ σ α) : Call σ α := fun archive =>
  match call (value, archive) with
  | .ok result (_, archive) => .ok result archive
  | .error error (_, archive) => .error error archive

end CallWith

/-- A bound on the bytes and interruptions that the stream below a handle still has. -/
def Archive.readBudget [ByteSource σ] (archive : Archive σ) : Nat :=
  ByteSource.readBudget archive.stream

namespace Call

variable [ByteSource σ]

/-- To look at the state takes no bytes. -/
theorem state_spends : Spends Archive.readBudget (fun _ => 0) (state : Call σ HandleState) :=
  fun _ => Nat.le_refl _

/-- A change of the state takes no bytes. -/
theorem update_spends (change : HandleState → HandleState) :
    Spends Archive.readBudget (fun _ => 0) (update change : Call σ Unit) :=
  fun _ => Nat.le_refl _

/-- A result that is there already takes no bytes. -/
theorem ofResult_spends (result : Except ArchiveError α) :
    Spends Archive.readBudget (fun _ => 0) (ofResult result : Call σ α) := by
  intro archive
  cases result <;> exact Nat.le_refl _

/-- A check takes no bytes. -/
theorem require_spends (condition : Prop) [Decidable condition] (error : ArchiveError) :
    Spends Archive.readBudget (fun _ => 0) (require condition error : Call σ Unit) := by
  unfold require
  split
  next => exact Spends.pure () rfl
  next => exact Spends.throw _ _

/-- A handle spends what the program on its stream spends. -/
theorem onStream_spends {cost : α → Nat} {program : EStateM ArchiveError σ α}
    (h : Spends ByteSource.readBudget cost program) :
    Spends Archive.readBudget cost (onStream program) := by
  intro archive
  have hstream := h archive.stream
  unfold onStream
  cases hrun : program archive.stream <;>
    simpa only [hrun, Within, Archive.readBudget] using hstream

end Call

end RecordArchive
