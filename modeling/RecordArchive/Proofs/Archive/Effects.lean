import RecordArchive.Archive.Unpacker
import RecordArchive.Proofs.Outcome
import RecordArchive.Proofs.Record.Codec

/-! # Effects of calls

What a call makes of the state of a handle is judged without any assumption on the stream, which may
be short, interrupted or failing at any byte.

* `ArchiveError.IsOutOfOrder`: the failures for being out of order. Neither streams nor the bytes of a
  record are a reason for one.
* `Archive.HasEffect`: what holds of a handle after a success and after a failure, where a failure for
  being out of order occurs only outside of the given condition and leaves the handle as it was.
* `HandleState.KeepsEntry`: steps inside records leave use, entry and places of a handle alone.
* `HandleState.Knows`: the metadata of an entry is known exactly where there is one. -/

namespace RecordArchive

open Program Call

variable {σ α β : Type}

/-! ## Failures of order -/

/-- The failure of a call that is out of order. -/
def ArchiveError.IsOutOfOrder : ArchiveError → Prop
  | .invalidState _ => True
  | _ => False

/-- A program that fails only for other reasons. -/
def IsInOrder (result : EStateM.Result ArchiveError σ α) : Prop :=
  Outcome (fun _ _ => True) (fun error _ => ¬ error.IsOutOfOrder) result

/-- Every result has an outcome that holds of everything. -/
theorem Program.Outcome.of_forall {ε : Type} {ok : α → σ → Prop} {failed : ε → σ → Prop}
    (hok : ∀ value final, ok value final) (hfailed : ∀ error final, failed error final)
    (result : EStateM.Result ε σ α) : Outcome ok failed result := by
  cases result with
  | ok value final => exact hok value final
  | error error final => exact hfailed error final

section Streams

/-- A failure of the stream says nothing about the order of calls. -/
theorem isInOrder_write (program : EStateM IoError σ α) (stream : σ) :
    IsInOrder (EStateM.adaptExcept ArchiveError.write program stream) :=
  Outcome.adaptExcept (.of_forall (fun _ _ => trivial) (fun _ _ => id) _)

variable [ByteSource σ]

/-- Exactly as many bytes are given as were asked for. -/
theorem outcome_readExactly (place : Place) (count : Nat) (stream : σ) :
    Outcome (fun bytes _ => bytes.length = count) (fun error _ => ¬ error.IsOutOfOrder)
      (readExactly place count stream) := by
  refine Outcome.bind (Outcome.adaptExcept (.of_forall (fun bytes final => ?_) (fun _ _ => id) _))
  split
  next hlength => exact hlength
  next =>
    split
    next => exact id
    next => exact id

/-- To discard bytes can only fail for the stream. -/
theorem isInOrder_discard (count : Nat) (stream : σ) : IsInOrder (discard count stream) := by
  refine Outcome.bind (Outcome.adaptExcept (.of_forall (fun missing final => ?_) (fun _ _ => id) _))
  split
  next => trivial
  next => exact id

/-- The search for the marker can only fail for the stream or for want of a marker. -/
theorem isInOrder_find (stream : σ) : IsInOrder (Marker.find stream) := by
  unfold Marker.find
  fun_induction Marker.findFrom Marker.zeroWindow 0 stream with
  | case1 => exact id
  | case2 => trivial
  | case3 _ _ _ _ _ _ _ _ ih => exact ih
  | case4 _ _ _ _ _ _ _ ih => exact ih
  | case5 => exact id

end Streams

section Records

open Cursor

/-- A program on a buffer that finds fault only with its bytes. -/
def FindsFault (result : EStateM.Result ArchiveError Reader α) : Prop :=
  Outcome (fun _ _ => True) (fun error _ => ∃ fault, error = .invalidData fault) result

/-- An access beyond the header is a fault of the data. -/
theorem findsFault_access (read : EStateM OutOfBounds Reader α) (reader : Reader) :
    FindsFault (Record.access read reader) :=
  Outcome.adaptExcept (.of_forall (fun _ _ => trivial) (fun fault _ => ⟨.outOfBounds fault, rfl⟩) _)

/-- Fields that are read one after another. -/
theorem findsFault_bind {first : EStateM ArchiveError Reader α}
    {next : α → EStateM ArchiveError Reader β} (hfirst : ∀ reader, FindsFault (first reader))
    (hnext : ∀ value reader, FindsFault (next value reader)) (reader : Reader) :
    FindsFault ((first >>= next) reader) :=
  Outcome.bind ((hfirst reader).mono (fun value middle _ => hnext value middle) fun _ _ h => h)

/-- What is read from a buffer is refused because of its bytes. -/
theorem Record.parse_eq_error {program : EStateM ArchiveError Reader α}
    (hprogram : ∀ reader, FindsFault (program reader)) {bytes : List UInt8} {error : ArchiveError}
    (h : parse program bytes = .error error) : ∃ fault, error = .invalidData fault := by
  unfold parse at h
  split at h
  next => cases h
  next error' final hrun =>
    cases h
    exact (hprogram { bytes }).of_error hrun

/-- What is wrong with a header is a fault of the data. -/
theorem Record.findsFault_readHeader (reader : Reader) : FindsFault (readHeader reader) := by
  refine findsFault_bind (findsFault_access _) (fun checksum => ?_) reader
  refine findsFault_bind (findsFault_access _) fun letter => ?_
  refine findsFault_bind (findsFault_access _) fun flags => ?_
  refine findsFault_bind (findsFault_access _) fun size => ?_
  intro reader
  split
  next => exact ⟨_, rfl⟩
  next =>
    refine findsFault_bind (findsFault_access _) (fun addedSize => ?_) reader
    exact findsFault_bind (findsFault_access _) fun addedCrc _ => trivial

/-- The header of a record is refused because of its bytes. -/
theorem Record.decodeHeader_eq_error {bytes : List UInt8} {error : ArchiveError}
    (h : decodeHeader bytes = .error error) : ∃ fault, error = .invalidData fault :=
  parse_eq_error findsFault_readHeader h

/-- A record is refused because of its bytes. -/
theorem Record.decode_eq_error {bytes : List UInt8} {error : ArchiveError}
    (h : decode bytes = .error error) : ∃ fault, error = .invalidData fault := by
  refine parse_eq_error (findsFault_bind findsFault_readHeader fun header => ?_) h
  exact findsFault_bind (findsFault_access _) fun data _ => trivial

/-- Metadata is refused because of the bytes of its record. -/
theorem EntryInfo.ofRecord_eq_error {record : Record} {error : ArchiveError}
    (h : ofRecord record = .error error) : ∃ fault, error = .invalidData fault := by
  unfold ofRecord at h
  split at h
  next => exact ⟨_, (Except.error.inj h).symm⟩
  split at h
  next => exact ⟨_, (Except.error.inj h).symm⟩
  refine Record.parse_eq_error ?_ h
  refine findsFault_bind (findsFault_access _) fun flags => ?_
  refine findsFault_bind (findsFault_access _) fun letter => ?_
  refine findsFault_bind (findsFault_access _) fun size => ?_
  refine findsFault_bind (findsFault_access _) fun crc? => ?_
  refine findsFault_bind (findsFault_access _) fun compressionInfo => ?_
  refine findsFault_bind (findsFault_access _) fun timeStamp? => ?_
  refine findsFault_bind (findsFault_access _) fun nameLength => ?_
  refine findsFault_bind (findsFault_access _) fun nameBytes reader => ?_
  cases Text.Utf8.textOf? nameBytes with
  | ok name => trivial
  | error fault => exact ⟨.nameNotUtf8 fault, rfl⟩

/-- An archive header is refused because of the bytes of its record. -/
theorem ArchiveHeader.ofRecord_eq_error {record : Record} {error : ArchiveError}
    (h : ofRecord record = .error error) : ∃ fault, error = .invalidData fault := by
  unfold ofRecord at h
  split at h
  next => exact ⟨_, (Except.error.inj h).symm⟩
  split at h
  next => exact ⟨_, (Except.error.inj h).symm⟩
  split at h
  next => exact ⟨_, (Except.error.inj h).symm⟩
  split at h
  next => cases h
  next => exact ⟨_, (Except.error.inj h).symm⟩

/-- Content is refused because of its bytes. -/
theorem EntryInfo.verify_eq_error {info : EntryInfo} {progress : EntryProgress}
    {error : ArchiveError} (h : info.verify progress = .error error) :
    ∃ fault, error = .invalidData fault := by
  unfold verify at h
  split at h
  next => exact ⟨_, (Except.error.inj h).symm⟩
  split at h
  next => exact ⟨_, (Except.error.inj h).symm⟩
  next => cases h

/-- A fault in the bytes is none of order. -/
theorem not_isOutOfOrder_of_invalidData {error : ArchiveError}
    (h : ∃ fault, error = .invalidData fault) : ¬ error.IsOutOfOrder := by
  obtain ⟨fault, rfl⟩ := h
  exact id

end Records

/-! ## Effects -/

/-- What a handle is used for. -/
inductive Use
  /-- Nothing yet. -/
  | idle
  /-- An archive is read. -/
  | reading
  /-- An archive is written, inside a payload or not. -/
  | writing (inPayload : Bool)

/-- The use of a handle, wherever it stands. -/
def Mode.use : Mode → Use
  | .idle => .idle
  | .reading _ => .reading
  | .writing .atAddedData => .writing true
  | .writing _ => .writing false

namespace HandleState

/-- **The entry is kept**: use, entry and places of the handle stay and so does a payload in writing,
and only the place inside the records changes. -/
structure KeepsEntry (first second : HandleState) : Prop where
  use : second.mode.use = first.mode.use
  pending? : second.pending? = first.pending?
  unpacker : second.unpacker = first.unpacker
  packer : second.packer = first.packer
  currentFile? : second.currentFile? = first.currentFile?

/-- A state keeps its own entry. -/
theorem KeepsEntry.refl (state : HandleState) : state.KeepsEntry state :=
  ⟨rfl, rfl, rfl, rfl, rfl⟩

/-- An entry that is kept twice is kept. -/
theorem KeepsEntry.trans {first second third : HandleState} (h : first.KeepsEntry second)
    (h' : second.KeepsEntry third) : first.KeepsEntry third where
  use := h'.use.trans h.use
  pending? := h'.pending?.trans h.pending?
  unpacker := h'.unpacker.trans h.unpacker
  packer := h'.packer.trans h.packer
  currentFile? := h'.currentFile?.trans h.currentFile?

/-- Inside an entry that is being read or written, or behind its content. -/
def IsAtEntry (state : HandleState) : Prop :=
  (∃ place, state.mode = .reading place) ∧
      (state.unpacker = .fileData ∨ state.unpacker = .afterFileData) ∨
    (∃ place, state.mode = .writing place) ∧
      (state.packer = .fileData ∨ state.packer = .afterFileData)

/-- **The metadata of an entry is known** exactly where there is one. -/
def Knows (state : HandleState) : Prop := state.currentFile?.isSome = true ↔ state.IsAtEntry

/-- **The use continues**: the handle is used as before, with the same payload in writing, and it
knows its entry if it did. -/
structure Continues (first second : HandleState) : Prop where
  use : second.mode.use = first.mode.use
  pending? : second.pending? = first.pending?
  knows : first.Knows → second.Knows

/-- A handle that goes on as before, twice, goes on as before. -/
theorem Continues.trans {first second third : HandleState} (h : first.Continues second)
    (h' : second.Continues third) : first.Continues third where
  use := h'.use.trans h.use
  pending? := h'.pending?.trans h.pending?
  knows := h'.knows ∘ h.knows

end HandleState

/-- A handle is used for reading in every mode of reading. -/
theorem Mode.use_eq_reading {mode : Mode} :
    mode.use = .reading ↔ ∃ place, mode = .reading place := by
  rcases mode with _ | _ | (_ | _ | _)
  all_goals simp [use]

/-- There is one mode for writing inside a payload. -/
theorem Mode.use_eq_writing {mode : Mode} :
    mode.use = .writing true ↔ mode = .writing .atAddedData := by
  rcases mode with _ | _ | (_ | _ | _)
  all_goals simp [use]

/-- A handle is used for writing in every mode of writing. -/
theorem Mode.exists_use_eq_writing {mode : Mode} :
    (∃ inPayload, mode.use = .writing inPayload) ↔ ∃ place, mode = .writing place := by
  rcases mode with _ | _ | (_ | _ | _)
  all_goals simp [use]

namespace HandleState

/-- Where the entry is kept, its metadata stay known. -/
theorem KeepsEntry.knows {first second : HandleState} (h : first.KeepsEntry second)
    (hfirst : first.Knows) : second.Knows := by
  have hentry : second.IsAtEntry ↔ first.IsAtEntry := by
    rw [IsAtEntry, IsAtEntry, ← Mode.use_eq_reading, ← Mode.use_eq_reading,
      ← Mode.exists_use_eq_writing, ← Mode.exists_use_eq_writing, h.use, h.unpacker, h.packer]
  rw [Knows, h.currentFile?, hentry]
  exact hfirst

/-- A state that keeps its entry goes on as before. -/
theorem KeepsEntry.continues {first second : HandleState} (h : first.KeepsEntry second) :
    first.Continues second := ⟨h.use, h.pending?, h.knows⟩

/-- A step inside the records. -/
theorem keepsEntry_moved {state : HandleState} (h : state.mode.use = .reading) (place : ReaderState)
    (incoming : IncomingPayload) (entry : EntryProgress) :
    state.KeepsEntry { state with mode := .reading place, incoming, entry } :=
  ⟨h.symm, rfl, rfl, rfl, rfl⟩

/-- Between two records, or inside a payload. -/
def IsPlaced (state : HandleState) : Prop :=
  state.mode = .reading .atAddedData ∨ state.mode = .reading .atRecordHeader

/-- While it reads, a handle knows its entry where the unpacking has come to it. -/
theorem knows_of_reading {state : HandleState} (hmode : state.mode.use = .reading)
    (h : state.currentFile?.isSome = true ↔
      state.unpacker = .fileData ∨ state.unpacker = .afterFileData) : state.Knows := by
  have hwriting : ¬ ∃ place, state.mode = .writing place := by
    rw [← Mode.exists_use_eq_writing, hmode]
    simp
  rw [Knows, IsAtEntry, ← Mode.use_eq_reading, h]
  simp [hmode, hwriting]

/-- While it reads, a handle that knows its entry has come to it. -/
theorem Knows.of_reading {state : HandleState} (h : state.Knows) (hmode : state.mode.use = .reading) :
    state.currentFile?.isSome = true ↔
      state.unpacker = .fileData ∨ state.unpacker = .afterFileData := by
  have hwriting : ¬ ∃ place, state.mode = .writing place := by
    rw [← Mode.exists_use_eq_writing, hmode]
    simp
  rw [Knows, IsAtEntry, ← Mode.use_eq_reading] at h
  simpa [hmode, hwriting] using h

/-- While it reads, a handle goes on to know its entry if metadata and place change together. -/
theorem continues_of_reading {first second : HandleState} (hfirst : first.mode.use = .reading)
    (hsecond : second.mode.use = .reading) (hpending : second.pending? = first.pending?)
    (h : (first.currentFile?.isSome = true ↔
        first.unpacker = .fileData ∨ first.unpacker = .afterFileData) →
      (second.currentFile?.isSome = true ↔
        second.unpacker = .fileData ∨ second.unpacker = .afterFileData)) :
    first.Continues second where
  use := hsecond.trans hfirst.symm
  pending? := hpending
  knows hknows := knows_of_reading hsecond (h (hknows.of_reading hfirst))

end HandleState

namespace Archive

/-- **The effect of a call** on a handle: what holds after a success, and of the state after a
failure. A failure for being out of order occurs only where a condition does not hold, and it leaves
the handle as it was. -/
def HasEffect (handle : Archive σ) (condition : Prop) (ok : α → Archive σ → Prop)
    (failed : HandleState → Prop) (result : EStateM.Result ArchiveError (Archive σ) α) : Prop :=
  Outcome ok (fun error final => failed final.state ∧
    (error.IsOutOfOrder → final = handle ∧ ¬ condition)) result

/-- A call has its effect also where it is the next one: it is in order, or nothing has happened
before. -/
theorem HasEffect.next {first middle : Archive σ} {condition condition' : Prop}
    {ok ok' : α → Archive σ → Prop} {failed failed' : HandleState → Prop}
    {result : EStateM.Result ArchiveError (Archive σ) α}
    (h : HasEffect middle condition ok failed result)
    (horder : condition ∨ middle = first ∧ (condition' → condition))
    (hok : ∀ value final, ok value final → ok' value final)
    (hfailed : ∀ state, failed state → failed' state) :
    HasEffect first condition' ok' failed' result := by
  refine h.mono hok fun error final hfinal => ⟨hfailed final.state hfinal.1, fun herror => ?_⟩
  obtain ⟨hsame, hcondition⟩ := hfinal.2 herror
  rcases horder with hholds | ⟨hfirst, hless⟩
  · exact absurd hholds hcondition
  · exact ⟨hsame.trans hfirst, fun h => hcondition (hless h)⟩

end Archive

end RecordArchive
