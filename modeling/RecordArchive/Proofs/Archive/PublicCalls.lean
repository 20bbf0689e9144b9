import RecordArchive.Proofs.Archive.Place
import RecordArchive.Proofs.Archive.Provenance
import RecordArchive.Proofs.Archive.ReadingEffects
import RecordArchive.Proofs.Archive.Recording
import RecordArchive.Proofs.Archive.WritingEffects

/-! # Calls out of order

A caller may make any call at any time. One that is out of order is refused, in many cases by a call
that it makes itself, after others.

* `HandleCall`: the calls of all layers.
* `ReaderCall.keepsUse`, `UnpackerCall.keepsUse`: the calls that read keep the use of the handle.
* `HandleCall.inert`: a call that is refused has touched neither the stream nor the state of the
  handle, whatever state that was in. -/

namespace RecordArchive

open Program Call Archive

variable {σ ι τ : Type}

/-- A call of the packer, where content that is copied comes from a stream of the caller. -/
inductive PackerCall (ι : Type)
  /-- Writes the archive header. -/
  | initArchive
  /-- Writes a file header and opens its content. -/
  | beginFile (info : EntryInfo)
  /-- Copies a stream into the open content. -/
  | insertFileData (input : ι)
  /-- Seals the open content. -/
  | endFile
  /-- Writes a whole entry. -/
  | addFile (info : EntryInfo) (content : List UInt8)

/-- The call on a handle. -/
def PackerCall.run [ByteSource ι] [ByteSink σ] [Seekable σ] : PackerCall ι → Call σ Unit
  | initArchive => Archive.initArchive
  | beginFile info => Archive.beginFile info
  | insertFileData input => CallWith.withValue ⟨input, 0⟩ Archive.insertFileData
  | endFile => Archive.endFile
  | addFile info content => Archive.addFile info content

/-- A call on a handle, of whatever layer. -/
inductive HandleCall (ι τ : Type)
  /-- Turns the handle to reading. -/
  | startReading
  /-- Turns the handle to writing. -/
  | startWriting
  /-- Writes the marker. -/
  | writeMarker
  /-- A call of the reader. -/
  | reader (call : ReaderCall)
  /-- A call of the writer. -/
  | writer (call : WriterCall)
  /-- A call of the unpacker. -/
  | unpacker (call : UnpackerCall τ)
  /-- A call of the packer. -/
  | packer (call : PackerCall ι)

namespace HandleCall

/-- The call on a handle, whatever value it gives. -/
def run [ByteSource ι] [ByteSink τ] [ByteSource σ] [ByteSink σ] [Seekable σ] :
    HandleCall ι τ → Call σ Unit
  | startReading => Archive.startReading
  | startWriting => Archive.startWriting
  | writeMarker => Archive.writeMarker
  | reader call => call.run
  | writer call => call.run
  | unpacker call => call.run
  | packer call => call.run

end HandleCall

/-! ## One call -/

/-- **A call that is refused** as out of order leaves the handle as it was. -/
def IsInert (handle : Archive σ) (result : EStateM.Result ArchiveError (Archive σ) Unit) : Prop :=
  Outcome (fun _ _ => True) (fun error final => error.IsOutOfOrder → final = handle) result

/-- A call with a known effect changes nothing where it is refused. -/
theorem Archive.HasEffect.isInert {handle : Archive σ} {condition : Prop}
    {ok : Unit → Archive σ → Prop} {failed : HandleState → Prop}
    {result : EStateM.Result ArchiveError (Archive σ) Unit}
    (h : HasEffect handle condition ok failed result) : IsInert handle result :=
  h.mono (fun _ _ _ => trivial) fun _ _ hfinal herror => (hfinal.2 herror).1

/-- The effect of a call that keeps the use of the handle. -/
def KeepsUse (handle : Archive σ) (result : EStateM.Result ArchiveError (Archive σ) Unit) : Prop :=
  HasEffect handle False (fun _ final => handle.state.Continues final.state) handle.state.Continues
    result

/-- **A call of the reader** keeps the use of the handle. -/
theorem ReaderCall.keepsUse [ByteSource σ] (call : ReaderCall) (handle : Archive σ) :
    KeepsUse handle (call.run handle) := by
  cases call with
  | findMarker =>
    refine outcome_of_dropped ((effect_findMarker handle).next (.inr ⟨rfl, False.elim⟩) ?_
      fun _ h => h.continues)
    exact fun _ _ hfinal => hfinal.1.continues
  | readRecord =>
    refine outcome_of_dropped ((effect_readRecord handle).next (.inr ⟨rfl, False.elim⟩) ?_
      fun _ h => h.continues)
    rintro record ⟨stream, _⟩ ⟨hmode, rfl⟩
    have hreading : handle.state.mode.use = .reading := Mode.use_eq_reading.mpr ⟨_, hmode⟩
    exact (HandleState.keepsEntry_moved hreading _ _ handle.state.entry).continues
  | skipRecord =>
    exact (effect_skipRecord handle).next (.inr ⟨rfl, False.elim⟩)
      (fun _ _ hfinal => hfinal.1.continues) fun _ h => h.continues
  | readAddedData count =>
    refine outcome_of_dropped ((effect_readAddedData count handle).next (.inr ⟨rfl, False.elim⟩) ?_
      fun _ h => h.continues)
    exact fun _ _ hfinal => hfinal.1.continues

/-- **A call of the unpacker** keeps the use of the handle. -/
theorem UnpackerCall.keepsUse [ByteSource σ] [ByteSink τ] (call : UnpackerCall τ)
    (handle : Archive σ) : KeepsUse handle (call.run handle) := by
  cases call with
  | readArchiveHeader => exact outcome_of_dropped (effect_readArchiveHeader handle)
  | currentFileInfo =>
    refine outcome_of_dropped ((effect_currentFileInfo handle).next (.inr ⟨rfl, False.elim⟩) ?_
      fun _ h => h.continues)
    exact fun _ _ hfinal => hfinal.1
  | readFileData count =>
    refine outcome_of_dropped ((effect_readFileData count handle).next (.inr ⟨rfl, False.elim⟩) ?_
      fun _ h => h.continues)
    exact fun _ _ hfinal => hfinal.1
  | extract sink =>
    refine CallWith.outcome_withValue ((effect_extract ⟨sink, 0⟩ handle).mono ?_ ?_)
    · exact fun _ _ hfinal => hfinal
    · exact fun _ _ hfinal => ⟨hfinal.1, fun herror => ⟨hfinal.2 herror, id⟩⟩
  | skipFile => exact effect_skipFile handle

section Writing

variable [ByteSink σ] [Seekable σ]

/-- **A call of the writer** that is refused changes nothing. -/
theorem WriterCall.isInert (call : WriterCall) (handle : Archive σ) :
    IsInert handle (call.run handle) := by
  cases call with
  | start record => exact (effect_writeRecord record handle).isInert
  | startStreamed record => exact (effect_startStreamedRecord record handle).isInert
  | whole record payload =>
    exact (effect_writeRecordWithAddedData record payload.bytes handle).isInert
  | append chunk => exact (effect_writeAddedData chunk handle).isInert
  | finish => exact (hasEffect_finishAddedData handle).isInert
  | flush =>
    refine (effect_flushStream handle.stream handle.state).mono (fun _ _ _ => trivial) ?_
    rintro _ _ ⟨-, cause, rfl⟩
    exact nofun

/-- **A call of the packer** that is refused changes nothing. -/
theorem PackerCall.isInert [ByteSource ι] (call : PackerCall ι) (handle : Archive σ) :
    IsInert handle (call.run handle) := by
  cases call with
  | initArchive => exact (effect_initArchive handle).isInert
  | beginFile info => exact (effect_beginFile info handle).isInert
  | insertFileData input =>
    exact CallWith.outcome_withValue ((outcome_insertFileData input handle).mono
      (fun _ _ _ => trivial) fun _ _ hfinal => hfinal.2)
  | endFile => exact (effect_endFile handle).isInert
  | addFile info content => exact (effect_addFile info content handle).isInert

end Writing

section Handle

variable [ByteSource ι] [ByteSink τ] [ByteSource σ] [ByteSink σ] [Seekable σ]

/-- **Every call** that is refused as out of order changes nothing. -/
theorem HandleCall.isInert (call : HandleCall ι τ) (handle : Archive σ) :
    IsInert handle (call.run handle) := by
  cases call with
  | startReading =>
    exact (effect_startReading handle).mono (fun _ _ _ => trivial)
      fun _ _ hfinal herror => (hfinal.2 herror).1
  | startWriting =>
    exact (effect_startWriting handle).mono (fun _ _ _ => trivial)
      fun _ _ hfinal herror => absurd herror hfinal.2.2
  | writeMarker => exact (effect_writeMarker handle).isInert
  | reader call => exact (call.keepsUse handle).isInert
  | writer call => exact call.isInert handle
  | unpacker call => exact (call.keepsUse handle).isInert
  | packer call => exact call.isInert handle

omit [ByteSource σ] in
/-- Closing a handle that keeps what sealing needs is never out of order. -/
theorem Archive.close_ne_invalidState {handle : Archive σ} (hkeeps : handle.state.KeepsPending)
    (name : String) : close handle ≠ .error (.invalidState name) := by
  unfold close
  have hfinish := effect_finishWriting handle
  cases hrun : finishWriting handle with
  | ok _ final => simp
  | error error final =>
    have herror := (hfinish.of_error hrun).2
    rintro heq
    cases heq
    exact (herror trivial).2 hkeeps

/-- **A call out of order is inert**: on any stream and in any state, a call of any layer that fails
for being out of order leaves the stream, its place, and all of the state of the handle as they were.
Closing a handle never fails so, if what sealing needs is kept exactly inside payloads, as it is by every
handle in use. -/
theorem HandleCall.inert (handle : Archive σ) :
    (∀ (call : HandleCall ι τ) (name : String) (final : Archive σ),
      call.run handle = .error (.invalidState name) final → final = handle) ∧
    (handle.state.KeepsPending → ∀ name, close handle ≠ .error (.invalidState name)) :=
  ⟨fun call _ _ hrun => (call.isInert handle).of_error hrun trivial, Archive.close_ne_invalidState⟩

end Handle

/-! ### A call that is refused inside -/

/-- A handle inside a fragment that could not be read, where the content of an entry should go on. -/
def halted : Archive FaultyStream :=
  ⟨⟨.ofList quartet.toBytes, {}⟩,
    { mode := .reading .atRecordData
      unpacker := .fileData
      entry := { continued := true }
      currentFile? := some (EntryInfo.regular "a") }⟩

/-- There skipping the entry is refused by the call that should read the next record, and the handle can
be closed. -/
theorem HandleCall.inert_halted : (∃ final,
    (HandleCall.unpacker .skipFile : HandleCall (List UInt8) BoundedSink).run halted
      = .error (.invalidState "read_record") final ∧ final = halted) ∧
    halted.state.KeepsPending ∧ close halted ≠ .error (.invalidState "finish_added_data") := by
  have hrun : (HandleCall.unpacker .skipFile : HandleCall (List UInt8) BoundedSink).run halted
      = .error (.invalidState "read_record") halted := by
    cbv
  have hkeeps : halted.state.KeepsPending := HandleState.keepsPending_of_none rfl (by decide)
  obtain ⟨hinert, hclose⟩ := HandleCall.inert (ι := List UInt8) (τ := BoundedSink) halted
  exact ⟨⟨halted, hrun, hinert _ _ _ hrun⟩, hkeeps, hclose hkeeps _⟩

end RecordArchive
