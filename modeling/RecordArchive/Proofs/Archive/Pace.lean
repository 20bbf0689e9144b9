import Mathlib
import RecordArchive.Proofs.Archive.CutArchive
import RecordArchive.Proofs.Archive.PacedCopy
import RecordArchive.Proofs.Archive.Stranded
import RecordArchive.Proofs.Stream.Faults

/-! # Calls at any pace

The same script of calls is made on two handles whose streams pace the same one, with inputs and sinks
that pace the same ones.

* `Reply` is all that a caller is given: the value or the error, and what is left of the record or the
  sink that went into the call.
* `HandleCall.replyAlike`: each call gives the same reply on streams that are read and written alike.
* `HandleCall.stepAlike`: **each call** but a copy into the archive gives the same reply and leaves
  handles in the same state.
* `RunsAlike` and `HandleCall.runsAlike`: so does **every script**, up to the first copy that the stream
  cuts short.
* `HandleCall.pace_shows`: behind such a copy the pace shows. -/

namespace RecordArchive

open Program Call Archive

variable {σ σ' δ ι ι' κ τ τ' ω : Type}

/-! ## Replies -/

/-- The value of a call. -/
inductive Answer
  /-- The call gives no value. -/
  | done
  /-- A number of bytes. -/
  | count (bytes : Nat)
  /-- Bytes. -/
  | bytes (content : List UInt8)
  /-- A record. -/
  | record (record : Record)
  /-- An archive header. -/
  | header (header : ArchiveHeader)
  /-- The metadata of an entry. -/
  | info (info : EntryInfo)

/-- What a call has made of the value of its caller. -/
inductive Remainder (τ : Type)
  /-- There is none. -/
  | nothing
  /-- The record that was to be written. -/
  | record (record : Record)
  /-- The sink that was copied to. -/
  | sink (sink : τ)

/-- What a caller is given. -/
structure Reply (τ : Type) where
  result : Except ArchiveError Answer
  remainder : Remainder τ

/-- The reply of a call, and the handle behind it. -/
def Call.reply {α : Type} (call : Call σ α) (answer : α → Answer) (handle : Archive σ) :
    Reply τ × Archive σ :=
  match call handle with
  | .ok value final => (⟨.ok (answer value), .nothing⟩, final)
  | .error error final => (⟨.error error, .nothing⟩, final)

/-- The reply of a call that works on a value of its caller, and the handle behind it. -/
def CallWith.reply {ρ : Type} (value : ρ) (call : CallWith ρ σ Unit) (answer : ρ → Answer)
    (remainder : ρ → Remainder τ) (handle : Archive σ) : Reply τ × Archive σ :=
  match call (value, handle) with
  | .ok () (value, final) => (⟨.ok (answer value), remainder value⟩, final)
  | .error error (value, final) => (⟨.error error, remainder value⟩, final)

/-- The reply to a call of the reader. -/
def ReaderCall.reply [ByteSource σ] : ReaderCall → Archive σ → Reply τ × Archive σ
  | findMarker => Call.reply Archive.findMarker .count
  | readRecord => Call.reply Archive.readRecord .record
  | skipRecord => Call.reply Archive.skipRecord fun _ => .done
  | readAddedData count => Call.reply (Archive.readAddedData count) .bytes

/-- The reply to a call of the writer. -/
def WriterCall.reply [ByteSink σ] [Seekable σ] : WriterCall → Archive σ → Reply τ × Archive σ
  | start record => CallWith.reply record writeRecord (fun _ => .done) .record
  | startStreamed record => CallWith.reply record startStreamedRecord (fun _ => .done) .record
  | whole record payload =>
    CallWith.reply record (writeRecordWithAddedData payload.bytes) (fun _ => .done) .record
  | append chunk => Call.reply (writeAddedData chunk) fun _ => .done
  | finish => Call.reply finishAddedData fun _ => .done
  | flush => Call.reply flushStream fun _ => .done

/-- The reply to a call of the unpacker. -/
def UnpackerCall.reply [ByteSource σ] [ByteSink τ] :
    UnpackerCall τ → Archive σ → Reply τ × Archive σ
  | readArchiveHeader => Call.reply Archive.readArchiveHeader .header
  | currentFileInfo => Call.reply Archive.currentFileInfo .info
  | readFileData count => Call.reply (Archive.readFileData count) .bytes
  | extract sink => CallWith.reply ⟨sink, 0⟩ Archive.extract (fun copy => .count copy.total)
      fun copy => .sink copy.stream
  | skipFile => Call.reply Archive.skipFile fun _ => .done

/-- The reply to a call of the packer. -/
def PackerCall.reply [ByteSource ι] [ByteSink σ] [Seekable σ] :
    PackerCall ι → Archive σ → Reply τ × Archive σ
  | initArchive => Call.reply Archive.initArchive fun _ => .done
  | beginFile info => Call.reply (Archive.beginFile info) fun _ => .done
  | insertFileData input => CallWith.reply ⟨input, 0⟩ Archive.insertFileData
      (fun copy => .count copy.total) fun _ => .nothing
  | endFile => Call.reply Archive.endFile fun _ => .done
  | addFile info content => Call.reply (Archive.addFile info content) fun _ => .done

/-- The reply to a call. -/
def HandleCall.reply [ByteSource ι] [ByteSink τ] [ByteSource σ] [ByteSink σ] [Seekable σ] :
    HandleCall ι τ → Archive σ → Reply τ × Archive σ
  | startReading => Call.reply Archive.startReading fun _ => .done
  | startWriting => Call.reply Archive.startWriting fun _ => .done
  | writeMarker => Call.reply Archive.writeMarker fun _ => .done
  | reader call => call.reply
  | writer call => call.reply
  | unpacker call => call.reply
  | packer call => call.reply

section Handle

variable {handle : Archive σ}

/-- The handle behind a reply is the one that the call leaves. -/
theorem Call.snd_reply (call : Call σ Unit) (answer : Unit → Answer) :
    (Call.reply call answer handle : Reply τ × Archive σ).2 = match call handle with
      | .ok _ final => final
      | .error _ final => final := by
  unfold Call.reply
  cases call handle <;> rfl

/-- The handle behind a reply is the one that the call leaves, whatever value it gives. -/
theorem Call.snd_reply_dropped {α : Type} (call : Call σ α) (answer : α → Answer) :
    (Call.reply call answer handle : Reply τ × Archive σ).2
      = match (do let _ ← call; pure () : Call σ Unit) handle with
        | .ok _ final => final
        | .error _ final => final := by
  unfold Call.reply
  rw [bind_apply]
  cases call handle <;> rfl

/-- The handle behind a reply is the one that a call beside a value leaves. -/
theorem CallWith.snd_reply {ρ : Type} (value : ρ) (call : CallWith ρ σ Unit) (answer : ρ → Answer)
    (remainder : ρ → Remainder τ) :
    (CallWith.reply value call answer remainder handle).2
      = match CallWith.withValue value call handle with
        | .ok _ final => final
        | .error _ final => final := by
  unfold CallWith.reply CallWith.withValue
  cases call (value, handle) <;> rfl

/-- The handle behind a reply is the one that the call leaves. -/
theorem HandleCall.snd_reply [ByteSource ι] [ByteSink τ] [ByteSource σ] [ByteSink σ] [Seekable σ]
    (call : HandleCall ι τ) : (call.reply handle).2 = call.after handle := by
  cases call with
  | startReading => exact Call.snd_reply _ _
  | startWriting => exact Call.snd_reply _ _
  | writeMarker => exact Call.snd_reply _ _
  | reader call =>
    cases call with
    | skipRecord => exact Call.snd_reply _ _
    | _ => exact Call.snd_reply_dropped _ _
  | writer call =>
    cases call with
    | start record => exact CallWith.snd_reply _ _ _ _
    | startStreamed record => exact CallWith.snd_reply _ _ _ _
    | whole record payload => exact CallWith.snd_reply _ _ _ _
    | _ => exact Call.snd_reply _ _
  | unpacker call =>
    cases call with
    | extract sink => exact CallWith.snd_reply _ _ _ _
    | skipFile => exact Call.snd_reply _ _
    | _ => exact Call.snd_reply_dropped _ _
  | packer call =>
    cases call with
    | insertFileData input => exact CallWith.snd_reply _ _ _ _
    | _ => exact Call.snd_reply _ _

end Handle

/-! ## Replies that are alike -/

/-- The same is left to both callers, sinks that are related included. -/
inductive Remainder.Alike (sinks : τ → τ' → Prop) : Remainder τ → Remainder τ' → Prop
  | nothing : Alike sinks .nothing .nothing
  | record (record : Record) : Alike sinks (.record record) (.record record)
  | sink {sink : τ} {sink' : τ'} (h : sinks sink sink') : Alike sinks (.sink sink) (.sink sink')

/-- The same reply, and handles in the same state. -/
structure StepAlike (sinks : τ → τ' → Prop) (streams : σ → σ' → Prop)
    (first : Reply τ × Archive σ) (second : Reply τ' × Archive σ') : Prop where
  result : first.1.result = second.1.result
  remainder : first.1.remainder.Alike sinks second.1.remainder
  handle : Related streams first.2 second.2

variable {sinks : τ → τ' → Prop} {streams : σ → σ' → Prop} {inputs : ι → ι' → Prop}
  {handle : Archive σ} {handle' : Archive σ'}

/-- Calls that simulate each other give the same reply. -/
theorem Call.stepAlike {α : Type} {call : Call σ α} {call' : Call σ' α}
    (h : Simulates (Related streams) call call') (answer : α → Answer)
    (hhandle : Related streams handle handle') :
    StepAlike sinks streams (Call.reply call answer handle) (Call.reply call' answer handle') := by
  have hrun := h handle handle' hhandle
  unfold Call.reply
  revert hrun
  generalize call handle = result
  generalize call' handle' = result'
  rintro (⟨hfinal⟩ | ⟨hfinal⟩)
  · exact ⟨rfl, .nothing, hfinal⟩
  · exact ⟨rfl, .nothing, hfinal⟩

/-- Calls beside values of their callers that simulate each other give the same reply if the values
are alike. -/
theorem CallWith.stepAlike {ρ ρ' : Type} {values : ρ → ρ' → Prop} {call : CallWith ρ σ Unit}
    {call' : CallWith ρ' σ' Unit} (h : Simulates (Paired values streams) call call')
    {answer : ρ → Answer} {answer' : ρ' → Answer} {remainder : ρ → Remainder τ}
    {remainder' : ρ' → Remainder τ'} (hanswer : ∀ value value', values value value' →
      answer value = answer' value' ∧ (remainder value).Alike sinks (remainder' value'))
    {value : ρ} {value' : ρ'} (hvalue : values value value')
    (hhandle : Related streams handle handle') :
    StepAlike sinks streams (CallWith.reply value call answer remainder handle)
      (CallWith.reply value' call' answer' remainder' handle') := by
  have hrun := h (value, handle) (value', handle') ⟨hvalue, hhandle⟩
  unfold CallWith.reply
  revert hrun
  generalize call (value, handle) = result
  generalize call' (value', handle') = result'
  rintro (⟨hfinal⟩ | ⟨hfinal⟩)
  · obtain ⟨heq, hleft⟩ := hanswer _ _ hfinal.value
    exact ⟨congrArg Except.ok heq, hleft, hfinal.archive⟩
  · exact ⟨rfl, (hanswer _ _ hfinal.value).2, hfinal.archive⟩

/-- A record is completed alike. -/
theorem CallWith.stepAlike_record {call : CallWith Record σ Unit} {call' : CallWith Record σ' Unit}
    (h : Simulates (Paired Eq streams) call call') (record : Record)
    (hhandle : Related streams handle handle') :
    StepAlike sinks streams (CallWith.reply record call (fun _ => .done) .record handle)
      (CallWith.reply record call' (fun _ => .done) .record handle') := by
  refine CallWith.stepAlike h ?_ rfl hhandle
  rintro value _ rfl
  exact ⟨rfl, .record value⟩

/-- **A call of the reader** gives the same on streams that are read alike. -/
theorem ReaderCall.stepAlike [ByteSource σ] [ByteSource σ'] (h : ReadsAlike streams)
    (call : ReaderCall) (hhandle : Related streams handle handle') :
    StepAlike sinks streams (call.reply handle) (call.reply handle') := by
  cases call with
  | findMarker => exact Call.stepAlike (simulates_findMarker h) _ hhandle
  | readRecord => exact Call.stepAlike (simulates_readRecord h) _ hhandle
  | skipRecord => exact Call.stepAlike (simulates_skipRecord h) _ hhandle
  | readAddedData count => exact Call.stepAlike (simulates_readAddedData h count) _ hhandle

/-- **A call of the writer** gives the same on streams that are written alike. -/
theorem WriterCall.stepAlike [ByteSink σ] [Seekable σ] [ByteSink σ'] [Seekable σ']
    (h : WritesAlike streams) (call : WriterCall) (hhandle : Related streams handle handle') :
    StepAlike sinks streams (call.reply handle) (call.reply handle') := by
  cases call with
  | start record => exact CallWith.stepAlike_record (simulates_writeRecord h) record hhandle
  | startStreamed record =>
    exact CallWith.stepAlike_record (simulates_startStreamedRecord h) record hhandle
  | whole record payload =>
    exact CallWith.stepAlike_record (simulates_writeRecordWithAddedData h _) record hhandle
  | append chunk => exact Call.stepAlike (simulates_writeAddedData h chunk) _ hhandle
  | finish => exact Call.stepAlike (simulates_finishAddedData h) _ hhandle
  | flush => exact Call.stepAlike (simulates_flushStream h) _ hhandle

/-- The same call of the unpacker, with sinks that are related. -/
inductive UnpackerCall.Alike (sinks : τ → τ' → Prop) : UnpackerCall τ → UnpackerCall τ' → Prop
  | readArchiveHeader : Alike sinks .readArchiveHeader .readArchiveHeader
  | currentFileInfo : Alike sinks .currentFileInfo .currentFileInfo
  | readFileData (count : Nat) : Alike sinks (.readFileData count) (.readFileData count)
  | extract {sink : τ} {sink' : τ'} (h : sinks sink sink') :
    Alike sinks (.extract sink) (.extract sink')
  | skipFile : Alike sinks .skipFile .skipFile

/-- **A call of the unpacker** gives the same on streams that are read alike, with sinks that are
written alike. -/
theorem UnpackerCall.stepAlike [ByteSource σ] [ByteSource σ'] [ByteSink τ] [ByteSink τ']
    (h : ReadsAlike streams) (hsinks : ∀ bytes, Simulates sinks (writeAll bytes) (writeAll bytes))
    {call : UnpackerCall τ} {call' : UnpackerCall τ'} (hcall : call.Alike sinks call')
    (hhandle : Related streams handle handle') :
    StepAlike sinks streams (call.reply handle) (call'.reply handle') := by
  cases hcall with
  | readArchiveHeader => exact Call.stepAlike (simulates_readArchiveHeader h) _ hhandle
  | currentFileInfo => exact Call.stepAlike (simulates_currentFileInfo h) _ hhandle
  | readFileData count => exact Call.stepAlike (simulates_readFileData h count) _ hhandle
  | skipFile => exact Call.stepAlike (simulates_skipFile h) _ hhandle
  | extract hsink =>
    refine CallWith.stepAlike (simulates_extractTo h (simulates_deliver_of_writeAll hsinks)) ?_
      ⟨hsink, rfl⟩ hhandle
    rintro copy copy' ⟨hstream, htotal⟩
    exact ⟨congrArg Answer.count htotal, .sink hstream⟩

/-- The same call of the packer, with inputs that are related. -/
inductive PackerCall.Alike (inputs : ι → ι' → Prop) : PackerCall ι → PackerCall ι' → Prop
  | initArchive : Alike inputs .initArchive .initArchive
  | beginFile (info : EntryInfo) : Alike inputs (.beginFile info) (.beginFile info)
  | insertFileData {input : ι} {input' : ι'} (h : inputs input input') :
    Alike inputs (.insertFileData input) (.insertFileData input')
  | endFile : Alike inputs .endFile .endFile
  | addFile (info : EntryInfo) (content : List UInt8) :
    Alike inputs (.addFile info content) (.addFile info content)

/-- The same call, with inputs and sinks that are related. -/
inductive HandleCall.Alike (inputs : ι → ι' → Prop) (sinks : τ → τ' → Prop) :
    HandleCall ι τ → HandleCall ι' τ' → Prop
  | startReading : Alike inputs sinks .startReading .startReading
  | startWriting : Alike inputs sinks .startWriting .startWriting
  | writeMarker : Alike inputs sinks .writeMarker .writeMarker
  | reader (call : ReaderCall) : Alike inputs sinks (.reader call) (.reader call)
  | writer (call : WriterCall) : Alike inputs sinks (.writer call) (.writer call)
  | unpacker {call : UnpackerCall τ} {call' : UnpackerCall τ'} (h : call.Alike sinks call') :
    Alike inputs sinks (.unpacker call) (.unpacker call')
  | packer {call : PackerCall ι} {call' : PackerCall ι'} (h : call.Alike inputs call') :
    Alike inputs sinks (.packer call) (.packer call')

/-! ## One call -/

/-- **One call** on streams that are read and written alike gives the same reply. -/
theorem HandleCall.replyAlike [ByteSource ι] [ByteSink τ] [ByteSource σ] [ByteSink σ] [Seekable σ]
    [ByteSource σ'] [ByteSink σ'] [Seekable σ'] (hreads : ReadsAlike streams)
    (hwrites : WritesAlike streams) (call : HandleCall ι τ) (hhandle : Related streams handle handle') :
    StepAlike Eq streams (call.reply handle) (call.reply handle') := by
  cases call with
  | startReading => exact Call.stepAlike (simulates_startReading hwrites) _ hhandle
  | startWriting => exact Call.stepAlike (simulates_startWriting hwrites) _ hhandle
  | writeMarker => exact Call.stepAlike (simulates_writeMarker hwrites) _ hhandle
  | reader call => exact call.stepAlike hreads hhandle
  | writer call => exact call.stepAlike hwrites hhandle
  | unpacker call =>
    have hcall : call.Alike Eq call := by
      cases call with
      | readArchiveHeader => exact .readArchiveHeader
      | currentFileInfo => exact .currentFileInfo
      | readFileData count => exact .readFileData count
      | extract sink => exact .extract rfl
      | skipFile => exact .skipFile
    exact UnpackerCall.stepAlike hreads (fun bytes => .refl (writeAll bytes)) hcall hhandle
  | packer call =>
    cases call with
    | initArchive => exact Call.stepAlike (simulates_initArchive hwrites) _ hhandle
    | beginFile info => exact Call.stepAlike (simulates_beginFile hwrites info) _ hhandle
    | insertFileData input =>
      refine CallWith.stepAlike (simulates_insertFileData hwrites) ?_ rfl hhandle
      rintro copy _ rfl
      exact ⟨rfl, .nothing⟩
    | endFile => exact Call.stepAlike (simulates_endFile hwrites) _ hhandle
    | addFile info content => exact Call.stepAlike (simulates_addFile hwrites info content) _ hhandle

/-- The replies of two copies that the stream cuts short with the same error. -/
structure StepTorn (streams : σ → σ' → Prop) (first : Reply τ × Archive σ)
    (second : Reply τ' × Archive σ') : Prop where
  result : ∃ error, first.1.result = .error (.write error) ∧ second.1.result = .error (.write error)
  handle : Torn streams first.2 second.2

/-- Copies that agree up to the account give the same reply, or are torn. -/
theorem stepAlike_or_stepTorn [ByteSource ι] [ByteSource ι'] [ByteSink σ] [Seekable σ]
    [ByteSink σ'] [Seekable σ'] {input : ι} {input' : ι'}
    (h : AgreeUpTo streams (insertFileData ((⟨input, 0⟩ : CopySource ι), handle))
      (insertFileData ((⟨input', 0⟩ : CopySource ι'), handle'))) :
    StepAlike sinks streams ((PackerCall.insertFileData input).reply handle)
        ((PackerCall.insertFileData input').reply handle') ∨
      StepTorn streams ((PackerCall.insertFileData input).reply handle : Reply τ × Archive σ)
        ((PackerCall.insertFileData input').reply handle' : Reply τ' × Archive σ') := by
  unfold PackerCall.reply CallWith.reply
  dsimp only
  revert h
  generalize insertFileData ((⟨input, 0⟩ : CopySource ι), handle) = result
  generalize insertFileData ((⟨input', 0⟩ : CopySource ι'), handle') = result'
  rintro ((⟨h⟩ | ⟨h⟩) | ⟨h⟩)
  · exact .inl ⟨congrArg (fun total => Except.ok (Answer.count total)) h.total, .nothing, h.archive⟩
  · exact .inl ⟨rfl, .nothing, h.archive⟩
  · exact .inr ⟨⟨_, rfl, rfl⟩, h⟩

/-- A copy keeps the open payload below 4 GiB. -/
def HandleCall.StaysSmall [ByteSource ι] (handle : Archive σ) : HandleCall ι τ → Prop
  | .packer (.insertFileData input) => handle.streamedLength
      + (ByteSource.offered handle.state.options.copySize input).length < UInt32.size
  | _ => True

section Paces

variable [ByteSource ι] [ByteSource ι'] [ByteSource κ] [ByteSink τ] [ByteSink τ'] [ByteSink ω]
  [ByteSource σ] [ByteSink σ] [Seekable σ] [ByteSource σ'] [ByteSink σ'] [Seekable σ']
  [ByteSource δ] [ByteSink δ] [Seekable δ]
  {shown : σ → MemoryStream} {shown' : σ' → MemoryStream} {common : δ → MemoryStream}
  {paces : σ → δ → Prop} {paces' : σ' → δ → Prop} {inputs : ι → κ → Prop} {inputs' : ι' → κ → Prop}
  {sinks : τ → ω → Prop} {sinks' : τ' → ω → Prop}

/-- **One call** at two paces: the same reply, and handles in the same state on streams at pace, or a
copy into the archive that the streams cut short. -/
theorem HandleCall.stepAlike (hstream : IsPacedStorage shown common paces)
    (hstream' : IsPacedStorage shown' common paces') (hinput : IsPacedSource inputs)
    (hinput' : IsPacedSource inputs') (hsink : IsPacedSink sinks) (hsink' : IsPacedSink sinks')
    {call : HandleCall ι τ} {call' : HandleCall ι' τ'}
    (hcall : call.Alike (InPace inputs inputs') (InPace sinks sinks') call')
    (hhandle : Related (InPace paces paces') handle handle') (hsmall : call.StaysSmall handle) :
    StepAlike (InPace sinks sinks') (InPace paces paces') (call.reply handle) (call'.reply handle') ∨
      ∃ input input', call = .packer (.insertFileData input) ∧
        call' = .packer (.insertFileData input') ∧
        StepTorn (InPace paces paces') (call.reply handle) (call'.reply handle') := by
  have hreads := hstream.toIsPacedSource.readsAlike hstream'.toIsPacedSource
  have hwrites := hstream.writesAlike hstream'
  cases hcall with
  | startReading => exact .inl (Call.stepAlike (simulates_startReading hwrites) _ hhandle)
  | startWriting => exact .inl (Call.stepAlike (simulates_startWriting hwrites) _ hhandle)
  | writeMarker => exact .inl (Call.stepAlike (simulates_writeMarker hwrites) _ hhandle)
  | reader call => exact .inl (call.stepAlike hreads hhandle)
  | writer call => exact .inl (call.stepAlike hwrites hhandle)
  | unpacker hcall =>
    exact .inl (UnpackerCall.stepAlike hreads (hsink.simulates_writeAll_inPace hsink') hcall hhandle)
  | packer hcall =>
    cases hcall with
    | initArchive => exact .inl (Call.stepAlike (simulates_initArchive hwrites) _ hhandle)
    | beginFile info => exact .inl (Call.stepAlike (simulates_beginFile hwrites info) _ hhandle)
    | endFile => exact .inl (Call.stepAlike (simulates_endFile hwrites) _ hhandle)
    | addFile info content =>
      exact .inl (Call.stepAlike (simulates_addFile hwrites info content) _ hhandle)
    | insertFileData hsource =>
      refine (stepAlike_or_stepTorn (agreeUpTo_insertFileData hinput hinput' hstream.toIsPacedSink
        hstream'.toIsPacedSink hsource hhandle hsmall)).imp id fun htorn => ?_
      exact ⟨_, _, rfl, rfl, htorn⟩

end Paces

/-! ## Scripts -/

/-- Closing the handles gives the same error, or related streams. -/
def ClosesAlike [ByteSink σ] [Seekable σ] [ByteSink σ'] [Seekable σ'] (streams : σ → σ' → Prop)
    (handle : Archive σ) (handle' : Archive σ') : Prop :=
  (∃ error, close handle = .error error ∧ close handle' = .error error) ∨
    ∃ final final', close handle = .ok final ∧ close handle' = .ok final' ∧ streams final final'

section Scripts

variable [ByteSource ι] [ByteSink τ] [ByteSource σ] [ByteSink σ] [Seekable σ]

/-- Every copy of a script keeps the open payload below 4 GiB. -/
def HandleCall.StaySmall : List (HandleCall ι τ) → Archive σ → Prop
  | [], _ => True
  | call :: calls, handle => call.StaysSmall handle ∧ StaySmall calls (call.after handle)

variable [ByteSource ι'] [ByteSink τ'] [ByteSource σ'] [ByteSink σ'] [Seekable σ']

/-- **Two runs of a script agree**: every call gives the same reply and leaves handles in the same state
on related streams, up to a copy that the streams cut short, which still fails with the same error and
leaves related streams, and differs in the account of the payload only. -/
inductive RunsAlike (sinks : τ → τ' → Prop) (streams : σ → σ' → Prop) :
    List (HandleCall ι τ) → Archive σ → List (HandleCall ι' τ') → Archive σ' → Prop
  /-- The script has ended; the handles may be closed. -/
  | done {handle : Archive σ} {handle' : Archive σ'} (h : ClosesAlike streams handle handle') :
    RunsAlike sinks streams [] handle [] handle'
  /-- One more call. -/
  | next {call : HandleCall ι τ} {call' : HandleCall ι' τ'} {calls : List (HandleCall ι τ)}
    {calls' : List (HandleCall ι' τ')} {handle : Archive σ} {handle' : Archive σ'}
    (h : StepAlike sinks streams (call.reply handle) (call'.reply handle'))
    (hrest : RunsAlike sinks streams calls (call.after handle) calls' (call'.after handle')) :
    RunsAlike sinks streams (call :: calls) handle (call' :: calls') handle'
  /-- A copy that the streams cut short, whatever follows it. -/
  | torn {input : ι} {input' : ι'} {calls : List (HandleCall ι τ)}
    {calls' : List (HandleCall ι' τ')} {handle : Archive σ} {handle' : Archive σ'}
    (h : StepTorn streams
      ((HandleCall.packer (.insertFileData input)).reply handle : Reply τ × Archive σ)
      ((HandleCall.packer (.insertFileData input')).reply handle' : Reply τ' × Archive σ')) :
    RunsAlike sinks streams (.packer (.insertFileData input) :: calls) handle
      (.packer (.insertFileData input') :: calls') handle'

variable [ByteSource κ] [ByteSink ω] [ByteSource δ] [ByteSink δ] [Seekable δ]
  {shown : σ → MemoryStream} {shown' : σ' → MemoryStream} {common : δ → MemoryStream}
  {paces : σ → δ → Prop} {paces' : σ' → δ → Prop} {inputs : ι → κ → Prop} {inputs' : ι' → κ → Prop}
  {sinks : τ → ω → Prop} {sinks' : τ' → ω → Prop}

/-- **Every script gives the same at any pace.** Let two streams pace the same one, and let every input
and every sink of a script pace the same one as its counterpart. If no copy takes a payload to 4 GiB,
then every call gives the same reply, the handles go through the same states, and the streams show the
same bytes and the same position, up to the first copy that the streams cut short. That copy fails with
the same error and shows the same; the account that it leaves depends on the pace. -/
theorem HandleCall.runsAlike (hstream : IsPacedStorage shown common paces)
    (hstream' : IsPacedStorage shown' common paces') (hinput : IsPacedSource inputs)
    (hinput' : IsPacedSource inputs') (hsink : IsPacedSink sinks) (hsink' : IsPacedSink sinks')
    {calls : List (HandleCall ι τ)} {calls' : List (HandleCall ι' τ')}
    (hcalls : List.Forall₂ (HandleCall.Alike (InPace inputs inputs') (InPace sinks sinks')) calls
      calls')
    {handle : Archive σ} {handle' : Archive σ'} (hhandle : Related (InPace paces paces') handle handle')
    (hsmall : StaySmall calls handle) :
    RunsAlike (InPace sinks sinks') (fun stream stream' => shown stream = shown' stream') calls handle
      calls' handle' := by
  induction hcalls generalizing handle handle' with
  | nil =>
    refine .done ((agree_close (hstream.writesAlike hstream') hhandle).imp id ?_)
    rintro ⟨final, final', hclose, hclose', hfinal⟩
    exact ⟨final, final', hclose, hclose', hstream.shown_eq hstream' hfinal⟩
  | cons hcall _ ih =>
    obtain ⟨hfirst, hrest⟩ := hsmall
    rcases HandleCall.stepAlike hstream hstream' hinput hinput' hsink hsink' hcall hhandle hfirst with
      h | ⟨input, input', rfl, rfl, h⟩
    · -- The next call needs streams in pace, of which a caller sees only what they show.
      have hafter := h.handle
      rw [snd_reply, snd_reply] at hafter
      refine .next ⟨h.result, h.remainder, ?_⟩ (ih hafter hrest)
      exact ⟨hstream.shown_eq hstream' h.handle.stream, h.handle.state⟩
    · exact .torn ⟨h.result, hstream.shown_eq hstream' h.handle.stream, h.handle.state⟩

end Scripts

/-! ### A script at two paces -/

/-- An archive with one entry of one byte, behind room for another archive. -/
def roomAndArchive : MemoryStream :=
  .ofList (List.replicate 43 0 ++ [0x4b, 0x43, 0x21, 0x1a, 6, 0, 0xe9, 0xb7, 0x41, 0, 8, 0, 1, 0, 0x5c,
    0x0f, 0x46, 0x81, 0x13, 0, 1, 0, 0, 0, 0, 0x52, 0, 0, 0, 0, 1, 0, 0x61, 1])

/-- A script that packs an archive and extracts the entry of the one behind it. -/
def packAndExtract (input sink : FaultyStream) : List (HandleCall FaultyStream FaultyStream) :=
  [.packer .initArchive, .packer (.beginFile (EntryInfo.regular "a")),
    .packer (.insertFileData input), .packer .endFile, .startReading,
    .unpacker .readArchiveHeader, .unpacker (.extract sink)]

/-- Two bytes that are given at once. -/
def swiftInput : FaultyStream := ⟨.ofList [1, 2], {}⟩

/-- Two bytes that are given one by one. -/
def slowInput : FaultyStream := ⟨.ofList [1, 2], { readMax? := some 1 }⟩

/-- A stream that moves one or two bytes at a time and is interrupted. -/
def slowStream : FaultyStream where
  memory := roomAndArchive
  faults := { readMax? := some 2, writeMax? := some 1, readInterrupts := [43, 52], writeInterrupts := [9] }

/-- The two inputs hold the same bytes and differ in their pace alone. -/
theorem inPace_input : InPace FaultyStream.Paces FaultyStream.Paces swiftInput slowInput :=
  FaultyStream.inPace rfl rfl (by decide) (by decide)

/-- The script gives the same on that stream as on one that moves all that is asked for. -/
theorem HandleCall.runsAlike_packAndExtract :
    RunsAlike (InPace FaultyStream.Paces FaultyStream.Paces)
      (fun stream stream' : FaultyStream => stream.memory = stream'.memory)
      (packAndExtract swiftInput {}) (Archive.ofStream ⟨roomAndArchive, {}⟩ {})
      (packAndExtract slowInput ⟨{}, { writeInterrupts := [0] }⟩) (Archive.ofStream slowStream {}) := by
  have hsink : InPace FaultyStream.Paces FaultyStream.Paces {} ⟨{}, { writeInterrupts := [0] }⟩ :=
    FaultyStream.inPace rfl rfl (by decide) (by decide)
  have hcalls : List.Forall₂ (HandleCall.Alike (InPace FaultyStream.Paces FaultyStream.Paces)
      (InPace FaultyStream.Paces FaultyStream.Paces)) (packAndExtract swiftInput {})
      (packAndExtract slowInput ⟨{}, { writeInterrupts := [0] }⟩) :=
    .cons (.packer .initArchive) <| .cons (.packer (.beginFile _)) <|
      .cons (.packer (.insertFileData inPace_input)) <| .cons (.packer .endFile) <|
      .cons .startReading <| .cons (.unpacker .readArchiveHeader) <|
      .cons (.unpacker (.extract hsink)) .nil
  refine HandleCall.runsAlike FaultyStream.isPacedStorage FaultyStream.isPacedStorage
    FaultyStream.isPacedSource FaultyStream.isPacedSource FaultyStream.isPacedSink
    FaultyStream.isPacedSink hcalls ?_ ?_
  · exact ⟨FaultyStream.inPace rfl rfl (by decide) (by decide), rfl⟩
  · cbv

/-! ### Where the pace shows -/

/-- A copy into open content that fails leaves the handle as its last round does. -/
theorem HandleCall.after_insertFileData [ByteSource ι] [ByteSink τ] [ByteSource σ] [ByteSink σ]
    [Seekable σ] {handle final : Archive σ} {input rest : ι} {total : Nat} {error : ArchiveError}
    {place : WriterState} (hmode : handle.state.mode = .writing place)
    (hpacker : handle.state.packer = .fileData)
    (hcopy : copyRounds handle.state.options.copySize ((⟨input, 0⟩ : CopySource ι), handle)
      = .error error (⟨rest, total⟩, final)) :
    (HandleCall.packer (.insertFileData input) : HandleCall ι τ).after handle = final := by
  have hexpect : expectPacker [.fileData] "insert_file_data" handle = .ok () handle := by
    rw [expectPacker, bind_of_ok (state_apply handle), hmode]
    exact require_of (List.mem_singleton.mpr hpacker) _ _
  have hbegin : (Call.lift (expectPacker [.fileData] "insert_file_data") :
      CallWith (CopySource ι) σ Unit) (⟨input, 0⟩, handle) = .ok () (⟨input, 0⟩, handle) :=
    lift_eq_ok.mpr ⟨handle, hexpect, rfl⟩
  have hstate : (Call.lift Call.state : CallWith (CopySource ι) σ HandleState) (⟨input, 0⟩, handle)
      = .ok handle.state (⟨input, 0⟩, handle) := rfl
  have hrun : insertFileData ((⟨input, 0⟩ : CopySource ι), handle)
      = .error error (⟨rest, total⟩, final) := by
    rw [insertFileData, bind_of_ok hbegin, bind_of_ok hstate]
    exact bind_of_error hcopy
  have hcall : (HandleCall.packer (.insertFileData input) : HandleCall ι τ).run handle
      = .error error final := CallWith.withValue_of_error hrun
  unfold after
  rw [hcall]

/-- A script that packs content and seals it, however the copy ends. -/
def packAndSeal (input : FaultyStream) : List (HandleCall FaultyStream FaultyStream) :=
  [.packer .initArchive, .packer (.beginFile (EntryInfo.regular "a")),
    .packer (.insertFileData input), .writer .finish]

/-- A handle on a stream that has no room behind its 38th byte. -/
def scanty : Archive FaultyStream :=
  Archive.ofStream ⟨{}, { writeZeroAt? := some 38 }⟩ { payloadCrc := false }

/-- The handle inside the content, of which some bytes are on the stream and some are counted. -/
def scantyContent (content : List UInt8) (written : Nat) : Archive FaultyStream where
  stream :=
    { memory :=
        { bytes := #[75, 67, 33, 26, 6, 0, 233, 183, 65, 0, 8, 0, 1, 0, 192, 193, 70, 192, 23, 0, 0, 0,
            0, 0, 0, 0, 0, 0, 0, 82, 0, 0, 0, 0, 1, 0, 97].appendList content
          position := 37 + content.length }
      faults := scanty.stream.faults }
  state :=
    { mode := .writing .atAddedData
      options := scanty.state.options
      pending? := some
        { record :=
            { checksum := 49600, kind := .fileHeader, flags := 192, size := 23
              data := [0, 82, 0, 0, 0, 0, 1, 0, 97] }
          offset? := some 14
          declaredSize := 0
          hasCrc := false
          written }
      packer := .fileData
      currentFile? := some (EntryInfo.regular "a") }

/-- The entry has begun on the stream without room, with nothing of its content. -/
theorem after_beginFile_scanty : HandleCall.afterAll ((packAndSeal swiftInput).take 2) scanty
    = scantyContent [] 0 := by
  cbv

/-- One byte of the chunk of two is on the stream, and none is counted. -/
theorem after_swiftInput : (HandleCall.packer (.insertFileData swiftInput) :
    HandleCall FaultyStream FaultyStream).after (scantyContent [] 0) = scantyContent [1] 0 := by
  have hread : ByteSource.read 65536 swiftInput = .ok [1, 2] ⟨⟨#[1, 2], 2⟩, {}⟩ := by cbv
  have hwrite : writeAddedData [1, 2] (scantyContent [] 0)
      = .error (.write writeZero) (scantyContent [1] 0) := by cbv
  have hcopy : copyRounds 65536 ((⟨swiftInput, 0⟩ : CopySource FaultyStream), scantyContent [] 0)
      = .error (.write writeZero) (⟨⟨⟨#[1, 2], 2⟩, {}⟩, 0⟩, scantyContent [1] 0) := by
    rw [copyRounds_apply, hread]
    dsimp only
    rw [hwrite]
  exact HandleCall.after_insertFileData rfl rfl hcopy

/-- The first chunk is on the stream and counted. -/
theorem after_slowInput : (HandleCall.packer (.insertFileData slowInput) :
    HandleCall FaultyStream FaultyStream).after (scantyContent [] 0) = scantyContent [1] 1 := by
  have hread : ByteSource.read 65536 slowInput
      = .ok [1] ⟨⟨#[1, 2], 1⟩, { readMax? := some 1 }⟩ := by cbv
  have hread' : ByteSource.read 65536 (⟨⟨#[1, 2], 1⟩, { readMax? := some 1 }⟩ : FaultyStream)
      = .ok [2] ⟨⟨#[1, 2], 2⟩, { readMax? := some 1 }⟩ := by cbv
  have hwrite : writeAddedData [1] (scantyContent [] 0) = .ok () (scantyContent [1] 1) := by cbv
  have hwrite' : writeAddedData [2] (scantyContent [1] 1)
      = .error (.write writeZero) (scantyContent [1] 1) := by cbv
  have hcopy : copyRounds 65536 ((⟨slowInput, 0⟩ : CopySource FaultyStream), scantyContent [] 0)
      = .error (.write writeZero)
        (⟨⟨⟨#[1, 2], 2⟩, { readMax? := some 1 }⟩, 1⟩, scantyContent [1] 1) := by
    rw [copyRounds_apply, hread]
    dsimp only
    rw [hwrite]
    dsimp only
    rw [copyRounds_apply, hread']
    dsimp only
    rw [hwrite']
    rfl
  exact HandleCall.after_insertFileData rfl rfl hcopy

set_option maxRecDepth 2048 in
/-- **Behind a copy that the stream cuts short the pace shows.** One byte of content is on the stream,
whether the input gave both at once or one by one. It is counted only in the second case, and the record
that is sealed in front of it says zero in the first one. -/
theorem HandleCall.pace_shows :
    InPace FaultyStream.Paces FaultyStream.Paces swiftInput slowInput ∧
      (afterAll (packAndSeal swiftInput) scanty).stream.memory
        ≠ (afterAll (packAndSeal slowInput) scanty).stream.memory := by
  refine ⟨inPace_input, fun h => ?_⟩
  -- The runs differ from the copy on, and byte 20 is the lowest one of the size that is sealed.
  have hpacked (input : FaultyStream) : afterAll (packAndSeal input) scanty
      = (HandleCall.writer .finish : HandleCall FaultyStream FaultyStream).after
        ((HandleCall.packer (.insertFileData input) : HandleCall FaultyStream FaultyStream).after
          (afterAll ((packAndSeal swiftInput).take 2) scanty)) := rfl
  rw [hpacked, hpacked, after_beginFile_scanty, after_swiftInput, after_slowInput] at h
  have hswift : ((HandleCall.writer .finish : HandleCall FaultyStream FaultyStream).after
      (scantyContent [1] 0)).stream.memory.toList.getD 20 0 = 0 := by cbv
  have hslow : ((HandleCall.writer .finish : HandleCall FaultyStream FaultyStream).after
      (scantyContent [1] 1)).stream.memory.toList.getD 20 0 = 1 := by cbv
  rw [h, hslow] at hswift
  exact absurd hswift (by decide)

end RecordArchive
