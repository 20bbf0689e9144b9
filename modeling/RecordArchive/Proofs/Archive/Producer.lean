import RecordArchive.Proofs.Archive.Lockstep
import RecordArchive.Proofs.Archive.PublicCalls

/-! # Producers on streams that cannot seek

Whoever writes records or packs entries makes the calls of `ProducerCall`. On a stream that cannot seek
each of them does what it does in memory, or it fails before it has written anything.

* `Archive.lockstep_beginFile` and its companions: the calls of the packer.
* `ProducerCall.lockstep_run`, `ProducerCall.inStep_performAll`: each call is made in lockstep, and so
  are calls in a row while their results are the same.
* `ProducerCall.FailsFast` says of a call that it had to return to a record and did not write, and
  `ProducerCall.sequential_of_results` that other differences do not occur. -/

namespace RecordArchive

open Program Call Archive

variable {ι : Type}

namespace Archive

variable {handle : Archive MemoryStream}

/-! ## Packing -/

/-- What may be packed next is the same on both handles. -/
theorem simulates_expectPacker_sequential (allowed : List PackerState) (name : String) :
    Simulates InStep (expectPacker allowed name) (expectPacker allowed name) := by
  rintro ⟨stream, state⟩ _ ⟨rfl, h⟩
  have hmode : (⟨stream, state⟩ : Archive MemoryStream).sequential.state.mode = state.mode := rfl
  rw [expectPacker, bind_of_ok (state_apply _), expectPacker, bind_of_ok (state_apply _), hmode]
  rcases state.mode with _ | _ | place
  case writing =>
    show Agree InStep (require (state.packer ∈ allowed) _ _)
      (require (state.packer ∈ allowed) _ _)
    by_cases hpacker : state.packer ∈ allowed
    · rw [require_of hpacker, require_of hpacker]
      exact .ok ⟨rfl, h⟩
    · rw [require_of_not hpacker, require_of_not hpacker]
      exact .error ⟨rfl, h⟩
  all_goals exact .error ⟨rfl, h⟩

/-- Whether a handle is fresh is the same on both. -/
theorem simulates_expectFresh_sequential (name : String) :
    Simulates InStep (expectFresh name) (expectFresh name) := by
  rintro ⟨stream, state⟩ _ ⟨rfl, h⟩
  have hmode : (⟨stream, state⟩ : Archive MemoryStream).sequential.state.mode = state.mode := rfl
  rw [expectFresh, bind_of_ok (state_apply _), expectFresh, bind_of_ok (state_apply _), hmode]
  rcases state.mode with _ | _ | place
  case writing =>
    show Agree InStep (require (state.packer = .idle) _ _) (require (state.packer = .idle) _ _)
    by_cases hpacker : state.packer = .idle
    · rw [require_of hpacker, require_of hpacker]
      exact .ok ⟨rfl, h⟩
    · rw [require_of_not hpacker, require_of_not hpacker]
      exact .error ⟨rfl, h⟩
  all_goals exact .ok ⟨rfl, h⟩

/-- Moving the packer keeps the handles in step. -/
theorem simulates_setPacker_sequential (packer : PackerState) :
    Simulates InStep (setPacker packer) (setPacker packer) :=
  simulates_update_sequential (fun _ => rfl) fun _ h => h.congr rfl rfl

/-- A packing call goes on in lockstep where it may be made. -/
theorem lockstep_of_expectPacker {α : Type} (h : handle.state.IsPlain) {allowed : List PackerState}
    {name : String} {refused : ArchiveError → Archive (Sequential MemoryStream) → Prop}
    {next : Unit → Call MemoryStream α} {next' : Unit → Call (Sequential MemoryStream) α}
    (hnext : Lockstep refused InStep (next () handle) (next' () handle.sequential)) :
    Lockstep refused InStep ((expectPacker allowed name >>= next) handle)
      ((expectPacker allowed name >>= next') handle.sequential) := by
  refine Lockstep.bind_of_agree (simulates_expectPacker_sequential allowed name handle _ ⟨rfl, h⟩) ?_
  rintro _ middle _ hrun ⟨rfl, -⟩
  obtain ⟨rfl, -⟩ := (effect_expectPacker allowed name handle).of_ok hrun
  exact hnext

/-- The record that starts an entry whose content follows in pieces. -/
def contentRecord? (info : EntryInfo) (options : ArchiveOptions) : Option Record :=
  match info.toRecord with
  | .ok header => some (options.requestCrc (info.announceContent header))
  | .error _ => none

/-- **A file header** is written in lockstep, unless it has to be sealed or the payload in front of it
cannot be. -/
theorem lockstep_beginFile (h : handle.state.IsPlain) (info : EntryInfo) :
    Lockstep (IsRefused handle.sequential (contentRecord? info handle.state.options)) InStep
      (beginFile info handle) (beginFile info handle.sequential) := by
  refine lockstep_of_expectPacker h ?_
  cases hheader : info.toRecord with
  | error error => exact .agree (.error ⟨rfl, h⟩)
  | ok header =>
    rw [contentRecord?, hheader]
    have hstart := lockstep_writeRecord h
      (handle.state.options.requestCrc (info.announceContent header))
    have hnote : Simulates InStep
        (Call.update fun state => { state with currentFile? := some info, packer := .fileData })
        (Call.update fun state => { state with currentFile? := some info, packer := .fileData }) :=
      simulates_update_sequential (fun _ => rfl) fun _ h => h.congr rfl rfl
    exact hstart.followed hnote fun _ => trivial

/-- **An entry is sealed** in lockstep, unless its content is not of the announced size. -/
theorem lockstep_endFile (h : handle.state.IsPlain) (started? : Option Record) :
    Lockstep (IsRefused handle.sequential started?) InStep (endFile handle)
      (endFile handle.sequential) := by
  refine lockstep_of_expectPacker h ?_
  have hnote : Simulates InStep
      (Call.update fun state => { state with currentFile? := none, packer := .fileHeader })
      (Call.update fun state => { state with currentFile? := none, packer := .fileHeader }) :=
    simulates_update_sequential (fun _ => rfl) fun _ h => h.congr rfl rfl
  exact (lockstep_finishAddedData h started?).toInStep.followed hnote fun _ => trivial

/-- **A whole entry** is written in lockstep, unless the payload in front of it cannot be sealed. -/
theorem lockstep_addFile (h : handle.state.IsPlain) (info : EntryInfo) (content : List UInt8) :
    Lockstep (IsRefused handle.sequential none) InStep (addFile info content handle)
      (addFile info content handle.sequential) := by
  refine lockstep_of_expectPacker h ?_
  cases hheader : info.toRecord with
  | error error => exact .agree (.error ⟨rfl, h⟩)
  | ok header =>
    exact (lockstep_writeRecordWithAddedData h (handle.state.options.requestCrc header)
      content).followed (simulates_setPacker_sequential .fileHeader) fun _ => trivial

/-- The record of the archive header is complete without a payload. -/
theorem needsSeal_archiveHeader {record : Record}
    (h : ArchiveHeader.current.toRecord = .ok record) : record.needsSeal = false := by
  have hfix : Record.fix
      { kind := .archiveHeader, flags := 0, data := LittleEndian.word16 1 } = .ok record := h
  obtain ⟨-, rfl⟩ := Record.fix_eq_ok.mp hfix
  rfl

/-- **The archive header** is written in lockstep, unless the payload in front of it cannot be sealed. -/
theorem lockstep_initArchive (h : handle.state.IsPlain) :
    Lockstep (IsRefused handle.sequential none) InStep (initArchive handle)
      (initArchive handle.sequential) := by
  refine Lockstep.bind_of_agree (simulates_expectFresh_sequential _ handle _ ⟨rfl, h⟩) ?_
  rintro _ middle _ hrun ⟨rfl, -⟩
  obtain ⟨rfl, -⟩ := (effect_expectFresh _ handle).of_ok hrun
  refine Lockstep.bind_of_agree (simulates_startWriting_sequential middle _ ⟨rfl, h⟩) ?_
  rintro _ behind _ hrun ⟨rfl, hplain⟩
  -- Behind a marker that has just been written no payload is open.
  have hopen : behind = middle ∨ ¬ ∃ pending, behind.state.IsOpen pending := by
    rcases (effect_startWriting middle).of_ok hrun with ⟨rfl, -⟩ | ⟨-, hturned⟩
    · exact .inl rfl
    · refine .inr (HandleState.not_isOpen_of_atRecord ?_)
      rw [hturned]
      rfl
  cases hheader : ArchiveHeader.current.toRecord with
  | error error => exact .agree (.error ⟨rfl, hplain⟩)
  | ok record =>
    have hstart := (lockstep_writeRecord hplain record).followed
      (simulates_setPacker_sequential .fileHeader) fun _ => trivial
    refine hstart.mono ?_ fun _ _ hfinal => hfinal
    rintro error final (⟨hpending, hlength⟩ | ⟨hstarted, hseal, -⟩)
    · rcases hopen with rfl | hnone
      · exact .inexact hpending hlength
      · exact absurd ⟨_, hpending⟩ (HandleState.not_isOpen_unplaced hnone)
    · cases hstarted
      rw [needsSeal_archiveHeader hheader] at hseal
      cases hseal

/-! ### Copying content -/

section Copying

variable {ρ : Type}

/-- Two handles in step beside the same value of their callers. -/
def IsPair (first : ρ × Archive MemoryStream) (second : ρ × Archive (Sequential MemoryStream)) :
    Prop :=
  first.1 = second.1 ∧ InStep first.2 second.2

/-- A call keeps handles in step beside a value. -/
theorem simulates_lift_sequential {α : Type} {call : Call MemoryStream α}
    {call' : Call (Sequential MemoryStream) α} (h : Simulates InStep call call') :
    Simulates IsPair (Call.lift call : CallWith ρ MemoryStream α) (Call.lift call') := by
  rintro ⟨value, first⟩ ⟨_, second⟩ ⟨rfl, hstep⟩
  have hrun := h first second hstep
  rw [lift_apply, lift_apply]
  revert hrun
  generalize call first = result
  generalize call' second = result'
  rintro (⟨hfinal⟩ | ⟨hfinal⟩)
  · exact .ok ⟨rfl, hfinal⟩
  · exact .error ⟨rfl, hfinal⟩

/-- A program on the value keeps handles in step. -/
theorem simulates_onValue_sequential {α : Type} (program : EStateM ArchiveError ρ α) :
    Simulates IsPair (CallWith.onValue program : CallWith ρ MemoryStream α)
      (CallWith.onValue program) := by
  rintro ⟨value, first⟩ ⟨_, second⟩ ⟨rfl, hstep⟩
  rw [CallWith.onValue_apply, CallWith.onValue_apply]
  cases program value with
  | ok result rest => exact .ok ⟨rfl, hstep⟩
  | error error rest => exact .error ⟨rfl, hstep⟩

/-- Calls that start with the same value and do the same with it. -/
theorem simulates_withValue_sequential {α : Type} (value : ρ) {call : CallWith ρ MemoryStream α}
    {call' : CallWith ρ (Sequential MemoryStream) α} (h : Simulates IsPair call call') :
    Simulates InStep (CallWith.withValue value call) (CallWith.withValue value call') := by
  intro first second hstep
  have hrun := h (value, first) (value, second) ⟨rfl, hstep⟩
  unfold CallWith.withValue
  revert hrun
  generalize call (value, first) = result
  generalize call' (value, second) = result'
  rintro (⟨hfinal⟩ | ⟨hfinal⟩)
  · exact .ok hfinal.2
  · exact .error hfinal.2

variable [ByteSource ι]

/-- **A stream is copied** in lockstep. -/
theorem simulates_insertFileData_sequential :
    Simulates IsPair (insertFileData : CallWith (CopySource ι) MemoryStream Unit)
      insertFileData := by
  have hround (count : Nat) : Simulates IsPair
      (insertRound count : CallWith (CopySource ι) MemoryStream (Option Unit))
      (insertRound count) := by
    refine (simulates_onValue_sequential (fetch count)).bind fun fetched? => ?_
    rcases fetched? with _ | (_ | ⟨byte, bytes⟩)
    · exact .pure _
    · exact .pure _
    · exact (simulates_lift_sequential (simulates_writeAddedData_sequential _)).bind fun _ =>
        (simulates_onValue_sequential (countBytes _)).bind fun _ => .pure _
  refine (simulates_lift_sequential (simulates_expectPacker_sequential _ _)).bind fun _ => ?_
  -- The state is looked at for the options alone, which are the same.
  rintro ⟨source, handle⟩ ⟨_, _⟩ ⟨rfl, rfl, h⟩
  have hcopy : Simulates IsPair
      (repeatUntil (insertRound handle.state.options.copySize : CallWith (CopySource ι) _ _)
        sourceBudget (insertRound_spends _) >>= fun _ => Call.lift (setPacker .afterFileData))
      (repeatUntil (insertRound handle.state.options.copySize) sourceBudget (insertRound_spends _)
        >>= fun _ => Call.lift (setPacker .afterFileData)) :=
    (Simulates.repeatUntil (hround _)).bind fun _ =>
      simulates_lift_sequential (simulates_setPacker_sequential .afterFileData)
  exact hcopy (source, handle) (source, handle.sequential) ⟨rfl, rfl, h⟩

end Copying

end Archive

/-! ## Calls in a row -/

/-- A call of a producer, who writes records or packs entries, turns the handle as needed, and completes
in the end what was written, as closing the handle does. -/
inductive ProducerCall (ι : Type)
  /-- Turns the handle to reading. -/
  | startReading
  /-- Turns the handle to writing. -/
  | startWriting
  /-- Writes the marker. -/
  | writeMarker
  /-- A call of the writer. -/
  | writer (call : WriterCall)
  /-- A call of the packer. -/
  | packer (call : PackerCall ι)
  /-- Completes what is being written. -/
  | complete

namespace ProducerCall

section Runs

variable {σ : Type} [ByteSource ι] [ByteSink σ] [Seekable σ]

/-- The call on a handle, with the number of bytes that it copies. -/
def run : ProducerCall ι → Call σ Nat
  | startReading => Archive.startReading >>= fun _ => pure 0
  | startWriting => Archive.startWriting >>= fun _ => pure 0
  | writeMarker => Archive.writeMarker >>= fun _ => pure 0
  | writer call => call.run >>= fun _ => pure 0
  | packer (.insertFileData input) => CallWith.withValue ⟨input, 0⟩ do
      Archive.insertFileData
      let source ← CallWith.value
      pure source.total
  | packer call => call.run >>= fun _ => pure 0
  | complete => finishWriting >>= fun _ => pure 0

/-- What the caller is given. -/
def result (call : ProducerCall ι) (handle : Archive σ) : Except ArchiveError Nat :=
  match call.run handle with
  | .ok count _ => .ok count
  | .error error _ => .error error

/-- The handle behind a call, whether that succeeds or not. -/
def after (call : ProducerCall ι) (handle : Archive σ) : Archive σ :=
  match call.run handle with
  | .ok _ final => final
  | .error _ final => final

/-- The handle behind calls in a row. -/
def performAll (calls : List (ProducerCall ι)) (handle : Archive σ) : Archive σ :=
  calls.foldl (fun handle call => call.after handle) handle

/-- What the caller is given by calls in a row. -/
def results : List (ProducerCall ι) → Archive σ → List (Except ArchiveError Nat)
  | [], _ => []
  | call :: calls, handle => call.result handle :: results calls (call.after handle)

end Runs

/-- The record that a call should start and whose payload is to follow. -/
def started? (options : ArchiveOptions) : ProducerCall ι → Option Record
  | writer (.start record) => some record
  | writer (.startStreamed record) => some record
  | packer (.beginFile info) => contentRecord? info options
  | _ => none

variable {handle first : Archive MemoryStream} {second : Archive (Sequential MemoryStream)}

/-- A call that gives no number. -/
theorem lockstep_of_unit {refused : ArchiveError → Archive (Sequential MemoryStream) → Prop}
    {call : Call MemoryStream Unit} {call' : Call (Sequential MemoryStream) Unit}
    (h : Lockstep refused InStep (call first) (call' second)) :
    Lockstep refused InStep ((call >>= fun _ => pure 0 : Call MemoryStream Nat) first)
      ((call' >>= fun _ => pure 0 : Call (Sequential MemoryStream) Nat) second) :=
  h.followed (.pure 0) fun _ => trivial

variable [ByteSource ι]

/-- **Every call** of a producer is made in lockstep. -/
theorem lockstep_run (h : handle.state.IsPlain) (call : ProducerCall ι) :
    Lockstep (IsRefused handle.sequential (call.started? handle.state.options)) InStep
      (call.run handle) (call.run handle.sequential) := by
  have hstep : InStep handle handle.sequential := ⟨rfl, h⟩
  cases call with
  | startReading => exact lockstep_of_unit (lockstep_startReading h _)
  | startWriting =>
    exact lockstep_of_unit (.agree (simulates_startWriting_sequential _ _ hstep))
  | writeMarker => exact lockstep_of_unit (.agree (simulates_writeMarker_sequential _ _ hstep))
  | complete => exact lockstep_of_unit (lockstep_finishWriting h _)
  | writer call =>
    cases call with
    | start record => exact lockstep_of_unit (lockstep_writeRecord h record)
    | startStreamed record => exact lockstep_of_unit (lockstep_startStreamedRecord h record)
    | whole record payload =>
      exact lockstep_of_unit (lockstep_writeRecordWithAddedData h record payload.bytes)
    | append chunk =>
      exact lockstep_of_unit (.agree (simulates_writeAddedData_sequential chunk _ _ hstep))
    | finish =>
      exact lockstep_of_unit (lockstep_finishAddedData h _).toInStep
    | flush => exact lockstep_of_unit (.agree (simulates_flushStream_sequential _ _ hstep))
  | packer call =>
    cases call with
    | initArchive => exact lockstep_of_unit (lockstep_initArchive h)
    | beginFile info => exact lockstep_of_unit (lockstep_beginFile h info)
    | endFile => exact lockstep_of_unit (lockstep_endFile h _)
    | addFile info content => exact lockstep_of_unit (lockstep_addFile h info content)
    | insertFileData input =>
      have hcopy : Simulates IsPair
          (insertFileData >>= fun _ => CallWith.value >>= fun source => pure source.total :
            CallWith (CopySource ι) MemoryStream Nat)
          (insertFileData >>= fun _ => CallWith.value >>= fun source => pure source.total) := by
        refine simulates_insertFileData_sequential.bind fun _ => ?_
        rintro ⟨source, middle⟩ ⟨_, _⟩ ⟨rfl, hmiddle⟩
        exact .ok ⟨rfl, hmiddle⟩
      exact .agree (simulates_withValue_sequential _ hcopy _ _ hstep)

/-- **One call** with the same result on both handles leaves them in step. -/
theorem inStep_after (h : InStep first second) {call : ProducerCall ι}
    (hresult : call.result first = call.result second) :
    InStep (call.after first) (call.after second) := by
  obtain ⟨rfl, hplain⟩ := h
  have hrun := lockstep_run hplain call
  unfold result at hresult
  unfold after
  revert hrun hresult
  generalize call.run first = outcome
  generalize call.run first.sequential = outcome'
  rintro hresult (⟨⟨hfinal⟩ | ⟨hfinal⟩⟩ | ⟨hfirst, hrefused⟩)
  · exact hfinal
  · exact hfinal
  · -- A refusal is a failed write, which the run in memory does not show.
    cases outcome with
    | ok value final => cases hresult
    | error error final =>
      cases hresult
      cases hrefused with
      | inexact => exact absurd rfl (hfirst _)
      | unsealable => exact absurd rfl (hfirst _)

/-- **Calls in a row** with the same results on both handles leave them in step. -/
theorem inStep_performAll (h : InStep first second) {calls : List (ProducerCall ι)}
    (hresults : results calls first = results calls second) :
    InStep (performAll calls first) (performAll calls second) := by
  induction calls generalizing first second with
  | nil => exact h
  | cons call calls ih =>
    rw [results, results, List.cons.injEq] at hresults
    exact ih (inStep_after h hresults.1) hresults.2

/-- **A call that fails fast** on a stream that cannot seek: it has failed to write and left the stream
as it was, because it was to start a record that has to be sealed, or to complete a payload that is not
of its announced size. -/
def FailsFast (call : ProducerCall ι) (handle : Archive (Sequential MemoryStream)) :
    Prop :=
  ∃ cause final, call.run handle = .error (.write cause) final ∧ final.stream = handle.stream ∧
    ((∃ record, call.started? handle.state.options = some record ∧ record.needsSeal = true) ∨
      ∃ pending, handle.state.IsOpen pending ∧ pending.written ≠ pending.declaredSize)

/-- A call with another result on the second handle has failed fast there. -/
theorem failsFast_of_result_ne (h : InStep first second) {call : ProducerCall ι}
    (hresult : call.result first ≠ call.result second) : call.FailsFast second := by
  obtain ⟨rfl, hplain⟩ := h
  have hrun := lockstep_run hplain call
  have hoptions : first.sequential.state.options = first.state.options := rfl
  unfold FailsFast
  rw [hoptions]
  unfold result at hresult
  revert hrun hresult
  generalize call.run first = outcome
  generalize call.run first.sequential = outcome'
  rintro hresult (⟨⟨-⟩ | ⟨-⟩⟩ | ⟨-, ⟨hopen, hlength⟩ | ⟨hstarted, hseal, hstream⟩⟩)
  · exact absurd rfl hresult
  · exact absurd rfl hresult
  · exact ⟨_, _, rfl, rfl, .inr ⟨_, hopen, hlength⟩⟩
  · exact ⟨_, _, rfl, hstream, .inl ⟨_, hstarted, hseal⟩⟩

/-- **A stream that cannot seek agrees with memory or fails fast.** As long as the calls of a producer
give the same results on a stream in memory and on one without positions over the same memory, the second
handle stands where the first one does: its stream holds the same bytes at the same position, and its
state differs only in that it knows no position. A call that then gives another result fails fast on the
second stream. -/
theorem sequential_of_results (memory : MemoryStream) (options : ArchiveOptions)
    (calls : List (ProducerCall ι))
    (h : results calls (Archive.ofStream memory options)
      = results calls (Archive.ofStream (⟨memory⟩ : Sequential MemoryStream) options)) :
    ∃ first second, first = performAll calls (Archive.ofStream memory options) ∧
      second = performAll calls (Archive.ofStream (⟨memory⟩ : Sequential MemoryStream) options) ∧
      second = first.sequential ∧
      ∀ call : ProducerCall ι, call.result first ≠ call.result second → call.FailsFast second := by
  have hstart : InStep (Archive.ofStream memory options) (Archive.ofStream ⟨memory⟩ options) :=
    ⟨rfl, HandleState.isPlain_of_mode_ne nofun⟩
  have hstep := inStep_performAll hstart h
  exact ⟨_, _, rfl, rfl, hstep.sequential, fun call => failsFast_of_result_ne hstep⟩

/-- A record that leaves its size open is started in memory, and fails fast on the other stream. -/
theorem sequential_of_results_open :
    let record : Record := { kind := .dataFragment, flags := RecordFlags.narrowSize }
    let calls : List (ProducerCall (List UInt8)) := [.startWriting]
    results calls (Archive.ofStream ({} : MemoryStream) {})
        = results calls (Archive.ofStream (⟨{}⟩ : Sequential MemoryStream) {}) ∧
      (ProducerCall.writer (.start record) : ProducerCall (List UInt8)).FailsFast
        (performAll calls (Archive.ofStream (⟨{}⟩ : Sequential MemoryStream) {})) := by
  intro record calls
  have hfits : record.Fits := ⟨by decide +kernel, by decide +kernel⟩
  -- both handles come to stand behind the marker
  obtain ⟨behind, hbehind⟩ : ∃ behind, betweenRecords {} Marker.bytes {} = behind := ⟨_, rfl⟩
  have hmemory := startWriting_ofStream {} {}
  have hsequential := startWriting_sequential {} {}
  rw [hbehind] at hmemory hsequential
  have hrun : (startWriting : ProducerCall (List UInt8)).run (Archive.ofStream {} {})
      = .ok 0 behind := bind_of_ok hmemory
  have hrun' : (startWriting : ProducerCall (List UInt8)).run
      (Archive.ofStream (⟨{}⟩ : Sequential MemoryStream) {}) = .ok 0 behind.sequential :=
    bind_of_ok hsequential
  have hresults : results calls (Archive.ofStream ({} : MemoryStream) {})
      = results calls (Archive.ofStream (⟨{}⟩ : Sequential MemoryStream) {}) := by
    simp only [calls, results, result, hrun, hrun']
  -- the record is started behind the marker in memory, and has to be sealed
  obtain ⟨final, hstart⟩ : ∃ final, CallWith.withValue record writeRecord behind = .ok () final := by
    rw [← hbehind]
    exact ⟨_, writeRecord_eq_ok.mpr ⟨hfits, rfl⟩⟩
  have hrefused : CallWith.withValue record writeRecord behind.sequential
      = .error (cannotSeal Sequential.notSeekable) behind.sequential := by
    have hready : readyForRecord "write_record" behind.sequential = .ok () behind.sequential := by
      rw [← hbehind]
      exact readyForRecord_of_atRecord rfl _
    rw [withValue_writeRecord, bind_of_ok hready]
    exact startRecord_of_needsSeal hfits (by decide +kernel) _
  have hfirst : performAll calls (Archive.ofStream ({} : MemoryStream) {}) = behind := by
    simp only [calls, performAll, List.foldl_cons, List.foldl_nil, after, hrun]
  have hsecond : performAll calls (Archive.ofStream (⟨{}⟩ : Sequential MemoryStream) {})
      = behind.sequential := by
    simp only [calls, performAll, List.foldl_cons, List.foldl_nil, after, hrun']
  obtain ⟨_, _, rfl, rfl, -, hcall⟩ := sequential_of_results {} {} calls hresults
  refine ⟨hresults, hcall _ ?_⟩
  have hok : (ProducerCall.writer (.start record) : ProducerCall (List UInt8)).result behind
      = .ok 0 := by
    rw [result, run, WriterCall.run, bind_of_ok hstart]
    rfl
  have hfailed : (ProducerCall.writer (.start record) : ProducerCall (List UInt8)).result
      behind.sequential = .error (cannotSeal Sequential.notSeekable) := by
    rw [result, run, WriterCall.run, bind_of_error hrefused]
  rw [hfirst, hsecond, hok, hfailed]
  intro heq
  cases heq

end ProducerCall

end RecordArchive
