import RecordArchive.Proofs.Archive.PublicCalls

/-! # Handles stranded inside a record

A record that could not be read to its end leaves the reader inside it, at a place from which no
record can be told from its data.

* `Archive.stops_readRecord`, `Archive.stops_skipRecord`: so does every failure behind the first byte
  of a record, and a failure in front of that byte leaves the handle as it was.
* `Archive.givesNothing_of_atRecordData`: a stranded handle gives neither a record nor a byte of
  content, whatever its entry was, and does not touch the stream.
* `HandleCall.keeps_atRecordData`: it stays stranded unless it is turned to writing, so
  `Archive.stranded_of_failed_record`: **a structural failure is final** for the reader. -/

namespace RecordArchive

open Program Call Archive

variable {σ ι τ : Type}

/-! ## The first byte of a record -/

namespace IsFallibleSource

variable [ByteSource σ] {unread : σ → List UInt8}

/-- Taking at most one further byte gives no more than that, and a failure takes nothing. -/
theorem readFurther_one (hs : IsFallibleSource unread) {count : Nat} (hcount : count ≤ 1)
    (taken : List UInt8) (start : σ) :
    Outcome (fun bytes final => bytes.length ≤ taken.length + 1 ∧
        (bytes.length ≤ taken.length → unread final = unread start))
      (fun _ final => unread final = unread start) (RecordArchive.readFurther count taken start) := by
  fun_induction RecordArchive.readFurther count taken start with
  | case1 taken start => exact ⟨by simp, fun _ => rfl⟩
  | case2 count taken start hzero final hrun =>
    exact ⟨by simp, fun _ => ((hs.read _ _).of_ok hrun).symm⟩
  | case3 count taken start hzero byte bytes middle hrun ih =>
    -- this read has taken the one byte, and nothing is left to take
    have hle := ByteSource.length_read_le hrun
    rw [List.length_cons] at hle
    obtain rfl : bytes = [] := List.length_eq_zero_iff.mp (by omega)
    have hdone : count - (([] : List UInt8).length + 1) = 0 := by
      rw [List.length_nil]
      omega
    rw [hdone, RecordArchive.readFurther, if_pos rfl]
    refine ⟨by simp, fun hshort => absurd hshort (by simp)⟩
  | case4 count taken start hzero error middle hrun hagain ih =>
    rw [← (hs.read _ _).of_error hrun]
    exact ih hcount
  | case5 count taken start hzero error middle hrun hagain => exact (hs.read _ _).of_error hrun

/-- **The first byte** of a record cannot be taken where the stream ends or a read fails. Then nothing
has been taken. -/
theorem readExactly_first (hs : IsFallibleSource unread) (start : σ) :
    Outcome (fun _ _ => True) (fun error final => unread final = unread start ∧
        (error = .eof ∨ ∃ cause, error = .read cause))
      (readExactly .boundary 1 start) := by
  refine Outcome.bind (Outcome.adaptExcept ((hs.readFurther_one (Nat.le_refl 1) [] start).mono ?_ ?_))
  · rintro bytes final ⟨hle, hnothing⟩
    split
    next => trivial
    next hmissing =>
    have hzero : bytes.length = 0 := by
      rw [List.length_nil] at hle
      omega
    rw [if_pos ⟨hzero, rfl⟩]
    exact ⟨hnothing (Nat.le_of_eq hzero), .inl rfl⟩
  · exact fun cause final hfinal => ⟨hfinal, .inr ⟨cause, rfl⟩⟩

end IsFallibleSource

namespace Archive

section Stops

variable [ByteSource σ] {unread : σ → List UInt8} {failed : σ → Prop} {handle : Archive σ}

/-- **A record that cannot be read** leaves the handle in front of it or inside. -/
theorem stops_readRecord (hr : ReadsFrom unread failed)
    (hmode : handle.state.mode = .reading .atRecordHeader) :
    Outcome (fun _ _ => True) (StopsAt unread handle) (readRecord handle) := by
  have hexpect : expectReader .atRecordHeader "read_record" handle = .ok () handle :=
    expectReader_eq_ok.mpr ⟨hmode, rfl⟩
  rw [readRecord, bind_of_ok hexpect]
  refine Outcome.bind ((stops_readRecordHeader hr handle.stream handle.state).mono ?_ ?_)
  · rintro header ⟨middle, _⟩ ⟨-, -, hheader, rfl⟩
    refine Outcome.bind (outcome_onStream ((hr.readExactly .inside _ middle).mono ?_ ?_))
    · exact fun _ _ _ => trivial
    · exact fun _ _ hfinal => .behind header.headerBytes_ne_nil hheader hfinal.2 rfl
  · exact fun _ _ hfinal => hfinal

/-- **A record that cannot be skipped** leaves the handle in front of it or inside. -/
theorem stops_skipRecord (hr : ReadsFrom unread failed)
    (hmode : handle.state.mode = .reading .atRecordHeader) :
    Outcome (fun _ _ => True) (StopsAt unread handle) (skipRecord handle) := by
  refine Outcome.bind ?_
  rw [payloadToSkip_of_atRecordHeader hmode]
  refine Outcome.bind ((stops_readRecordHeader hr handle.stream handle.state).mono ?_ ?_)
  · rintro header ⟨middle, _⟩ ⟨-, -, hheader, rfl⟩
    refine Outcome.bind (outcome_onStream ((hr.discard _ middle).mono ?_ ?_))
    · rintro _ behind ⟨data, -, hdata⟩
      refine Outcome.bind (outcome_onStream ((hr.discard _ behind).mono ?_ ?_))
      · exact fun _ _ _ => trivial
      · intro _ final hfinal
        exact .behind header.headerBytes_ne_nil hheader
          (hfinal.2.trans (suffix_of_eq_append hdata)) rfl
    · exact fun _ _ hfinal => .behind header.headerBytes_ne_nil hheader hfinal.2 rfl
  · exact fun _ _ hfinal => hfinal

end Stops

/-! ## A stranded handle -/

/-- The call is out of order and leaves the handle as it was. -/
def Refuses (handle : Archive σ) {α : Type} (call : Call σ α) : Prop :=
  ∃ name, call handle = .error (.invalidState name) handle

/-- The handle is used further without moving: neither its stream nor its place has changed. -/
structure IsUnmoved (handle final : Archive σ) : Prop where
  stream : final.stream = handle.stream
  mode : final.state.mode = handle.state.mode

/-- A handle has not moved from itself. -/
theorem IsUnmoved.refl (handle : Archive σ) : IsUnmoved handle handle := ⟨rfl, rfl⟩

/-- The call gives only what is allowed and does not move the handle, whether it succeeds or not. -/
def GivesOnly (handle : Archive σ) {α : Type} (allowed : α → Prop) (call : Call σ α) : Prop :=
  Outcome (fun value final => allowed value ∧ IsUnmoved handle final)
    (fun _ final => IsUnmoved handle final) (call handle)

/-- A call that is refused gives nothing. -/
theorem Refuses.givesOnly {handle : Archive σ} {α : Type} {call : Call σ α} (h : Refuses handle call)
    (allowed : α → Prop) : GivesOnly handle allowed call := by
  obtain ⟨name, hrun⟩ := h
  rw [GivesOnly, hrun]
  exact .refl handle

/-- **A handle that gives nothing**: no call of the reader or the unpacker takes a byte from its
stream or gives a record or a byte of content. What is already known of an entry can still be asked
for, and an entry that has come to its end can be left. -/
structure GivesNothing (τ : Type) [ByteSource σ] [ByteSink τ] (handle : Archive σ) : Prop where
  mode : handle.state.mode = .reading .atRecordData
  findMarker : Refuses handle findMarker
  readRecord : Refuses handle readRecord
  skipRecord : Refuses handle skipRecord
  readAddedData (count : Nat) : Refuses handle (readAddedData count)
  readArchiveHeader : Refuses handle readArchiveHeader
  currentFileInfo : GivesOnly handle (fun info => handle.state.currentFile? = some info) currentFileInfo
  readFileData (count : Nat) : GivesOnly handle (fun bytes => bytes = []) (readFileData count)
  extract (sink : τ) :
    Outcome (fun _ final => final.1 = ⟨sink, 0⟩ ∧ IsUnmoved handle final.2)
      (fun _ final => final.1 = ⟨sink, 0⟩ ∧ IsUnmoved handle final.2)
      (extract ((⟨sink, 0⟩ : CopySink τ), handle))
  skipFile : GivesOnly handle (fun _ => True) skipFile

/-- Calls that start at another place are refused. -/
theorem expectReader_of_mode_ne {handle : Archive σ} {place : ReaderState}
    (hmode : handle.state.mode ≠ .reading place) (name : String) :
    expectReader place name handle = .error (.invalidState name) handle := by
  rw [expectReader, bind_of_ok (state_apply handle), require_of_not hmode]

section Stranded

variable [ByteSource σ] {handle : Archive σ} (hmode : handle.state.mode = .reading .atRecordData)
include hmode

omit [ByteSource σ] in
/-- No call of the reader is allowed inside the data of a record. -/
theorem expectReader_of_atRecordData {place : ReaderState} (hplace : place ≠ .atRecordData)
    (name : String) : expectReader place name handle = .error (.invalidState name) handle := by
  refine expectReader_of_mode_ne ?_ name
  rw [hmode]
  exact fun hsame => hplace (Mode.reading.inj hsame).symm

/-- No record can be read. -/
theorem readRecord_of_atRecordData :
    readRecord handle = .error (.invalidState "read_record") handle :=
  bind_of_error (expectReader_of_atRecordData hmode (by decide) _)

omit [ByteSource σ] in
/-- The handle is still used for reading. -/
theorem expectReading_of_atRecordData (name : String) : expectReading name handle = .ok () handle :=
  expectReading_eq_ok.mpr ⟨⟨_, hmode⟩, rfl⟩

/-- There is no payload to leave. -/
theorem leavePayload_of_atRecordData : leavePayload handle = .ok () handle := by
  rw [leavePayload, bind_of_ok (state_apply handle), if_neg (by rw [hmode]; decide)]
  rfl

/-- There is no payload to take from. -/
theorem takePayload_of_atRecordData (count : Nat) : takePayload count handle = .ok [] handle := by
  rw [takePayload, bind_of_ok (state_apply handle), if_neg (by rw [hmode]; decide)]
  rfl

/-- No entry can be entered. -/
theorem readFileHeader_of_atRecordData :
    readFileHeader handle = .error (.invalidState "read_record") handle :=
  bind_of_error (readRecord_of_atRecordData hmode)

/-- No fragment can be entered. -/
theorem readFragment_of_atRecordData :
    readFragment handle = .error (.invalidState "read_record") handle :=
  bind_of_error (readRecord_of_atRecordData hmode)

/-- **The archive header** is refused. -/
theorem refuses_readArchiveHeader : Refuses handle readArchiveHeader := by
  have hmarker : ¬ handle.state.mode = .reading .atMarker := by
    rw [hmode]
    decide
  rw [Refuses, readArchiveHeader, bind_of_ok (expectReading_of_atRecordData hmode _),
    bind_of_ok (state_apply handle)]
  by_cases hunpacker : handle.state.unpacker = .validatingFormat
  · rw [bind_of_ok (require_of hunpacker _ handle), if_neg hmarker]
    exact ⟨_, bind_of_error (readRecord_of_atRecordData hmode)⟩
  · exact ⟨_, bind_of_error (require_of_not hunpacker _ handle)⟩

omit hmode [ByteSource σ] in
/-- Only metadata that is already there is given. -/
theorem givesOnly_knownFile :
    GivesOnly handle (fun info => handle.state.currentFile? = some info) knownFile := by
  rw [GivesOnly, knownFile, bind_of_ok (state_apply handle)]
  cases handle.state.currentFile? with
  | none => exact .refl handle
  | some info => exact ⟨rfl, .refl handle⟩

/-- **The metadata** can only be those that are known already. -/
theorem givesOnly_currentFileInfo :
    GivesOnly handle (fun info => handle.state.currentFile? = some info) currentFileInfo := by
  rw [GivesOnly, currentFileInfo, bind_of_ok (expectReading_of_atRecordData hmode _),
    bind_of_ok (state_apply handle)]
  cases handle.state.unpacker with
  | validatingFormat => exact .refl handle
  | fileHeader =>
    show Outcome _ _ (readFileHeader handle)
    rw [readFileHeader_of_atRecordData hmode]
    exact .refl handle
  | fileData => exact givesOnly_knownFile
  | afterFileData => exact givesOnly_knownFile

/-- A round of reading content comes to its end or is refused. -/
theorem outcome_readRound_of_atRecordData (count : Nat) :
    Outcome (fun round final => round = some [] ∧ IsUnmoved handle final)
      (fun _ final => IsUnmoved handle final) (readRound count handle) := by
  rw [readRound, bind_of_ok (takePayload_of_atRecordData hmode count),
    bind_of_ok (state_apply handle), if_neg (not_not_intro rfl)]
  split
  · rw [bind_of_error (readFragment_of_atRecordData hmode)]
    exact .refl handle
  · refine Outcome.bind ((outcome_verifyEntry handle).mono ?_ ?_)
    · rintro _ ⟨stream, state⟩ rfl
      exact ⟨rfl, rfl, rfl⟩
    · rintro _ _ ⟨rfl, -⟩
      exact .refl _

/-- **No content** is given, at most its end. -/
theorem givesOnly_readFileData (count : Nat) :
    GivesOnly handle (fun bytes => bytes = []) (readFileData count) := by
  rw [GivesOnly, readFileData, bind_of_ok (expectReading_of_atRecordData hmode _),
    bind_of_ok (state_apply handle)]
  cases handle.state.unpacker with
  | validatingFormat => exact .refl handle
  | fileHeader => exact .refl handle
  | afterFileData => exact ⟨rfl, .refl handle⟩
  | fileData =>
    show Outcome _ _ ((if count = 0 then _ else _ : Call σ (List UInt8)) handle)
    split
    · exact ⟨rfl, .refl handle⟩
    · -- there is one round
      refine Outcome.repeatUntil (fun start => start = handle) ?_ rfl
      rintro _ rfl
      refine (outcome_readRound_of_atRecordData hmode count).mono ?_ fun _ _ hfinal => hfinal
      rintro _ final ⟨rfl, hfinal⟩
      exact ⟨rfl, hfinal⟩

/-- A round of skipping comes to the end of the entry or is refused. -/
theorem outcome_skipRound_of_atRecordData :
    Outcome (fun round final => round = some () ∧ final = handle) (fun _ final => final = handle)
      (skipRound handle) := by
  rw [skipRound, bind_of_ok (leavePayload_of_atRecordData hmode), bind_of_ok (state_apply handle)]
  split
  · rw [bind_of_error (readFragment_of_atRecordData hmode)]
    rfl
  · exact ⟨rfl, rfl⟩

/-- The start of skipping changes nothing. -/
theorem outcome_beginSkip_of_atRecordData :
    Outcome (fun _ final => final = handle) (fun _ final => final = handle) (beginSkip handle) := by
  rw [beginSkip, bind_of_ok (state_apply handle)]
  cases handle.state.unpacker with
  | validatingFormat => rfl
  | fileHeader =>
    refine Outcome.bind ?_
    rw [readRecord_of_atRecordData hmode]
    rfl
  | fileData => rfl
  | afterFileData => rfl

/-- **Skipping** moves nothing on the stream. -/
theorem givesOnly_skipFile : GivesOnly handle (fun _ => True) skipFile := by
  rw [GivesOnly, skipFile, bind_of_ok (expectReading_of_atRecordData hmode _)]
  refine Outcome.bind ((outcome_beginSkip_of_atRecordData hmode).mono ?_ ?_)
  · rintro _ _ rfl
    refine Outcome.bind (Outcome.repeatUntil (fun start => start = _) ?_ rfl)
    rintro _ rfl
    refine (outcome_skipRound_of_atRecordData hmode).mono ?_ ?_
    · rintro _ ⟨stream, state⟩ ⟨rfl, rfl⟩
      exact ⟨trivial, rfl, rfl⟩
    · rintro _ _ rfl
      exact .refl _
  · rintro _ _ rfl
    exact .refl _

/-- The start of extraction moves nothing on the stream. -/
theorem outcome_beginExtract_of_atRecordData :
    Outcome (fun _ final => final = handle) (fun _ final => IsUnmoved handle final)
      (beginExtract handle) := by
  rw [beginExtract, bind_of_ok (expectReading_of_atRecordData hmode _),
    bind_of_ok (state_apply handle)]
  cases hunpacker : handle.state.unpacker with
  | validatingFormat => exact .refl handle
  | fileHeader =>
    refine Outcome.bind ?_
    rw [currentFileInfo, bind_of_ok (expectReading_of_atRecordData hmode _),
      bind_of_ok (state_apply handle), hunpacker]
    show Outcome _ _ (readFileHeader handle)
    rw [readFileHeader_of_atRecordData hmode]
    exact .refl handle
  | fileData => rfl
  | afterFileData => rfl

/-- Nothing comes to the sink. -/
theorem outcome_extract_of_atRecordData [ByteSink τ] (sink : τ) :
    Outcome (fun _ final => final.1 = ⟨sink, 0⟩ ∧ IsUnmoved handle final.2)
      (fun _ final => final.1 = ⟨sink, 0⟩ ∧ IsUnmoved handle final.2)
      (extract ((⟨sink, 0⟩ : CopySink τ), handle)) := by
  refine Outcome.bind (outcome_lift ((outcome_beginExtract_of_atRecordData hmode).mono ?_ ?_))
  · rintro _ _ rfl
    refine Outcome.bind (outcome_lift ?_)
    -- There is one round, as no content is given.
    refine Outcome.bind (Outcome.repeatUntil (fun start => start = (⟨sink, 0⟩, _)) ?_ rfl)
    rintro _ rfl
    refine Outcome.bind (outcome_lift ((givesOnly_readFileData hmode _).mono ?_ ?_))
    · rintro _ ⟨stream, state⟩ ⟨rfl, hunmoved⟩
      exact ⟨rfl, hunmoved.stream, hunmoved.mode⟩
    · exact fun _ _ hunmoved => ⟨rfl, hunmoved⟩
  · exact fun _ _ hunmoved => ⟨rfl, hunmoved⟩

/-- **A stranded handle gives nothing**, whatever entry it has come from. -/
theorem givesNothing_of_atRecordData [ByteSink τ] : GivesNothing τ handle where
  mode := hmode
  findMarker := ⟨_, bind_of_error (expectReader_of_atRecordData hmode (by decide) _)⟩
  readRecord := ⟨_, readRecord_of_atRecordData hmode⟩
  skipRecord := ⟨_, bind_of_error
    (payloadToSkip_of_other (by rw [hmode]; decide) (by rw [hmode]; decide))⟩
  readAddedData _ := ⟨_, bind_of_error (expectReader_of_atRecordData hmode (by decide) _)⟩
  readArchiveHeader := refuses_readArchiveHeader hmode
  currentFileInfo := givesOnly_currentFileInfo hmode
  readFileData := givesOnly_readFileData hmode
  extract := outcome_extract_of_atRecordData hmode
  skipFile := givesOnly_skipFile hmode

end Stranded

/-! ## Calls in a row -/

/-- The mode of the handle is the given one, whether the call succeeds or not. -/
def EndsIn (mode : Mode) (result : EStateM.Result ArchiveError (Archive σ) Unit) : Prop :=
  Outcome (fun _ final => final.state.mode = mode) (fun _ final => final.state.mode = mode) result

/-- A call that fails at the latest where it should write keeps the mode of a handle that reads. -/
theorem HasEffect.endsIn {handle : Archive σ} {condition : Prop} {ok : Unit → Archive σ → Prop}
    {failed : HandleState → Prop} {result : EStateM.Result ArchiveError (Archive σ) Unit} {mode : Mode}
    (h : HasEffect handle condition ok failed result)
    (hok : ∀ value final, ok value final → final.state.mode = mode)
    (hfailed : ∀ state, failed state → state.mode = mode) : EndsIn mode result :=
  h.mono hok fun _ final hfinal => hfailed final.state hfinal.1

/-- A call that moves nothing leaves the mode. -/
theorem GivesOnly.endsIn {handle : Archive σ} {α : Type} {allowed : α → Prop} {call : Call σ α}
    (h : GivesOnly handle allowed call) {mode : Mode} (hmode : handle.state.mode = mode) :
    EndsIn mode ((do let _ ← call; pure () : Call σ Unit) handle) :=
  outcome_of_dropped (h.mono (fun _ _ hfinal => hfinal.2.mode.trans hmode)
    fun _ _ hfinal => hfinal.mode.trans hmode)

end Archive

section Reading

variable {handle : Archive σ} {place : ReaderState} (hmode : handle.state.mode = .reading place)
include hmode

/-- A handle that reads has no payload to write. -/
theorem HandleState.not_isOpen_of_reading : ¬ ∃ pending, handle.state.IsOpen pending :=
  not_isOpen_of_mode_ne (by rw [hmode]; nofun)

/-- A handle that is read cannot start a record. -/
theorem Archive.not_isReady_of_reading : ¬ IsReady handle := by
  rintro (h | hopen)
  · cases hmode.symm.trans h
  · exact HandleState.not_isOpen_of_reading hmode hopen

/-- A handle that is read has nothing to seal. -/
theorem Archive.mode_of_isSealed {state : HandleState} (h : IsSealed handle state) :
    state.mode = .reading place := by
  rcases h with hattempted | ⟨hopen, -⟩
  · rw [hattempted.eq_of_not_isOpen (HandleState.not_isOpen_of_reading hmode), hmode]
  · exact absurd hopen (HandleState.not_isOpen_of_reading hmode)

variable [ByteSink σ] [Seekable σ]

/-- **The writer** does nothing on a handle that reads. -/
theorem WriterCall.endsIn (call : WriterCall) : EndsIn (.reading place) (call.run handle) := by
  have hnot {kept : Prop} (h : IsReady handle) : kept := absurd h (not_isReady_of_reading hmode)
  have hnone {kept : Prop} (h : ∃ pending, handle.state.IsOpen pending) : kept := hnot (.inr h)
  have hsealed (state : HandleState) (h : IsSealed handle state) : state.mode = .reading place :=
    mode_of_isSealed hmode h
  have hsame (state : HandleState) (h : state = handle.state) : state.mode = .reading place :=
    h ▸ hmode
  cases call with
  | start record => exact (effect_writeRecord record handle).endsIn (fun _ _ h => hnot h.1) hsealed
  | startStreamed record =>
    exact (effect_startStreamedRecord record handle).endsIn (fun _ _ h => hnot h.1) hsealed
  | whole record payload =>
    exact (effect_writeRecordWithAddedData record payload.bytes handle).endsIn
      (fun _ _ h => hnot h.1) hsealed
  | append chunk =>
    refine (effect_writeAddedData chunk handle).endsIn (fun _ _ h => ?_) hsame
    obtain ⟨pending, hpending, -⟩ := h
    exact hnone ⟨pending, hpending⟩
  | finish =>
    exact (hasEffect_finishAddedData handle).endsIn (fun _ _ h => hnone h.1)
      fun state h => hsealed state (.inl h)
  | flush =>
    exact (effect_flushStream handle.stream handle.state).mono (fun _ _ h => hsame _ h)
      fun _ _ h => hsame _ h.1

omit [ByteSink σ] [Seekable σ] in
/-- A handle that is read cannot be packed into. -/
theorem Archive.expectPacker_of_reading (allowed : List PackerState) (name : String) :
    expectPacker allowed name handle = .error (.invalidState name) handle := by
  rw [expectPacker, bind_of_ok (state_apply handle), hmode]
  rfl

/-- **The packer** does nothing on a handle that reads, but for turning it. -/
theorem PackerCall.endsIn [ByteSource ι] (call : PackerCall ι) (hcall : call ≠ .initArchive) :
    EndsIn (.reading place) (call.run handle) := by
  have hrefused {result : EStateM.Result ArchiveError (Archive σ) Unit} {name : String}
      (h : result = .error (.invalidState name) handle) : EndsIn (.reading place) result := by
    rw [h]
    exact hmode
  cases call with
  | initArchive => exact absurd rfl hcall
  | beginFile info => exact hrefused (bind_of_error (expectPacker_of_reading hmode _ _))
  | insertFileData input =>
    exact hrefused (CallWith.withValue_of_error
      (bind_of_error (lift_of_error (expectPacker_of_reading hmode _ _))))
  | endFile => exact hrefused (bind_of_error (expectPacker_of_reading hmode _ _))
  | addFile info content => exact hrefused (bind_of_error (expectPacker_of_reading hmode _ _))

end Reading

/-- Whether the call may turn the handle to writing. -/
def HandleCall.turnsToWriting : HandleCall ι τ → Bool
  | startWriting => true
  | packer .initArchive => true
  | _ => false

section Runs

variable [ByteSource ι] [ByteSink τ] [ByteSource σ] [ByteSink σ] [Seekable σ]

/-- **A stranded handle stays stranded** unless it is turned to writing. -/
theorem HandleCall.keeps_atRecordData {call : HandleCall ι τ} (hcall : call.turnsToWriting = false)
    {handle : Archive σ} (hmode : handle.state.mode = .reading .atRecordData) :
    EndsIn (.reading .atRecordData) (call.run handle) := by
  have hnothing : GivesNothing τ handle := givesNothing_of_atRecordData hmode
  cases call with
  | startReading =>
    show EndsIn _ (Archive.startReading handle)
    rw [Archive.startReading, bind_of_ok (state_apply handle), hmode]
    exact hmode
  | startWriting => cases hcall
  | writeMarker =>
    refine (effect_writeMarker handle).endsIn (fun _ _ h => ?_) fun _ h => h ▸ hmode
    exact absurd (hmode.symm.trans h.1) (by decide)
  | reader call =>
    cases call with
    | findMarker => exact (hnothing.findMarker.givesOnly fun _ => True).endsIn hmode
    | readRecord => exact (hnothing.readRecord.givesOnly fun _ => True).endsIn hmode
    | skipRecord =>
      obtain ⟨name, hrun⟩ := hnothing.skipRecord
      show EndsIn _ (Archive.skipRecord handle)
      rw [hrun]
      exact hmode
    | readAddedData count => exact ((hnothing.readAddedData count).givesOnly fun _ => True).endsIn hmode
  | writer call => exact WriterCall.endsIn hmode call
  | unpacker call =>
    cases call with
    | readArchiveHeader => exact (hnothing.readArchiveHeader.givesOnly fun _ => True).endsIn hmode
    | currentFileInfo => exact hnothing.currentFileInfo.endsIn hmode
    | readFileData count => exact (hnothing.readFileData count).endsIn hmode
    | extract sink =>
      exact CallWith.outcome_withValue ((hnothing.extract sink).mono
        (fun _ _ hfinal => hfinal.2.mode.trans hmode) fun _ _ hfinal => hfinal.2.mode.trans hmode)
    | skipFile =>
      exact hnothing.skipFile.mono (fun _ _ hfinal => hfinal.2.mode.trans hmode)
        fun _ _ hfinal => hfinal.mode.trans hmode
  | packer call =>
    refine PackerCall.endsIn hmode call ?_
    rintro rfl
    cases hcall

/-- The handle after the call, whether that succeeds or not. -/
def HandleCall.after (call : HandleCall ι τ) (handle : Archive σ) : Archive σ :=
  match call.run handle with
  | .ok _ final => final
  | .error _ final => final

/-- The handle after calls in a row, whether they succeed or not. -/
def HandleCall.afterAll (calls : List (HandleCall ι τ)) (handle : Archive σ) : Archive σ :=
  calls.foldl (fun middle call => call.after middle) handle

/-- **Along all later calls** that do not turn the handle to writing the mode stays. -/
theorem HandleCall.mode_afterAll {calls : List (HandleCall ι τ)}
    (hcalls : ∀ call ∈ calls, call.turnsToWriting = false) {handle : Archive σ}
    (hmode : handle.state.mode = .reading .atRecordData) :
    (afterAll calls handle).state.mode = .reading .atRecordData := by
  induction calls generalizing handle with
  | nil => exact hmode
  | cons call calls ih =>
    have hends := keeps_atRecordData (hcalls call List.mem_cons_self) hmode
    have hnext : (call.after handle).state.mode = .reading .atRecordData := by
      unfold after
      cases hrun : call.run handle with
      | ok value final => exact hends.of_ok hrun
      | error error final => exact hends.of_error hrun
    exact ih (fun call hmem => hcalls call (List.mem_cons_of_mem _ hmem)) hnext

/-- **A structural failure is final**: a record that could not be read, or not be skipped, leaves the
handle as it was if the stream has ended or failed in front of its first byte. Otherwise the handle is
stranded inside the record, and after any calls that do not turn it to writing it gives nothing. -/
theorem Archive.stranded_of_failed_record {unread : σ → List UInt8} (hs : IsFallibleSource unread)
    {handle final : Archive σ} {error : ArchiveError}
    (hfailed : readRecord handle = .error error final ∨
      handle.state.mode = .reading .atRecordHeader ∧ skipRecord handle = .error error final) :
    (unread final.stream = unread handle.stream ∧ final.state = handle.state ∧
        (handle.state.mode = .reading .atRecordHeader →
          error = .eof ∨ ∃ cause, error = .read cause)) ∨
      ((∃ taken, taken ≠ [] ∧ unread handle.stream = taken ++ unread final.stream) ∧
        final.state = handle.state.stranded ∧ ∀ calls : List (HandleCall ι τ),
          (∀ call ∈ calls, call.turnsToWriting = false) →
            GivesNothing τ (HandleCall.afterAll calls final)) := by
  -- A record that is not asked for at a boundary is refused, and nothing has moved.
  have hcases : StopsAt unread handle error final ∨
      handle.state.mode ≠ .reading .atRecordHeader ∧ final = handle := by
    rcases hfailed with hread | ⟨hmode, hskip⟩
    · by_cases hmode : handle.state.mode = .reading .atRecordHeader
      · exact .inl ((stops_readRecord hs.readsFrom hmode).of_error hread)
      · have hrefused : readRecord handle = .error (.invalidState "read_record") handle :=
          bind_of_error (expectReader_of_mode_ne hmode _)
        cases hread.symm.trans hrefused
        exact .inr ⟨hmode, rfl⟩
    · exact .inl ((stops_skipRecord hs.readsFrom hmode).of_error hskip)
  rcases hcases with (⟨hfirst, hstate⟩ | ⟨hne, hbytes, hstate⟩) | ⟨hmode, rfl⟩
  · obtain ⟨hunread, hcause⟩ := (hs.readExactly_first handle.stream).of_error hfirst
    exact .inl ⟨hunread, hstate, fun _ => hcause⟩
  · refine .inr ⟨⟨_, hne, hbytes⟩, hstate, fun calls hcalls => ?_⟩
    refine givesNothing_of_atRecordData (HandleCall.mode_afterAll hcalls ?_)
    rw [hstate]
    rfl
  · exact .inl ⟨rfl, rfl, fun h => absurd h hmode⟩

end Runs

/-! ### A record that is torn -/

/-- A reader in front of a fragment of which only five bytes can be read. -/
def torn : Archive FaultyStream :=
  ⟨⟨.ofList quartet.toBytes, { readFailAt? := some 5 }⟩, { mode := .reading .atRecordHeader }⟩

/-- Behind these five bytes nothing is given any more, also when other calls have been tried. -/
theorem Archive.stranded_of_failed_record_torn : ∃ (error : ArchiveError)
    (final : Archive FaultyStream),
    readRecord torn = .error error final ∧ final.state = torn.state.stranded ∧
      GivesNothing BoundedSink (HandleCall.afterAll ([.reader .readRecord, .startReading,
        .unpacker .skipFile, .writer .flush] : List (HandleCall (List UInt8) BoundedSink)) final) := by
  have hrun : readRecord torn = .error (.read (.worded .other "read fault"))
      ⟨⟨{ torn.stream.memory with position := 5 }, torn.stream.faults⟩, torn.state.stranded⟩ := by
    cbv
  refine ⟨_, _, hrun, rfl, ?_⟩
  rcases @stranded_of_failed_record _ (List UInt8) BoundedSink _ _ _ _ _ _
    FaultyStream.isFallibleSource _ _ _ (.inl hrun) with ⟨hunread, -⟩ | ⟨-, -, hnothing⟩
  · exact absurd hunread (by decide +kernel)
  · exact hnothing _ (by decide)

end RecordArchive
