import RecordArchive.Proofs.Archive.Representation
import RecordArchive.Proofs.Archive.Stranded

/-! # The phases of a handle

A handle is written to or not, and while it is written to it stands in front of the marker or behind it.

* `ReaderCall.run_of_not_reading`, `UnpackerCall.run_of_not_reading`: what reads is refused elsewhere.
* `HandleCall.not_isWriting_after`: **only two calls** turn a handle to writing.
* `HandleCall.after_of_atMarker`: **in front of the marker** only three calls do anything.
* `HandleCall.isReady_after`: **behind the marker** a handle stays there until it is turned to reading. -/

namespace RecordArchive

open Program Call Archive

variable {σ ι τ : Type}

/-- The handle is written to. -/
def HandleState.IsWriting (state : HandleState) : Prop := ∃ place, state.mode = .writing place

/-- The handle is read. -/
def HandleState.IsReading (state : HandleState) : Prop := ∃ place, state.mode = .reading place

/-- A handle that has been turned to reading is read. -/
theorem isReading_of_turnedToReading {first second : HandleState}
    (h : second = turnedToReading first) : second.IsReading := ⟨_, by rw [h]; rfl⟩

/-- A handle is not written to and read at once. -/
theorem HandleState.IsWriting.not_isReading {state : HandleState} (h : state.IsWriting) :
    ¬ state.IsReading := by
  obtain ⟨place, hmode⟩ := h
  rintro ⟨place', hmode'⟩
  cases hmode.symm.trans hmode'

/-- What holds of a handle however a call ends holds of the one that the call leaves. -/
theorem HandleCall.of_outcome [ByteSource ι] [ByteSink τ] [ByteSource σ] [ByteSink σ] [Seekable σ]
    {call : HandleCall ι τ} {handle : Archive σ} (holds : Archive σ → Prop)
    (h : Outcome (fun _ final => holds final) (fun _ final => holds final) (call.run handle)) :
    holds (call.after handle) := by
  unfold after
  cases hrun : call.run handle with
  | ok value final => exact h.of_ok hrun
  | error error final => exact h.of_error hrun

/-- A call leaves a handle in use in use. -/
theorem InUse.exists_after [ByteSource ι] [ByteSink τ] [ByteSource σ] [ByteSink σ] [Seekable σ]
    {draft? : Option Draft} {handle : Archive σ} (h : InUse draft? handle)
    (call : HandleCall ι τ) : ∃ latest?, InUse latest? (call.after handle) := by
  unfold HandleCall.after
  cases hrun : call.run handle with
  | ok value final => exact ⟨_, h.returned call hrun⟩
  | error error final => exact ⟨_, h.failed call hrun⟩

/-! ## Calls that do nothing -/

/-- **A call that is declined** fails, for whatever reason, and leaves the handle as it was. -/
def Archive.Declines {α : Type} (handle : Archive σ) (call : Call σ α) : Prop :=
  ∃ error, call handle = .error error handle

namespace Archive.Declines

variable {α β : Type} {handle : Archive σ}

/-- A call is declined if its first part is. -/
theorem bind {first : Call σ β} {next : β → Call σ α} (h : handle.Declines first) :
    handle.Declines (first >>= next) := by
  obtain ⟨error, hrun⟩ := h
  exact ⟨error, bind_of_error hrun⟩

/-- A call is declined if its first part does nothing and the rest is. -/
theorem bind_of_ok {first : Call σ β} {next : β → Call σ α} {value : β}
    (hfirst : first handle = .ok value handle) (h : handle.Declines (next value)) :
    handle.Declines (first >>= next) := by
  obtain ⟨error, hrun⟩ := h
  exact ⟨error, by rw [Program.bind_of_ok hfirst, hrun]⟩

/-- A result that is looked at first may be a failure itself. -/
theorem bind_ofResult (result : Except ArchiveError β) {next : β → Call σ α}
    (h : ∀ value, handle.Declines (next value)) : handle.Declines (ofResult result >>= next) := by
  cases result with
  | ok value => exact bind_of_ok rfl (h value)
  | error error => exact bind ⟨error, rfl⟩

/-- A call that works on a value of the caller is declined if its first part is. -/
theorem withValue {ρ : Type} {value : ρ} {first : Call σ β} {next : β → CallWith ρ σ α}
    (h : handle.Declines first) :
    handle.Declines (CallWith.withValue value (Call.lift first >>= next)) := by
  obtain ⟨error, hrun⟩ := h
  exact ⟨error, CallWith.withValue_of_error (bind_of_error (lift_of_error hrun))⟩

end Archive.Declines

/-- The handle behind a success. -/
theorem HandleCall.after_of_ok [ByteSource ι] [ByteSink τ] [ByteSource σ] [ByteSink σ] [Seekable σ]
    {call : HandleCall ι τ} {handle final : Archive σ} (h : call.run handle = .ok () final) :
    call.after handle = final := by
  rw [after, h]

/-- A call that is declined leaves the handle. -/
theorem HandleCall.after_of_declines [ByteSource ι] [ByteSink τ] [ByteSource σ] [ByteSink σ]
    [Seekable σ] {call : HandleCall ι τ} {handle : Archive σ} (h : handle.Declines call.run) :
    call.after handle = handle := by
  obtain ⟨error, hrun⟩ := h
  unfold after
  rw [hrun]

/-! ## Calls that read -/

section Reading

variable [ByteSource σ] {handle : Archive σ} (hmode : ¬ handle.state.IsReading)
include hmode

/-- **What reads records** is declined where the handle is not read. -/
theorem ReaderCall.declines_of_not_isReading (call : ReaderCall) : handle.Declines call.run := by
  have hexpect (place : ReaderState) (name : String) : handle.Declines (expectReader place name) :=
    ⟨_, expectReader_of_mode_ne (fun h => hmode ⟨place, h⟩) name⟩
  cases call with
  | findMarker => exact (hexpect _ _).bind.bind
  | readRecord => exact (hexpect _ _).bind.bind
  | readAddedData count => exact (hexpect _ _).bind.bind
  | skipRecord =>
    have hskip : handle.Declines payloadToSkip := by
      refine .bind_of_ok (state_apply handle) ?_
      rcases hplace : handle.state.mode with _ | place | _
      case reading => exact absurd ⟨place, hplace⟩ hmode
      all_goals exact ⟨_, rfl⟩
    exact hskip.bind

/-- **What unpacks entries** is declined where the handle is not read. -/
theorem UnpackerCall.declines_of_not_isReading [ByteSink τ] (call : UnpackerCall τ) :
    handle.Declines call.run := by
  have hexpect (name : String) : handle.Declines (expectReading name) := by
    refine .bind_of_ok (state_apply handle) ?_
    rcases hplace : handle.state.mode with _ | place | _
    case reading => exact absurd ⟨place, hplace⟩ hmode
    all_goals exact ⟨_, rfl⟩
  cases call with
  | readArchiveHeader => exact (hexpect _).bind.bind
  | currentFileInfo => exact (hexpect _).bind.bind
  | readFileData count => exact (hexpect _).bind.bind
  | skipFile => exact (hexpect _).bind
  | extract sink => exact (hexpect _).bind.withValue

end Reading

/-! ## Handles that are not written to -/

section NotWriting

variable {handle : Archive σ} (hmode : ¬ handle.state.IsWriting)
include hmode

/-- Where nothing is written no record can start. -/
theorem Archive.not_isReady_of_not_isWriting : ¬ IsReady handle := by
  rintro (h | ⟨pending, hopen⟩)
  · exact hmode ⟨_, h⟩
  · exact hmode ⟨_, hopen.mode⟩

/-- Where nothing is written there is nothing to seal. -/
theorem HandleState.Attempted.eq_of_not_isWriting {state : HandleState}
    (h : handle.state.Attempted state) : state = handle.state :=
  h.eq_of_not_isOpen fun ⟨_, hopen⟩ => hmode ⟨_, hopen.mode⟩

/-- Where nothing is written sealing changes nothing. -/
theorem Archive.IsSealed.eq_of_not_isWriting {state : HandleState} (h : IsSealed handle state) :
    state = handle.state := by
  rcases h with hattempted | ⟨⟨pending, hopen⟩, -⟩
  · exact hattempted.eq_of_not_isWriting hmode
  · exact absurd ⟨_, hopen.mode⟩ hmode

variable [ByteSink σ] [Seekable σ]

/-- What writes records leaves the state of a handle that is not written to. -/
theorem WriterCall.state_of_not_isWriting (call : WriterCall) :
    Outcome (fun _ final => final.state = handle.state) (fun _ final => final.state = handle.state)
      (call.run handle) := by
  have hnot {kept : Prop} (h : IsReady handle) : kept :=
    absurd h (not_isReady_of_not_isWriting hmode)
  have hnone {kept : Prop} (h : ∃ pending, handle.state.IsOpen pending) : kept := hnot (.inr h)
  have hsealed (state : HandleState) (h : IsSealed handle state) : state = handle.state :=
    h.eq_of_not_isWriting hmode
  cases call with
  | start record =>
    exact (effect_writeRecord record handle).mono (fun _ _ h => hnot h.1) fun _ _ h => hsealed _ h.1
  | startStreamed record =>
    exact (effect_startStreamedRecord record handle).mono (fun _ _ h => hnot h.1)
      fun _ _ h => hsealed _ h.1
  | whole record payload =>
    exact (effect_writeRecordWithAddedData record payload.bytes handle).mono (fun _ _ h => hnot h.1)
      fun _ _ h => hsealed _ h.1
  | append chunk =>
    refine (effect_writeAddedData chunk handle).mono ?_ fun _ _ h => h.1
    rintro _ _ ⟨pending, hopen, -⟩
    exact hnone ⟨pending, hopen⟩
  | finish =>
    exact (hasEffect_finishAddedData handle).mono (fun _ _ h => hnone h.1)
      fun _ _ h => h.1.eq_of_not_isWriting hmode
  | flush =>
    exact (effect_flushStream handle.stream handle.state).mono (fun _ _ h => h) fun _ _ h => h.1

/-- What packs entries is declined where the handle is not written to, but for the call that turns it. -/
theorem PackerCall.declines_of_not_isWriting [ByteSource ι] {call : PackerCall ι}
    (hcall : call ≠ .initArchive) : handle.Declines call.run := by
  have hexpect (allowed : List PackerState) (name : String) :
      handle.Declines (expectPacker allowed name) := by
    refine .bind_of_ok (state_apply handle) ?_
    rcases hplace : handle.state.mode with _ | _ | place
    case writing => exact absurd ⟨place, hplace⟩ hmode
    all_goals exact ⟨_, rfl⟩
  cases call with
  | initArchive => exact absurd rfl hcall
  | beginFile info => exact (hexpect _ _).bind
  | insertFileData input => exact (hexpect _ _).withValue
  | endFile => exact (hexpect _ _).bind
  | addFile info content => exact (hexpect _ _).bind

/-- **Only two calls turn a handle to writing.** -/
theorem HandleCall.not_isWriting_after [ByteSource ι] [ByteSink τ] [ByteSource σ]
    {call : HandleCall ι τ} (hcall : call.turnsToWriting = false) :
    ¬ (call.after handle).state.IsWriting := by
  have hsame (final : Archive σ) (h : final.state = handle.state) : ¬ final.state.IsWriting :=
    h ▸ hmode
  have huse (final : Archive σ) (h : handle.state.Continues final.state) :
      ¬ final.state.IsWriting := by
    rw [HandleState.IsWriting, ← Mode.exists_use_eq_writing, h.use, Mode.exists_use_eq_writing]
    exact hmode
  refine HandleCall.of_outcome (fun final => ¬ final.state.IsWriting) ?_
  cases call with
  | startReading =>
    refine (effect_startReading handle).mono ?_ fun _ final hfinal => ?_
    · rintro _ final (⟨rfl, -⟩ | ⟨state, -, -, hturned⟩)
      · exact hmode
      · exact fun h => h.not_isReading (isReading_of_turnedToReading hturned)
    · exact hsame final (hfinal.1.eq_of_not_isWriting hmode)
  | startWriting => cases hcall
  | writeMarker =>
    exact (effect_writeMarker handle).mono (fun _ _ h => absurd ⟨_, h.1⟩ hmode)
      fun _ final h => hsame final h.1
  | reader call =>
    exact (call.keepsUse handle).mono (fun _ final h => huse final h) fun _ final h => huse final h.1
  | writer call =>
    exact (WriterCall.state_of_not_isWriting hmode call).mono (fun _ final h => hsame final h)
      fun _ final h => hsame final h
  | unpacker call =>
    exact (call.keepsUse handle).mono (fun _ final h => huse final h) fun _ final h => huse final h.1
  | packer call =>
    have hinit : call ≠ .initArchive := by
      rintro rfl
      cases hcall
    obtain ⟨error, hrun⟩ := PackerCall.declines_of_not_isWriting hmode hinit
    show Outcome _ _ (call.run handle)
    rw [hrun]
    exact hmode

end NotWriting

/-! ## Handles in front of the marker -/

section AtMarker

variable [ByteSink σ] [Seekable σ] {handle : Archive σ} (hmode : handle.state.mode = .writing .atMarker)
include hmode

omit [ByteSink σ] [Seekable σ] in
/-- In front of the marker no payload is open. -/
theorem Archive.not_isOpen_of_atMarker : ¬ ∃ pending, handle.state.IsOpen pending :=
  HandleState.not_isOpen_of_mode_ne (by rw [hmode]; nofun)

omit [ByteSink σ] [Seekable σ] in
/-- In front of the marker no record can start. -/
theorem Archive.not_isReady_of_atMarker : ¬ IsReady handle := by
  rintro (hrecord | hopen)
  · cases hmode.symm.trans hrecord
  · exact not_isOpen_of_atMarker hmode hopen

/-- No record starts in front of the marker. -/
theorem Archive.declines_readyForRecord_of_atMarker (name : String) :
    handle.Declines (readyForRecord name) := by
  refine .bind_of_ok (state_apply handle) ?_
  rw [hmode]
  exact ⟨_, rfl⟩

/-- The writer does nothing in front of the marker, but for handing over what was written. -/
theorem WriterCall.declines_of_atMarker {call : WriterCall} (hcall : call ≠ .flush) :
    handle.Declines call.run := by
  have hready := declines_readyForRecord_of_atMarker hmode
  have hexpect (name : String) : handle.Declines (expectPending name) :=
    ⟨_, expectPending_of_not_isOpen (not_isOpen_of_atMarker hmode) name⟩
  cases call with
  | start record => exact (hready _).withValue
  | startStreamed record =>
    by_cases hsize : record.hasAddedSize = true
    · have hrun : CallWith.withValue record startStreamedRecord handle
          = CallWith.withValue record writeRecord handle := by
        unfold CallWith.withValue
        rw [startStreamedRecord_of_hasAddedSize hsize]
      have hdeclined : handle.Declines (CallWith.withValue record writeRecord) := (hready _).withValue
      obtain ⟨error, herror⟩ := hdeclined
      exact ⟨error, hrun.trans herror⟩
    · exact ⟨_, CallWith.withValue_of_error (startStreamedRecord_of_not_hasAddedSize hsize handle)⟩
  | whole record payload => exact (hready _).withValue
  | append chunk => exact (hexpect _).bind
  | finish => exact (hexpect _).bind
  | flush => exact absurd rfl hcall

/-- The packer does nothing in front of the marker. -/
theorem PackerCall.declines_of_atMarker [ByteSource ι] (hpacker : handle.state.packer = .idle)
    (call : PackerCall ι) : handle.Declines call.run := by
  have hready := declines_readyForRecord_of_atMarker hmode
  have hexpect {allowed : List PackerState} (hidle : .idle ∉ allowed) (name : String) :
      handle.Declines (expectPacker allowed name) := by
    refine .bind_of_ok (state_apply handle) ?_
    rw [hmode]
    exact ⟨_, require_of_not (by rwa [hpacker]) _ _⟩
  have hallowed (name : String) : expectPacker [.idle, .fileHeader] name handle = .ok () handle := by
    rw [expectPacker, bind_of_ok (state_apply handle), hmode]
    exact require_of (by simp [hpacker]) _ _
  cases call with
  | initArchive =>
    -- The marker is not written, since the handle is written to already.
    have hfresh : expectFresh "init_archive" handle = .ok () handle := by
      rw [expectFresh, bind_of_ok (state_apply handle), hmode]
      exact require_of hpacker _ _
    have hturned : startWriting handle = .ok () handle := by
      rw [startWriting, bind_of_ok (state_apply handle), hmode]
      rfl
    exact .bind_of_ok hfresh (.bind_of_ok hturned
      (.bind_ofResult _ fun _ => (hready _).withValue.bind))
  | beginFile info =>
    exact .bind_of_ok (hallowed _) (.bind_ofResult _ fun _ =>
      .bind_of_ok (state_apply handle) (hready _).withValue.bind)
  | insertFileData input => exact (hexpect (by decide) _).withValue
  | endFile => exact (hexpect (by decide) _).bind
  | addFile info content =>
    exact .bind_of_ok (hallowed _) (.bind_ofResult _ fun _ =>
      .bind_of_ok (state_apply handle) (hready _).withValue.bind)

/-- **In front of the marker** every call leaves the handle as it is, but for the one that writes the
marker, the one that turns the handle to reading and the one that hands over what was written. -/
theorem HandleCall.after_of_atMarker [ByteSource ι] [ByteSink τ] [ByteSource σ]
    (hpacker : handle.state.packer = .idle) {call : HandleCall ι τ} (hmarker : call ≠ .writeMarker)
    (hturn : call ≠ .startReading) (hflush : call ≠ .writer .flush) :
    call.after handle = handle := by
  have hreading : ¬ handle.state.IsReading := HandleState.IsWriting.not_isReading ⟨_, hmode⟩
  cases call with
  | startReading => exact absurd rfl hturn
  | startWriting =>
    refine HandleCall.of_outcome (fun final => final = handle) ?_
    show Outcome _ _ (Archive.startWriting handle)
    rw [Archive.startWriting, bind_of_ok (state_apply handle), hmode]
    rfl
  | writeMarker => exact absurd rfl hmarker
  | reader call => exact after_of_declines (call.declines_of_not_isReading hreading)
  | writer call =>
    refine after_of_declines (WriterCall.declines_of_atMarker hmode ?_)
    rintro rfl
    exact hflush rfl
  | unpacker call => exact after_of_declines (call.declines_of_not_isReading hreading)
  | packer call => exact after_of_declines (PackerCall.declines_of_atMarker hmode hpacker call)

end AtMarker

/-! ## Handles behind the marker -/

section Ready

variable {handle final : Archive σ}

namespace Archive

/-- Whether a record can start is seen from the mode and the payload. -/
theorem IsReady.congr (h : IsReady handle) (hmode : final.state.mode = handle.state.mode)
    (hpending : final.state.pending? = handle.state.pending?) : IsReady final := by
  rcases h with hrecord | ⟨pending, hopen⟩
  · exact .inl (hmode.trans hrecord)
  · exact .inr ⟨pending, hmode.trans hopen.mode, hpending.trans hopen.pending?⟩

/-- Whether a record can start is in the state alone. -/
theorem IsReady.of_state (h : IsReady handle) (hstate : final.state = handle.state) :
    IsReady final := h.congr (congrArg _ hstate) (congrArg _ hstate)

/-- Between two records the next one can start. -/
theorem isReady_of_atRecord (h : final.state.mode = .writing .atRecord) : IsReady final := .inl h

/-- A writer that has been moved stands where a record can start. -/
theorem isReady_of_writingAt {state : HandleState} {place : WriterPlace}
    (hmode : final.state.mode = (state.writingAt place).mode)
    (hpending : final.state.pending? = (state.writingAt place).pending?) : IsReady final := by
  cases place with
  | atRecord => exact .inl hmode
  | atAddedData pending => exact .inr ⟨pending, hmode, hpending⟩

/-- A payload that could not be sealed is still open. -/
theorem IsReady.of_attempted (h : IsReady handle) (hattempted : handle.state.Attempted final.state) :
    IsReady final := by
  rcases h with hmode | ⟨pending, hopen⟩
  · have hsame := hattempted.eq_of_not_isOpen (HandleState.not_isOpen_of_atRecord hmode)
    exact .inl (by rw [hsame, hmode])
  · rcases hattempted.isOpen hopen with hopen | hopen
    · exact .inr ⟨_, hopen⟩
    · exact .inr ⟨_, hopen⟩

/-- A record can still start behind an attempt to seal. -/
theorem IsReady.of_isSealed (h : IsReady handle) (hsealed : IsSealed handle final.state) :
    IsReady final := by
  rcases hsealed with hattempted | ⟨-, hstate⟩
  · exact h.of_attempted hattempted
  · exact isReady_of_atRecord (by rw [hstate]; rfl)

/-- Where a record can start the handle is written to. -/
theorem IsReady.isWriting (h : IsReady handle) : handle.state.IsWriting := h.exists_writing

/-- Where a record can start the marker has been written. -/
theorem IsReady.mode_ne_atMarker (h : IsReady handle) : handle.state.mode ≠ .writing .atMarker :=
  fun hmode => not_isReady_of_atMarker hmode h

/-- A handle that is written to stands in front of the marker or behind it. -/
theorem atMarker_or_isReady (hkeeps : handle.state.KeepsPending) (h : handle.state.IsWriting) :
    handle.state.mode = .writing .atMarker ∨ IsReady handle := by
  obtain ⟨_ | _ | _, hmode⟩ := h
  · exact .inl hmode
  · exact .inr (isReady_of_atRecord hmode)
  · exact .inr (.inr (hkeeps.exists_isOpen hmode))

end Archive

variable [ByteSink σ] [Seekable σ] (hready : IsReady handle)
include hready

/-- **A call of the writer** leaves a handle where a record can start. -/
theorem WriterCall.isReady_of_isReady (call : WriterCall) :
    Outcome (fun _ final => IsReady final) (fun _ final => IsReady final) (call.run handle) := by
  have hmoved {place : WriterPlace} {final : Archive σ}
      (hstate : final.state = handle.state.writingAt place) : IsReady final :=
    isReady_of_writingAt (congrArg HandleState.mode hstate) (congrArg HandleState.pending? hstate)
  cases call with
  | start record =>
    refine (effect_writeRecord record handle).mono ?_ fun _ _ h => hready.of_isSealed h.1
    exact fun _ _ ⟨_, _, _, hstate⟩ => hmoved hstate
  | startStreamed record =>
    refine (effect_startStreamedRecord record handle).mono ?_ fun _ _ h => hready.of_isSealed h.1
    exact fun _ _ ⟨_, _, _, _, hstate⟩ => hmoved hstate
  | whole record payload =>
    exact (effect_writeRecordWithAddedData record payload.bytes handle).mono
      (fun _ _ h => hmoved h.2) fun _ _ h => hready.of_isSealed h.1
  | append chunk =>
    refine (effect_writeAddedData chunk handle).mono ?_ fun _ _ h => hready.of_state h.1
    exact fun _ _ ⟨_, _, _, hstate⟩ => hmoved hstate
  | finish =>
    exact (hasEffect_finishAddedData handle).mono (fun _ _ h => hmoved h.2)
      fun _ _ h => hready.of_attempted h.1
  | flush =>
    exact (effect_flushStream handle.stream handle.state).mono (fun _ _ h => hready.of_state h)
      fun _ _ h => hready.of_state h.1

omit hready in
/-- On a handle that is written to, the archive header is one more record. -/
theorem Archive.effect_initArchive_of_isWriting (hmode : handle.state.IsWriting) :
    Outcome (fun _ final => final.state.mode = .writing .atRecord)
      (fun _ final => IsSealed handle final.state) (initArchive handle) := by
  refine Outcome.bind ((effect_expectFresh _ handle).mono ?_ fun _ _ h => h ▸ .inl (.refl _))
  rintro _ handle ⟨rfl, -⟩
  refine Outcome.bind ((effect_startWriting handle).mono ?_ fun _ _ h => absurd hmode h.1)
  rintro _ middle (⟨rfl, -⟩ | ⟨hnot, -⟩)
  · have hfailed (state : HandleState) (h : IsSealed middle state) : IsSealed middle state := h
    refine (effect_writeVersion (.inr rfl) hfailed).mono ?_ fun _ _ h => h.1
    intro _ final hstate
    rw [hstate]
    rfl
  · exact absurd hmode hnot

/-- **A call of the packer** leaves a handle where a record can start. -/
theorem PackerCall.isReady_of_isReady [ByteSource ι] (call : PackerCall ι) :
    Outcome (fun _ final => IsReady final) (fun _ final => IsReady final) (call.run handle) := by
  cases call with
  | initArchive =>
    exact (effect_initArchive_of_isWriting hready.isWriting).mono
      (fun _ _ h => isReady_of_atRecord h) fun _ _ h => hready.of_isSealed h
  | beginFile info =>
    refine (effect_beginFile info handle).mono ?_ fun _ _ h => hready.of_isSealed h.1
    rintro _ final ⟨header, -, -, offset?, hstate⟩
    generalize Record.placeBehind _ offset? = place at hstate
    have hmode : final.state.mode = (handle.state.writingAt place).mode := by rw [hstate]
    exact isReady_of_writingAt hmode (by rw [hstate])
  | insertFileData input =>
    have haccepted {chunks : List (List UInt8)} {state : HandleState} {final : Archive σ}
        (haccepts : handle.state.Accepts chunks state) (hmode : final.state.mode = state.mode)
        (hpending : final.state.pending? = state.pending?) : IsReady final := by
      rcases haccepts with ⟨-, rfl⟩ | ⟨pending, accepted, -, -, rfl⟩
      · exact hready.congr hmode hpending
      · exact isReady_of_writingAt hmode hpending
    refine CallWith.outcome_withValue ((outcome_insertFileData input handle).mono ?_ ?_)
    · rintro _ ⟨rest, final⟩ ⟨chunks, state, haccepts, -, -, -, hstate⟩
      have hfinal : final.state = { state with packer := .afterFileData } := hstate
      exact haccepted haccepts (by rw [hfinal]) (by rw [hfinal])
    · rintro _ ⟨rest, final⟩ ⟨⟨chunks, haccepts, -⟩, -⟩
      exact haccepted haccepts rfl rfl
  | endFile =>
    refine (effect_endFile handle).mono (fun _ _ h => ?_) fun _ _ h => hready.of_attempted h.1
    exact isReady_of_atRecord (by rw [h]; rfl)
  | addFile info content =>
    refine (effect_addFile info content handle).mono (fun _ _ h => ?_)
      fun _ _ h => hready.of_isSealed h.1
    exact isReady_of_atRecord (by rw [h.2.2]; rfl)

/-- **Behind the marker** a handle stays there until it is turned to reading. -/
theorem HandleCall.isReady_after [ByteSource ι] [ByteSink τ] [ByteSource σ] (call : HandleCall ι τ) :
    IsReady (call.after handle) ∨ call = .startReading ∧ (call.after handle).state.IsReading := by
  have hreading : ¬ handle.state.IsReading := hready.isWriting.not_isReading
  cases call with
  | startReading =>
    refine HandleCall.of_outcome (fun final => IsReady final ∨
      (startReading : HandleCall ι τ) = .startReading ∧ final.state.IsReading) ?_
    refine (effect_startReading handle).mono ?_ fun _ _ h => .inl (hready.of_isSealed h.1)
    rintro _ final (⟨-, hmode⟩ | ⟨state, -, -, hturned⟩)
    · exact absurd hmode hreading
    · exact .inr ⟨rfl, isReading_of_turnedToReading hturned⟩
  | startWriting =>
    refine .inl (HandleCall.of_outcome IsReady ?_)
    refine (effect_startWriting handle).mono ?_ fun _ _ h => absurd hready.isWriting h.1
    rintro _ final (⟨rfl, -⟩ | ⟨hnot, -⟩)
    · exact hready
    · exact absurd hready.isWriting hnot
  | writeMarker =>
    refine .inl (HandleCall.of_outcome IsReady ?_)
    exact (effect_writeMarker handle).mono (fun _ _ h => absurd h.1 hready.mode_ne_atMarker)
      fun _ _ h => hready.of_state h.1
  | reader call =>
    rw [after_of_declines (call.declines_of_not_isReading hreading)]
    exact .inl hready
  | writer call =>
    exact .inl (HandleCall.of_outcome IsReady (WriterCall.isReady_of_isReady hready call))
  | unpacker call =>
    rw [after_of_declines (call.declines_of_not_isReading hreading)]
    exact .inl hready
  | packer call =>
    exact .inl (HandleCall.of_outcome IsReady (PackerCall.isReady_of_isReady hready call))

end Ready

end RecordArchive
