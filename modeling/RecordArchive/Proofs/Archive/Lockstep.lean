import RecordArchive.Proofs.Archive.WritingEffects
import RecordArchive.Stream.Sequential

/-! # Streams that cannot seek, in lockstep with memory

The same calls are made on a stream in memory and on one that cannot seek over a stream in memory.
The second one refuses every question about its position, so a writer on it knows no place to return
to.

* `Archive.sequential` is the handle without position that stands where a handle in memory does, and
  `InStep` says that two handles stand so and that no open payload asks for a checksum.
* `Lockstep`: two results agree, or the second run is refused where the first one is no failed write.
  `Lockstep.bind` puts the lemmas for calls together.
* `Archive.lockstep_finishAddedData`, `Archive.lockstep_writeRecord`: the two places of a refusal, a
  payload that is not of its announced size and a record that has to be sealed. Nothing has been
  written by the call that comes to one of them.
* `Archive.simulates_writeAddedData_sequential` and its companions: calls that are never refused. -/

namespace RecordArchive

open Program Call Archive

/-! ## Handles without position -/

/-- The account of a payload whose record has no known position. -/
def PendingPayload.unplaced (pending : PendingPayload) : PendingPayload :=
  { pending with offset? := none }

/-- The state of a handle that knows no positions. -/
def HandleState.unplaced (state : HandleState) : HandleState :=
  { state with pending? := state.pending?.map PendingPayload.unplaced }

/-- The handle that stands where a handle on a stream in memory does, and cannot seek. -/
def Archive.sequential (handle : Archive MemoryStream) : Archive (Sequential MemoryStream) :=
  ⟨⟨handle.stream⟩, handle.state.unplaced⟩

/-- A payload that is complete, with its header, once it has its announced size. In memory the
position of its record is known. -/
structure PendingPayload.IsPlain (pending : PendingPayload) : Prop where
  announced : 0 < pending.declaredSize
  unchecked : pending.hasCrc = false
  placed : ∃ offset, pending.offset? = some offset

/-- An open payload is plain. -/
def HandleState.IsPlain (state : HandleState) : Prop :=
  ∀ pending, state.IsOpen pending → pending.IsPlain

/-- Outside of payloads none is open. -/
theorem HandleState.isPlain_of_mode_ne {state : HandleState}
    (h : state.mode ≠ .writing .atAddedData) : state.IsPlain :=
  fun _ hopen => absurd hopen.mode h

/-- Whether an open payload is plain depends on nothing else of the state. -/
theorem HandleState.IsPlain.congr {first second : HandleState} (h : first.IsPlain)
    (hmode : second.mode = first.mode) (hpending : second.pending? = first.pending?) :
    second.IsPlain :=
  fun pending hopen => h pending ⟨hmode ▸ hopen.mode, hpending ▸ hopen.pending?⟩

/-- A payload is open whether the position of its record is known or not. -/
theorem HandleState.IsOpen.unplaced {state : HandleState} {pending : PendingPayload}
    (h : state.IsOpen pending) : state.unplaced.IsOpen pending.unplaced where
  mode := h.mode
  pending? := congrArg (Option.map PendingPayload.unplaced) h.pending?

/-- Without its position a payload is open just where it is with it. -/
theorem HandleState.not_isOpen_unplaced {state : HandleState}
    (h : ¬ ∃ pending, state.IsOpen pending) : ¬ ∃ pending, state.unplaced.IsOpen pending := by
  rintro ⟨_, hmode, hpending⟩
  obtain ⟨pending, hkept, -⟩ := Option.map_eq_some_iff.mp hpending
  exact h ⟨pending, hmode, hkept⟩

/-- **Two handles in step**: the second one stands where the first one does, as far as it can. -/
structure InStep (first : Archive MemoryStream) (second : Archive (Sequential MemoryStream)) :
    Prop where
  sequential : second = first.sequential
  plain : first.state.IsPlain

/-- Two handles in step, where the stream of the second one is as it was. -/
structure IsQuiet (start : Archive MemoryStream) (first : Archive MemoryStream)
    (second : Archive (Sequential MemoryStream)) : Prop extends InStep first second where
  stream : first.stream = start.stream

/-! ## Results in lockstep -/

/-- A result that is no failed write. -/
def IsUnfailing {σ α : Type} (result : EStateM.Result ArchiveError (Archive σ) α) : Prop :=
  Outcome (fun _ _ => True) (fun error _ => ∀ cause, error ≠ .write cause) result

/-- **Results in lockstep**: they agree, or the second run is refused where the first one has not failed
to write. -/
inductive Lockstep {α : Type} (refused : ArchiveError → Archive (Sequential MemoryStream) → Prop)
    (related : Archive MemoryStream → Archive (Sequential MemoryStream) → Prop) :
    EStateM.Result ArchiveError (Archive MemoryStream) α →
      EStateM.Result ArchiveError (Archive (Sequential MemoryStream)) α → Prop
  /-- Both runs give the same value or the same error. -/
  | agree {first : EStateM.Result ArchiveError (Archive MemoryStream) α}
    {second : EStateM.Result ArchiveError (Archive (Sequential MemoryStream)) α}
    (h : Agree related first second) : Lockstep refused related first second
  /-- The second run is refused. -/
  | refused {first : EStateM.Result ArchiveError (Archive MemoryStream) α} {error : ArchiveError}
    {final : Archive (Sequential MemoryStream)} (hfirst : IsUnfailing first)
    (h : refused error final) : Lockstep refused related first (.error error final)

namespace Lockstep

variable {α β : Type} {refused refused' : ArchiveError → Archive (Sequential MemoryStream) → Prop}
  {related related' : Archive MemoryStream → Archive (Sequential MemoryStream) → Prop}

/-- What follows from lockstep. -/
theorem mono {first : EStateM.Result ArchiveError (Archive MemoryStream) α}
    {second : EStateM.Result ArchiveError (Archive (Sequential MemoryStream)) α}
    (h : Lockstep refused related first second)
    (hrefused : ∀ error final, refused error final → refused' error final)
    (hrelated : ∀ final final', related final final' → related' final final') :
    Lockstep refused' related' first second := by
  cases h with
  | refused hfirst h => exact .refused hfirst (hrefused _ _ h)
  | agree h =>
    cases h with
    | ok h => exact .agree (.ok (hrelated _ _ h))
    | error h => exact .agree (.error (hrelated _ _ h))

/-- Programs in a row stay in lockstep if the first ones agree and the second ones stay so. -/
theorem bind_of_agree {first : Call MemoryStream α} {second : Call (Sequential MemoryStream) α}
    {next : α → Call MemoryStream β} {next' : α → Call (Sequential MemoryStream) β}
    {start : Archive MemoryStream} {start' : Archive (Sequential MemoryStream)}
    (h : Agree related (first start) (second start'))
    (hnext : ∀ value middle middle', first start = .ok value middle → related middle middle' →
      Lockstep refused related (next value middle) (next' value middle')) :
    Lockstep refused related ((first >>= next) start) ((second >>= next') start') := by
  rw [bind_apply, bind_apply]
  revert h hnext
  generalize first start = result
  generalize second start' = result'
  rintro (⟨hmiddle⟩ | ⟨hmiddle⟩) hnext
  · exact hnext _ _ _ rfl hmiddle
  · exact .agree (.error hmiddle)

/-- **Programs in a row** stay in lockstep if they go on so where the first ones agree, and if what
comes behind a refusal does not fail to write in memory. -/
theorem bind {first : Call MemoryStream α} {second : Call (Sequential MemoryStream) α}
    {next : α → Call MemoryStream β} {next' : α → Call (Sequential MemoryStream) β}
    {start : Archive MemoryStream} {start' : Archive (Sequential MemoryStream)}
    (h : Lockstep refused related (first start) (second start'))
    (hnext : ∀ value middle middle', first start = .ok value middle → related middle middle' →
      Lockstep refused related' (next value middle) (next' value middle'))
    (hunfailing : ∀ value middle, first start = .ok value middle → IsUnfailing (next value middle))
    (hrelated : ∀ final final', related final final' → related' final final') :
    Lockstep refused related' ((first >>= next) start) ((second >>= next') start') := by
  rw [bind_apply, bind_apply]
  revert h hnext hunfailing
  generalize first start = result
  generalize second start' = result'
  rintro (⟨⟨hmiddle⟩ | ⟨hmiddle⟩⟩ | ⟨hfirst, hrefused⟩) hnext hunfailing
  · exact hnext _ _ _ rfl hmiddle
  · exact .agree (.error (hrelated _ _ hmiddle))
  · refine .refused ?_ hrefused
    cases result with
    | ok value middle => exact hunfailing value middle rfl
    | error error middle => exact hfirst

/-- A change of the handle that never fails goes on in lockstep behind a call. -/
theorem followed {first : Call MemoryStream α} {second : Call (Sequential MemoryStream) α}
    {change : Call MemoryStream β} {change' : Call (Sequential MemoryStream) β}
    {start : Archive MemoryStream} {start' : Archive (Sequential MemoryStream)}
    (h : Lockstep refused InStep (first start) (second start'))
    (hchange : Simulates InStep change change') (hunfailing : ∀ middle, IsUnfailing (change middle)) :
    Lockstep refused InStep ((first >>= fun _ => change) start)
      ((second >>= fun _ => change') start') :=
  h.bind (fun _ middle middle' _ hmiddle => .agree (hchange middle middle' hmiddle))
    (fun _ middle _ => hunfailing middle) fun _ _ hfinal => hfinal

/-- Handles whose streams are as they were are in step. -/
theorem toInStep {handle : Archive MemoryStream}
    {first : EStateM.Result ArchiveError (Archive MemoryStream) α}
    {second : EStateM.Result ArchiveError (Archive (Sequential MemoryStream)) α}
    (h : Lockstep refused (IsQuiet handle) first second) : Lockstep refused InStep first second :=
  h.mono (fun _ _ hrefused => hrefused) fun _ _ hquiet => hquiet.toInStep

end Lockstep

/-- **A refusal** of a call that begins on a handle without position, whose stream it leaves as it was:
the call has to complete a payload which is not of its announced size, or to start a record that has to
be sealed. -/
inductive IsRefused (start : Archive (Sequential MemoryStream)) (started? : Option Record) :
    ArchiveError → Archive (Sequential MemoryStream) → Prop
  /-- The payload cannot be sealed. -/
  | inexact {pending : PendingPayload} (hopen : start.state.IsOpen pending)
    (hlength : pending.written ≠ pending.declaredSize) :
    IsRefused start started? positionUnknown start
  /-- The record could not be sealed. -/
  | unsealable {record : Record} {final : Archive (Sequential MemoryStream)}
    (hstarted : started? = some record) (hseal : record.needsSeal = true)
    (hstream : final.stream = start.stream) :
    IsRefused start started? (cannotSeal Sequential.notSeekable) final

/-! ## Calls that drop the value of the caller -/

namespace CallWith

variable {σ β : Type}

/-- A call that drops its value and begins with making it consistent. -/
theorem withValue_fixValue_bind (next : Record → CallWith Record σ β) (record : Record) :
    withValue record (fixValue >>= next)
      = ofResult record.fix >>= fun fixed => withValue fixed (next fixed) := by
  funext archive
  cases hfix : record.fix with
  | error error => exact withValue_of_error (bind_of_error (fixValue_of_error hfix archive))
  | ok fixed =>
    obtain ⟨hfits, rfl⟩ := Record.fix_eq_ok.mp hfix
    rw [bind_of_ok (ofResult_eq_ok.mpr ⟨rfl, rfl⟩)]
    unfold withValue
    rw [bind_of_ok (fixValue_of_fits hfits archive)]

end CallWith

namespace Archive

section Starting

variable {σ : Type} [ByteSink σ] [Seekable σ]

/-- Starts a record behind another one. -/
def startRecord (record : Record) : Call σ Unit := do
  let fixed ← ofResult record.fix
  let offset? ← recordOffset fixed
  emit fixed
  passRecord fixed offset?

/-- Writes a record and its payload behind another record. -/
def putRecord (record : Record) (payload : List UInt8) : Call σ Unit := do
  let fixed ← ofResult (record.announcing payload).fix
  emit fixed
  writeStream payload
  setMode (.writing .atRecord)

/-- A record is started behind the payload in front of it. -/
theorem withValue_writeRecord (record : Record) :
    CallWith.withValue record writeRecord
      = (readyForRecord "write_record" >>= fun _ => startRecord record : Call σ Unit) := by
  rw [writeRecord, CallWith.withValue_lift_bind]
  refine congrArg _ (funext fun _ => ?_)
  rw [CallWith.withValue_fixValue_bind, startRecord]
  refine congrArg _ (funext fun fixed => ?_)
  rw [CallWith.withValue_lift_bind]
  refine congrArg _ (funext fun offset? => ?_)
  rw [CallWith.withValue_lift_bind]
  exact congrArg _ (funext fun _ => CallWith.withValue_lift _ _)

/-- A record is written with its payload behind the payload in front of it. -/
theorem withValue_writeRecordWithAddedData (record : Record) (payload : List UInt8) :
    CallWith.withValue record (writeRecordWithAddedData payload)
      = (readyForRecord "write_record_with_added_data" >>= fun _ => putRecord record payload :
        Call σ Unit) := by
  rw [writeRecordWithAddedData, CallWith.withValue_lift_bind]
  refine congrArg _ (funext fun _ => ?_)
  have hannounce (next : Unit → CallWith Record σ Unit) : CallWith.withValue record
      (CallWith.value >>= fun record => CallWith.setValue (record.announcing payload) >>= next)
        = CallWith.withValue (record.announcing payload) (next ()) := rfl
  rw [hannounce, CallWith.withValue_fixValue_bind, putRecord]
  refine congrArg _ (funext fun fixed => ?_)
  rw [CallWith.withValue_lift_bind]
  refine congrArg _ (funext fun _ => ?_)
  rw [CallWith.withValue_lift_bind]
  exact congrArg _ (funext fun _ => CallWith.withValue_lift _ _)

end Starting

end Archive

/-! ## Streams -/

/-- A whole write is accepted at once where the stream below accepts it so. -/
theorem Sequential.writeAll_of_ne_nil {bytes : List UInt8} (hne : bytes ≠ [])
    (stream : MemoryStream) :
    writeAll bytes (⟨stream⟩ : Sequential MemoryStream) = .ok () ⟨stream.write bytes⟩ := by
  rcases bytes with _ | ⟨byte, rest⟩
  · exact absurd rfl hne
  · unfold writeAll
    split
    · next hrun => cases hrun
    · next hrun =>
      cases hrun
      rw [List.drop_length]
      unfold writeAll
      rfl
    · next hrun => cases hrun

namespace Archive

/-- Both streams take the same bytes. -/
theorem exists_writeStream (bytes : List UInt8) (stream : MemoryStream) :
    ∃ final : MemoryStream, ∀ state state' : HandleState,
      writeStream bytes ⟨stream, state⟩ = .ok () ⟨final, state⟩ ∧
      writeStream bytes (⟨⟨stream⟩, state'⟩ : Archive (Sequential MemoryStream))
        = .ok () ⟨⟨final⟩, state'⟩ := by
  by_cases hnil : bytes = []
  · subst hnil
    have hnothing {σ : Type} [ByteSink σ] (start : σ) :
        EStateM.adaptExcept ArchiveError.write (writeAll []) start = .ok () start :=
      adaptExcept_eq_ok.mpr (by unfold writeAll; rfl)
    exact ⟨stream, fun _ _ => ⟨onStream_eq_ok.mpr ⟨_, hnothing _, rfl⟩,
      onStream_eq_ok.mpr ⟨_, hnothing _, rfl⟩⟩⟩
  · refine ⟨stream.write bytes, fun state state' => ⟨writeStream_of_ne_nil hnil stream state, ?_⟩⟩
    exact onStream_eq_ok.mpr
      ⟨_, adaptExcept_eq_ok.mpr (Sequential.writeAll_of_ne_nil hnil stream), rfl⟩

/-- Both streams take the bytes of a record. -/
theorem exists_emit {record : Record} (hfits : record.Fits) (stream : MemoryStream) :
    ∃ final : MemoryStream, ∀ state state' : HandleState,
      emit record.fixed ⟨stream, state⟩ = .ok () ⟨final, state⟩ ∧
      emit record.fixed (⟨⟨stream⟩, state'⟩ : Archive (Sequential MemoryStream))
        = .ok () ⟨⟨final⟩, state'⟩ := by
  have hencode : record.fixed.encode? = .ok record.fixed.toBytes :=
    Record.encode?_eq_ok.mpr ⟨hfits.size_fixed, rfl⟩
  obtain ⟨final, hfinal⟩ := exists_writeStream record.fixed.toBytes stream
  refine ⟨final, fun state state' => ⟨?_, ?_⟩⟩
  · rw [emit, bind_of_ok (ofResult_eq_ok.mpr ⟨hencode, rfl⟩)]
    exact (hfinal state state').1
  · rw [emit, bind_of_ok (ofResult_eq_ok.mpr ⟨hencode, rfl⟩)]
    exact (hfinal state state').2

/-! ## Sealing -/

variable {handle : Archive MemoryStream}

/-- A payload is open on both handles, or on neither of them. -/
theorem expectPending_cases (name : String) (handle : Archive MemoryStream) :
    (expectPending name handle = .error (.invalidState name) handle ∧
      expectPending name handle.sequential = .error (.invalidState name) handle.sequential) ∨
    ∃ pending, handle.state.IsOpen pending ∧ expectPending name handle = .ok pending handle ∧
      handle.sequential.state.IsOpen pending.unplaced ∧
      expectPending name handle.sequential = .ok pending.unplaced handle.sequential := by
  by_cases hopen : ∃ pending, handle.state.IsOpen pending
  · obtain ⟨pending, hopen⟩ := hopen
    exact .inr ⟨pending, hopen, expectPending_of_isOpen hopen name, hopen.unplaced,
      expectPending_of_isOpen hopen.unplaced name⟩
  · exact .inl ⟨expectPending_of_not_isOpen hopen name,
      expectPending_of_not_isOpen (HandleState.not_isOpen_unplaced hopen) name⟩

/-- A seal in memory of a record with a known position fails only if the record does not fit. -/
theorem isUnfailing_sealHeader {pending : PendingPayload} {offset : Nat}
    (hoffset : pending.offset? = some offset) (handle : Archive MemoryStream) :
    IsUnfailing (sealHeader pending handle) := by
  have hknown : ofResult (pending.offset?.elim (.error positionUnknown) .ok) handle
      = .ok offset handle := by
    rw [hoffset]
    rfl
  rw [sealHeader, bind_of_ok hknown]
  refine Outcome.bind ((effect_describePayload pending handle.stream handle.state).and (.self _)
    |>.mono ?_ ?_)
  · rintro bytes ⟨stream, described⟩ ⟨-, hdescribe⟩
    have hne : bytes ≠ [] := by
      cases hfix : pending.sealedRecord.fix with
      | ok record =>
        have hfits := (Record.fix_eq_ok.mp hfix).1
        cases (describePayload_of_fits hfits _ _).symm.trans hdescribe
        exact Record.toBytes_ne_nil _
      | error error => cases (describePayload_of_error hfix _ _).symm.trans hdescribe
    have hposition : ofResult ((Except.ok stream.position : Except IoError Nat).mapError
        ArchiveError.write) (⟨stream, described⟩ : Archive MemoryStream)
          = .ok stream.position ⟨stream, described⟩ := rfl
    rw [bind_of_ok (tellStream_apply stream described),
      bind_of_ok hposition, bind_of_ok (seekStream_apply offset stream described),
      bind_of_ok (writeStream_of_ne_nil hne _ described)]
    trivial
  · rintro error final ⟨⟨-, hfix⟩, -⟩
    obtain ⟨fault, rfl⟩ := Record.fix_eq_error hfix
    intro cause herror
    cases herror

/-- **Sealing in lockstep**: a plain payload of its announced size is complete as it stands, and any
other one is refused. -/
theorem lockstep_finishAddedData (h : handle.state.IsPlain) (started? : Option Record) :
    Lockstep (IsRefused handle.sequential started?) (IsQuiet handle) (finishAddedData handle)
      (finishAddedData handle.sequential) := by
  rcases handle.expectPending_cases "finish_added_data" with
    ⟨hexpect, hexpect'⟩ | ⟨pending, hopen, hexpect, hopen', hexpect'⟩
  · -- There is no payload to seal.
    rw [finishAddedData, bind_of_error hexpect, finishAddedData, bind_of_error hexpect']
    exact .agree (.error ⟨⟨rfl, h⟩, rfl⟩)
  · obtain ⟨hannounced, hunchecked, offset, hoffset⟩ := h pending hopen
    rw [finishAddedData, bind_of_ok hexpect, finishAddedData, bind_of_ok hexpect']
    by_cases hexact : pending.isExact = true
    · -- The header describes the payload already.
      have hskip : pending.isExact ∧ !pending.hasCrc := by
        rw [hunchecked]
        exact ⟨hexact, rfl⟩
      have hskip' : pending.unplaced.isExact ∧ !pending.unplaced.hasCrc := hskip
      rw [if_pos hskip, if_pos hskip']
      exact .agree (.ok ⟨⟨rfl, HandleState.isPlain_of_mode_ne (by simp)⟩, rfl⟩)
    · have hskip : ¬ (pending.isExact ∧ !pending.hasCrc) := fun hskip => hexact hskip.1
      have hskip' : ¬ (pending.unplaced.isExact ∧ !pending.unplaced.hasCrc) := hskip
      have hlength : pending.written ≠ pending.declaredSize := by
        intro hsame
        rw [PendingPayload.isExact, decide_eq_true hannounced, decide_eq_true hsame] at hexact
        exact hexact rfl
      rw [if_neg hskip, if_neg hskip']
      refine .refused (Outcome.bind ?_) (.inexact hopen' hlength)
      exact (isUnfailing_sealHeader hoffset handle).mono (fun _ _ _ => trivial) fun _ _ h => h

/-! ## Starting records -/

/-- Where a record can start it does so in lockstep, and nothing is written before. -/
theorem lockstep_readyForRecord (h : handle.state.IsPlain) (name : String)
    (started? : Option Record) :
    Lockstep (IsRefused handle.sequential started?) (IsQuiet handle) (readyForRecord name handle)
      (readyForRecord name handle.sequential) := by
  obtain ⟨stream, state⟩ := handle
  rcases hmode : state.mode with _ | place | (_ | _ | _)
  case writing.atAddedData =>
    have hrun {σ : Type} [ByteSink σ] [Seekable σ] {handle : Archive σ}
        (hmode : handle.state.mode = .writing .atAddedData) :
        readyForRecord name handle = finishAddedData handle := by
      rw [readyForRecord, bind_of_ok (state_apply _), hmode]
    have hmode' : state.unplaced.mode = .writing .atAddedData := hmode
    rw [hrun hmode, sequential, hrun hmode']
    exact lockstep_finishAddedData h started?
  case writing.atRecord =>
    have hmode' : state.unplaced.mode = .writing .atRecord := hmode
    rw [readyForRecord_of_atRecord hmode, sequential, readyForRecord_of_atRecord hmode']
    exact .agree (.ok ⟨⟨rfl, h⟩, rfl⟩)
  all_goals
    have hrefused : readyForRecord name (⟨stream, state⟩ : Archive MemoryStream)
        = .error (.invalidState name) ⟨stream, state⟩ := by
      rw [readyForRecord, bind_of_ok (state_apply _), hmode]
      rfl
    have hrefused' : readyForRecord name (⟨stream, state⟩ : Archive MemoryStream).sequential
        = .error (.invalidState name) (⟨stream, state⟩ : Archive MemoryStream).sequential := by
      rw [readyForRecord, bind_of_ok (state_apply _), sequential, HandleState.unplaced, hmode]
      rfl
    rw [hrefused, hrefused']
    exact .agree (.error ⟨⟨rfl, h⟩, rfl⟩)

/-- A record that needs no seal is plain once it has been started. -/
theorem isPlain_started {record : Record} (hsize : record.hasAddedSize = true)
    (hseal : record.needsSeal = false) (position : Nat) :
    (PendingPayload.start record (some position)).IsPlain := by
  rw [Record.needsSeal, hsize, Bool.true_and, Bool.or_eq_false_iff, decide_eq_false_iff_not] at hseal
  refine ⟨Nat.pos_of_ne_zero fun hzero => hseal.1 (UInt64.toNat_inj.mp hzero), hseal.2, position, rfl⟩

/-- In memory a record is started, or refused because it does not fit. -/
theorem isUnfailing_startRecord (record : Record) (handle : Archive MemoryStream) :
    IsUnfailing (startRecord record handle) := by
  refine Outcome.bind (outcome_ofResult (fun fixed hfix => ?_) fun error hfix => ?_)
  · obtain ⟨hfits, rfl⟩ := Record.fix_eq_ok.mp hfix
    have hoffset : recordOffset record.fixed handle
        = .ok (some handle.stream.position) handle := rfl
    obtain ⟨final, hemit⟩ := exists_emit hfits handle.stream
    rw [bind_of_ok hoffset, bind_of_ok (hemit handle.state handle.state).1, passRecord]
    split
    next => trivial
    next => trivial
  · obtain ⟨fault, rfl⟩ := Record.fix_eq_error hfix
    intro cause herror
    cases herror

/-- Without a position a record that has to be sealed is refused. -/
theorem recordOffset_sequential (record : Record) (handle : Archive (Sequential MemoryStream)) :
    recordOffset record handle = if record.needsSeal then
        .error (cannotSeal Sequential.notSeekable) handle
      else .ok none handle := by
  have htell : (tellStream handle : EStateM.Result _ (Archive (Sequential MemoryStream)) _)
      = .ok (.error Sequential.notSeekable) handle := rfl
  rw [recordOffset, bind_of_ok htell]
  dsimp only
  split
  next => rfl
  next => rfl

/-- Without a position such a record is refused in front of its first byte. -/
theorem startRecord_of_needsSeal {record : Record} (hfits : record.Fits)
    (hseal : record.fixed.needsSeal = true) (handle : Archive (Sequential MemoryStream)) :
    startRecord record handle = .error (cannotSeal Sequential.notSeekable) handle := by
  have hfix : ofResult record.fix handle = .ok record.fixed handle :=
    ofResult_eq_ok.mpr ⟨Record.fix_eq_ok.mpr ⟨hfits, rfl⟩, rfl⟩
  have hoffset := recordOffset_sequential record.fixed handle
  rw [hseal, if_pos rfl] at hoffset
  rw [startRecord, bind_of_ok hfix, bind_of_error hoffset]

/-- **A record that needs no seal** is started in lockstep, and any other one is refused in front of
its first byte. -/
theorem lockstep_startRecord {start : Archive MemoryStream}
    {second : Archive (Sequential MemoryStream)} (h : IsQuiet start handle second)
    (record : Record) :
    Lockstep (IsRefused start.sequential (some record)) InStep (startRecord record handle)
      (startRecord record second) := by
  obtain ⟨⟨rfl, hplain⟩, hstream⟩ := h
  cases hfix : record.fix with
  | error error =>
    rw [startRecord, startRecord, hfix]
    exact .agree (.error ⟨rfl, hplain⟩)
  | ok fixed =>
    obtain ⟨hfits, rfl⟩ := Record.fix_eq_ok.mp hfix
    cases hseal : record.fixed.needsSeal with
    | true =>
      rw [startRecord_of_needsSeal hfits hseal]
      exact .refused (isUnfailing_startRecord record handle)
        (.unsealable rfl hseal (congrArg Sequential.mk hstream))
    | false =>
      have hoffset' := recordOffset_sequential record.fixed handle.sequential
      rw [hseal, if_neg Bool.false_ne_true] at hoffset'
      have hoffset : recordOffset record.fixed handle
          = .ok (some handle.stream.position) handle := rfl
      obtain ⟨final, hemit⟩ := exists_emit hfits handle.stream
      have hemit' : emit record.fixed handle.sequential
          = .ok () ⟨⟨final⟩, handle.state.unplaced⟩ := (hemit handle.state handle.state.unplaced).2
      rw [startRecord, bind_of_ok (ofResult_eq_ok.mpr ⟨hfix, rfl⟩), bind_of_ok hoffset,
        bind_of_ok (hemit handle.state handle.state.unplaced).1, startRecord,
        bind_of_ok (ofResult_eq_ok.mpr ⟨hfix, rfl⟩), bind_of_ok hoffset', bind_of_ok hemit',
        passRecord, passRecord]
      -- Only the writer in memory knows where the record is.
      by_cases hsize : record.fixed.hasAddedSize = true
      · rw [if_pos hsize, if_pos hsize]
        refine .agree (.ok ⟨rfl, fun pending hopen => ?_⟩)
        cases hopen.pending?
        exact isPlain_started hsize hseal _
      · rw [if_neg hsize, if_neg hsize]
        exact .agree (.ok ⟨rfl, HandleState.isPlain_of_mode_ne (by simp)⟩)

/-- **A record is started** in lockstep. -/
theorem lockstep_writeRecord (h : handle.state.IsPlain) (record : Record) :
    Lockstep (IsRefused handle.sequential (some record)) InStep
      (CallWith.withValue record writeRecord handle)
      (CallWith.withValue record writeRecord handle.sequential) := by
  rw [withValue_writeRecord, withValue_writeRecord]
  exact (lockstep_readyForRecord h _ _).bind
    (fun _ _ _ _ hmiddle => lockstep_startRecord hmiddle record)
    (fun _ middle _ => isUnfailing_startRecord record middle) fun _ _ hquiet => hquiet.toInStep

/-- **A record whose size is to follow** is started in lockstep, or is refused for want of a
position. -/
theorem lockstep_startStreamedRecord (h : handle.state.IsPlain) (record : Record) :
    Lockstep (IsRefused handle.sequential (some record)) InStep
      (CallWith.withValue record startStreamedRecord handle)
      (CallWith.withValue record startStreamedRecord handle.sequential) := by
  by_cases hsize : record.hasAddedSize = true
  · have hstart := lockstep_writeRecord h record
    unfold CallWith.withValue at hstart ⊢
    rw [startStreamedRecord_of_hasAddedSize hsize, startStreamedRecord_of_hasAddedSize hsize]
    exact hstart
  · rw [CallWith.withValue_of_error (startStreamedRecord_of_not_hasAddedSize hsize handle),
      CallWith.withValue_of_error (startStreamedRecord_of_not_hasAddedSize hsize _)]
    exact .agree (.error ⟨rfl, h⟩)

/-! ## Calls that are never refused -/

/-- Bytes are written in lockstep, and the place of the writer stays as it was. -/
theorem simulates_writeStream_sequential (bytes : List UInt8) :
    Simulates InStep (writeStream bytes) (writeStream bytes) := by
  rintro ⟨stream, state⟩ _ ⟨rfl, hplain⟩
  obtain ⟨final, hfinal⟩ := exists_writeStream bytes stream
  obtain ⟨hrun, hrun'⟩ := hfinal state state.unplaced
  rw [hrun, sequential, hrun']
  exact .ok ⟨rfl, hplain⟩

/-- The stream is flushed in lockstep. -/
theorem simulates_flushStream_sequential : Simulates InStep flushStream flushStream := by
  rintro ⟨stream, state⟩ _ ⟨rfl, hplain⟩
  exact .ok ⟨rfl, hplain⟩

/-- A result that is there already is the same for both. -/
theorem simulates_ofResult_sequential {α : Type} (result : Except ArchiveError α) :
    Simulates InStep (ofResult result) (ofResult result) := by
  intro first second h
  cases result with
  | ok value => exact .ok h
  | error error => exact .error h

/-- A change of the state in which positions play no part. -/
theorem simulates_update_sequential {change : HandleState → HandleState}
    (hchange : ∀ state, (change state).unplaced = change state.unplaced)
    (hplain : ∀ state, state.IsPlain → (change state).IsPlain) :
    Simulates InStep (Call.update change) (Call.update change) := by
  rintro ⟨stream, state⟩ _ ⟨rfl, h⟩
  rw [update_apply, sequential, update_apply, ← hchange]
  exact .ok ⟨rfl, hplain state h⟩

/-- Moving to a mode outside of payloads. -/
theorem simulates_setMode_sequential {mode : Mode} (hmode : mode ≠ .writing .atAddedData) :
    Simulates InStep (setMode mode) (setMode mode) :=
  simulates_update_sequential (fun _ => rfl) fun _ _ => HandleState.isPlain_of_mode_ne hmode

/-- A record and its payload are put in lockstep. -/
theorem simulates_putRecord_sequential (record : Record) (payload : List UInt8) :
    Simulates InStep (putRecord record payload) (putRecord record payload) := by
  refine (simulates_ofResult_sequential _).bind fun fixed => ?_
  refine Simulates.bind ?_ fun _ => (simulates_writeStream_sequential payload).bind fun _ =>
    simulates_setMode_sequential nofun
  exact (simulates_ofResult_sequential _).bind fun _ => simulates_writeStream_sequential _

/-- In memory a record is put with its payload, or refused because it does not fit. -/
theorem isUnfailing_putRecord (record : Record) (payload : List UInt8)
    (handle : Archive MemoryStream) : IsUnfailing (putRecord record payload handle) := by
  refine Outcome.bind (outcome_ofResult (fun fixed hfix => ?_) fun error hfix => ?_)
  · obtain ⟨hfits, rfl⟩ := Record.fix_eq_ok.mp hfix
    obtain ⟨middle, hemit⟩ := exists_emit hfits handle.stream
    obtain ⟨final, hpayload⟩ := exists_writeStream payload middle
    rw [bind_of_ok (hemit handle.state handle.state).1,
      bind_of_ok (hpayload handle.state handle.state).1]
    trivial
  · obtain ⟨fault, rfl⟩ := Record.fix_eq_error hfix
    intro cause herror
    cases herror

/-- **A record is written with its payload** in lockstep, unless the payload in front of it cannot be
sealed. -/
theorem lockstep_writeRecordWithAddedData (h : handle.state.IsPlain) (record : Record)
    (payload : List UInt8) :
    Lockstep (IsRefused handle.sequential none) InStep
      (CallWith.withValue record (writeRecordWithAddedData payload) handle)
      (CallWith.withValue record (writeRecordWithAddedData payload) handle.sequential) := by
  rw [withValue_writeRecordWithAddedData, withValue_writeRecordWithAddedData]
  exact (lockstep_readyForRecord h _ _).toInStep.followed
    (simulates_putRecord_sequential record payload) (isUnfailing_putRecord record payload)

/-- **A chunk** is added in lockstep. -/
theorem simulates_writeAddedData_sequential (chunk : List UInt8) :
    Simulates InStep (writeAddedData chunk) (writeAddedData chunk) := by
  rintro handle _ ⟨rfl, h⟩
  rcases handle.expectPending_cases "write_added_data" with
    ⟨hexpect, hexpect'⟩ | ⟨pending, hopen, hexpect, -, hexpect'⟩
  · rw [writeAddedData, bind_of_error hexpect, writeAddedData, bind_of_error hexpect']
    exact .error ⟨rfl, h⟩
  · rw [writeAddedData, bind_of_ok hexpect, writeAddedData, bind_of_ok hexpect']
    by_cases hfits : pending.fits chunk = true
    · -- Neither what is accepted nor the account of it depends on the position.
      have hfits' : pending.unplaced.fits chunk = true := hfits
      obtain ⟨final, hwrite⟩ := exists_writeStream (pending.accept chunk) handle.stream
      have hwrite' : writeStream (pending.unplaced.accept chunk) handle.sequential
          = .ok () ⟨⟨final⟩, handle.state.unplaced⟩ :=
        (hwrite handle.state handle.state.unplaced).2
      rw [bind_of_ok (require_of hfits _ _), bind_of_ok (require_of hfits' _ _),
        bind_of_ok (hwrite handle.state handle.state).1, bind_of_ok hwrite', setPending_apply,
        setPending_apply]
      refine .ok ⟨rfl, fun pending' hopen' => ?_⟩
      cases hopen'.pending?
      obtain ⟨hannounced, hunchecked, hplaced⟩ := h pending hopen
      exact ⟨hannounced, hunchecked, hplaced⟩
    · have hfits' : ¬ pending.unplaced.fits chunk = true := hfits
      rw [bind_of_error (require_of_not hfits _ _), bind_of_error (require_of_not hfits' _ _)]
      exact .error ⟨rfl, h⟩

/-- The marker is written in lockstep. -/
theorem simulates_writeMarker_sequential : Simulates InStep writeMarker writeMarker := by
  rintro ⟨stream, state⟩ _ ⟨rfl, h⟩
  have hwrite : Simulates InStep
      (onStream Marker.write >>= fun _ => setMode (.writing .atRecord))
      (onStream Marker.write >>= fun _ => setMode (.writing .atRecord)) :=
    (simulates_writeStream_sequential Marker.bytes).bind fun _ =>
      simulates_setMode_sequential nofun
  have hrun := hwrite ⟨stream, state⟩ _ ⟨rfl, h⟩
  rw [writeMarker, bind_of_ok (state_apply _), writeMarker, bind_of_ok (state_apply _)]
  by_cases hmode : state.mode = .writing .atMarker
  · have hmode' : state.unplaced.mode = .writing .atMarker := hmode
    rw [bind_of_ok (require_of hmode _ _), sequential, bind_of_ok (require_of hmode' _ _)]
    exact hrun
  · have hmode' : ¬ state.unplaced.mode = .writing .atMarker := hmode
    rw [bind_of_error (require_of_not hmode _ _), sequential,
      bind_of_error (require_of_not hmode' _ _)]
    exact .error ⟨rfl, h⟩

/-- **A handle is turned to writing** in lockstep. -/
theorem simulates_startWriting_sequential : Simulates InStep startWriting startWriting := by
  rintro ⟨stream, state⟩ _ ⟨rfl, h⟩
  have hturn : Simulates InStep
      ((Call.update fun state => turned state .atMarker) >>= fun _ => writeMarker)
      ((Call.update fun state => turned state .atMarker) >>= fun _ => writeMarker) := by
    refine Simulates.bind (simulates_update_sequential (fun _ => rfl) fun _ _ => ?_) fun _ =>
      simulates_writeMarker_sequential
    exact HandleState.isPlain_of_mode_ne nofun
  have hrun := hturn ⟨stream, state⟩ _ ⟨rfl, h⟩
  have hmode : (⟨stream, state⟩ : Archive MemoryStream).sequential.state.mode = state.mode := rfl
  rw [startWriting, bind_of_ok (state_apply _), startWriting, bind_of_ok (state_apply _), hmode]
  rcases state.mode with _ | _ | _
  case writing => exact .ok ⟨rfl, h⟩
  all_goals exact hrun

/-- A fresh handle is turned to writing without a position. -/
theorem startWriting_sequential (base : MemoryStream) (options : ArchiveOptions) :
    startWriting (Archive.ofStream (⟨base⟩ : Sequential MemoryStream) options)
      = .ok () (betweenRecords base Marker.bytes { options }).sequential := by
  have hagree := simulates_startWriting_sequential (Archive.ofStream base options)
    (Archive.ofStream ⟨base⟩ options) ⟨rfl, HandleState.isPlain_of_mode_ne nofun⟩
  rw [startWriting_ofStream] at hagree
  obtain ⟨_, hrun, rfl, -⟩ := hagree.exists_ok_right
  exact hrun

/-! ## Completing what is being written -/

/-- **What is being written is completed** in lockstep, unless a payload cannot be sealed. -/
theorem lockstep_finishWriting (h : handle.state.IsPlain) (started? : Option Record) :
    Lockstep (IsRefused handle.sequential started?) InStep (finishWriting handle)
      (finishWriting handle.sequential) := by
  have hseal := (lockstep_finishAddedData h started?).toInStep.followed
    simulates_flushStream_sequential fun _ => trivial
  obtain ⟨stream, state⟩ := handle
  rw [finishWriting, bind_of_ok (state_apply _), finishWriting, bind_of_ok (state_apply _)]
  have hmode' : (⟨stream, state⟩ : Archive MemoryStream).sequential.state.mode = state.mode := rfl
  rw [hmode']
  rcases state.mode with _ | _ | (_ | _ | _)
  case writing.atAddedData => exact hseal
  all_goals exact .agree (.ok ⟨rfl, h⟩)

/-- **A handle is turned to reading** in lockstep, unless a payload cannot be sealed. -/
theorem lockstep_startReading (h : handle.state.IsPlain) (started? : Option Record) :
    Lockstep (IsRefused handle.sequential started?) InStep (startReading handle)
      (startReading handle.sequential) := by
  have hturn : Simulates InStep
      (Call.update turnedToReading) (Call.update turnedToReading) :=
    simulates_update_sequential (fun _ => rfl) fun _ _ =>
      HandleState.isPlain_of_mode_ne nofun
  have hfinish := (lockstep_finishWriting h started?).followed hturn fun _ => trivial
  obtain ⟨stream, state⟩ := handle
  rw [startReading, bind_of_ok (state_apply _), startReading, bind_of_ok (state_apply _)]
  have hmode : (⟨stream, state⟩ : Archive MemoryStream).sequential.state.mode = state.mode := rfl
  rw [hmode]
  rcases state.mode with _ | _ | _
  case reading => exact .agree (.ok ⟨rfl, h⟩)
  all_goals exact hfinish

end Archive

end RecordArchive
