import RecordArchive.Proofs.Archive.Effects
import RecordArchive.Proofs.Archive.Sealing

/-! # What writing does to a handle

The effect of each call of the writer and of the packer, on any stream.

* `Archive.effect_finishAddedData`, `Archive.effect_writeRecord`, `Archive.effect_writeAddedData`: a
  failure leaves the state of the handle as it was, with the record of the payload described by an
  attempt to seal it, or with the payload in front of a further record sealed.
* `HandleState.KeepsPending`: what sealing needs is kept exactly while a payload is being written.
* `Appends`: the chunks that were accepted for a payload, one after another.
* `Archive.outcome_insertFileData`: copying a stream appends what that offers, chunk by chunk. -/

namespace RecordArchive

open Program Call

variable {σ ι : Type}

/-! ## Failures of order -/

/-- A refused request is none of order. -/
theorem not_isOutOfOrder_of_invalidParameter {error : ArchiveError}
    (h : ∃ fault, error = .invalidParameter fault) : ¬ error.IsOutOfOrder := by
  obtain ⟨fault, rfl⟩ := h
  exact id

/-! ## Places of a writer -/

namespace HandleState

variable {state : HandleState}

/-- A writer that is moved only changes its place and what it keeps of a payload. -/
theorem writingAt_frame (state : HandleState) (place : WriterPlace) :
    ∃ mode pending?, state.writingAt place = { state with mode := .writing mode, pending? } := by
  cases place with
  | atRecord => exact ⟨_, _, rfl⟩
  | atAddedData pending => exact ⟨_, _, rfl⟩

/-- A writer knows its entry wherever it stands. -/
theorem Knows.writingAt {mode : WriterState} (h : state.Knows) (hmode : state.mode = .writing mode)
    (place : WriterPlace) : (state.writingAt place).Knows := by
  obtain ⟨mode', pending?, hmoved⟩ := state.writingAt_frame place
  have hentry : (state.writingAt place).IsAtEntry ↔ state.IsAtEntry := by
    rw [hmoved, IsAtEntry, IsAtEntry, hmode]
    simp
  rw [Knows, hentry, hmoved]
  exact h

/-- An attempt to seal leaves the entry and the use of the handle alone. -/
theorem Attempted.knows {second : HandleState} (h : state.Attempted second) (hknows : state.Knows) :
    second.Knows := by
  obtain ⟨pending?, rfl⟩ := h.exists_pending?
  exact hknows

/-- **What sealing needs is kept** exactly while a payload is being written. -/
def KeepsPending (state : HandleState) : Prop :=
  state.pending?.isSome = true ↔ state.mode = .writing .atAddedData

/-- While a payload is being written it is open. -/
theorem KeepsPending.exists_isOpen (h : state.KeepsPending)
    (hmode : state.mode = .writing .atAddedData) : ∃ pending, state.IsOpen pending := by
  obtain ⟨pending, hpending⟩ := Option.isSome_iff_exists.mp (h.mpr hmode)
  exact ⟨pending, hmode, hpending⟩

/-- Outside of payloads nothing is kept for sealing. -/
theorem KeepsPending.pending?_eq_none (h : state.KeepsPending)
    (hmode : state.mode ≠ .writing .atAddedData) : state.pending? = none := by
  rw [← Option.not_isSome_iff_eq_none]
  exact fun hpending => hmode (h.mp hpending)

/-- Outside of payloads a state without one is in order. -/
theorem keepsPending_of_none (hpending : state.pending? = none)
    (hmode : state.mode ≠ .writing .atAddedData) : state.KeepsPending := by
  rw [KeepsPending, hpending]
  exact ⟨nofun, fun h => absurd h hmode⟩

/-- A payload that is open is kept. -/
theorem IsOpen.keepsPending {pending : PendingPayload} (h : state.IsOpen pending) :
    state.KeepsPending := by
  rw [KeepsPending, h.pending?, h.mode]
  exact ⟨fun _ => rfl, fun _ => rfl⟩

/-- **A writer that is moved** keeps what sealing needs. -/
theorem KeepsPending.writingAt (h : state.KeepsPending) (place : WriterPlace) :
    (state.writingAt place).KeepsPending := by
  cases place with
  | atRecord =>
    refine keepsPending_of_none ?_ nofun
    show (if state.mode = .writing .atAddedData then none else state.pending?) = none
    split
    next => rfl
    next hmode => exact h.pending?_eq_none hmode
  | atAddedData pending => exact (state.isOpen_writingAt pending).keepsPending

/-- An attempt to seal keeps the payload, with other figures in its header. -/
theorem KeepsPending.of_attempted {second : HandleState} (h : state.KeepsPending)
    (hattempted : state.Attempted second) : second.KeepsPending := by
  rcases hattempted with rfl | ⟨pending, hopen, rfl⟩
  · exact h
  · exact IsOpen.keepsPending ⟨hopen.mode, rfl⟩

end HandleState

namespace Archive

/-- The payload in writing is given where one is open, and the call is refused elsewhere. -/
theorem outcome_expectPending (name : String) (handle : Archive σ) :
    Outcome (fun pending final => final = handle ∧ handle.state.IsOpen pending)
      (fun _ final => final = handle ∧ ¬ ∃ pending, handle.state.IsOpen pending)
      (expectPending name handle) := by
  by_cases hopen : ∃ pending, handle.state.IsOpen pending
  · obtain ⟨pending, hopen⟩ := hopen
    rw [expectPending_of_isOpen hopen]
    exact ⟨rfl, hopen⟩
  · rw [expectPending_of_not_isOpen hopen]
    exact ⟨rfl, hopen⟩

variable [ByteSink σ] [Seekable σ]

/-! ## Writing records -/

omit [Seekable σ] in
/-- Bytes that are written leave the state alone. -/
theorem effect_writeStream (bytes : List UInt8) (stream : σ) (state : HandleState) :
    Outcome (fun _ final => final.state = state)
      (fun error final => final.state = state ∧ ∃ cause, error = .write cause)
      (writeStream bytes ⟨stream, state⟩) :=
  outcome_onStream (Outcome.adaptExcept
    (.of_forall (fun _ _ => rfl) (fun cause _ => ⟨rfl, cause, rfl⟩) _))

omit [ByteSink σ] in
/-- To move the stream leaves the state. -/
theorem effect_seekStream (position : Nat) (stream : σ) (state : HandleState) :
    Outcome (fun _ final => final.state = state)
      (fun error final => final.state = state ∧ ∃ cause, error = .write cause)
      (seekStream position ⟨stream, state⟩) :=
  outcome_onStream (Outcome.adaptExcept
    (.of_forall (fun _ _ => rfl) (fun cause _ => ⟨rfl, cause, rfl⟩) _))

omit [Seekable σ] in
/-- To flush the stream leaves the state. -/
theorem effect_flushStream (stream : σ) (state : HandleState) :
    Outcome (fun _ final => final.state = state)
      (fun error final => final.state = state ∧ ∃ cause, error = .write cause)
      (flushStream ⟨stream, state⟩) :=
  outcome_onStream (Outcome.adaptExcept
    (.of_forall (fun _ _ => rfl) (fun cause _ => ⟨rfl, cause, rfl⟩) _))

omit [ByteSink σ] in
/-- The stream is asked for its position, which it may not know. -/
theorem effect_tellStream (stream : σ) (state : HandleState) :
    Outcome (fun _ final => final.state = state) (fun _ _ => False) (tellStream ⟨stream, state⟩) :=
  outcome_tellStream (.of_forall (fun _ _ => rfl) (fun _ _ => rfl) _)

omit [ByteSink σ] [Seekable σ] in
/-- **A record that describes its payload** is kept, whether it fits or not. -/
theorem effect_describePayload (pending : PendingPayload) (stream : σ) (state : HandleState) :
    Outcome (fun _ final => final.state = { state with pending? := some pending.described })
      (fun error final => final.state = { state with pending? := some pending.described } ∧
        pending.sealedRecord.fix = .error error)
      (describePayload pending ⟨stream, state⟩) := by
  cases hfix : pending.sealedRecord.fix with
  | error error =>
    rw [describePayload_of_error hfix]
    exact ⟨rfl, rfl⟩
  | ok record =>
    rw [describePayload_of_fits (Record.fix_eq_ok.mp hfix).1]
    rfl

/-- A seal fails because of the stream, or because the record does not fit. -/
theorem effect_sealHeader {pending : PendingPayload} {state : HandleState}
    (hopen : state.IsOpen pending) (stream : σ) :
    Outcome (fun _ final => final.state = { state with pending? := some pending.described })
      (fun error final => state.Attempted final.state ∧
        ((∃ cause, error = .write cause) ∨ pending.sealedRecord.fix = .error error))
      (sealHeader pending ⟨stream, state⟩) := by
  have hattempted : state.Attempted { state with pending? := some pending.described } :=
    .inr ⟨pending, hopen, rfl⟩
  refine Outcome.bind (outcome_ofResult (fun offset _ => ?_) fun error herror => ?_)
  · refine Outcome.bind ((effect_describePayload pending stream state).mono ?_ ?_)
    · rintro bytes ⟨described, _⟩ rfl
      refine Outcome.bind ((effect_tellStream described _).mono ?_ fun _ _ => False.elim)
      rintro position? ⟨asked, _⟩ rfl
      refine Outcome.bind (outcome_ofResult (fun position _ => ?_) fun error herror => ?_)
      · -- Only the stream is left to fail.
        refine Outcome.bind ((effect_seekStream offset asked _).mono ?_ ?_)
        · rintro _ ⟨first, _⟩ rfl
          refine Outcome.bind ((effect_writeStream _ first _).mono ?_ ?_)
          · rintro _ ⟨second, _⟩ rfl
            exact (effect_seekStream position second _).mono (fun _ _ h => h)
              fun _ _ h => ⟨h.1 ▸ hattempted, .inl h.2⟩
          · exact fun _ _ h => ⟨h.1 ▸ hattempted, .inl h.2⟩
        · exact fun _ _ h => ⟨h.1 ▸ hattempted, .inl h.2⟩
      · cases position? with
        | ok position => cases herror
        | error cause => exact ⟨hattempted, .inl ⟨cause, (Except.error.inj herror).symm⟩⟩
    · exact fun _ _ h => ⟨h.1 ▸ hattempted, .inr h.2⟩
  · cases hoffset : pending.offset? with
    | none =>
      rw [hoffset] at herror
      exact ⟨.refl state, .inl ⟨_, (Except.error.inj herror).symm⟩⟩
    | some offset => rw [hoffset] at herror; cases herror

/-- **Sealing** leaves the payload; a failure leaves it open, with its record described or not. -/
theorem effect_finishAddedData (handle : Archive σ) :
    Outcome (fun _ final => (∃ pending, handle.state.IsOpen pending) ∧
        final.state = handle.state.writingAt .atRecord)
      (fun error final => handle.state.Attempted final.state ∧
        ((¬ ∃ pending, handle.state.IsOpen pending) ∧ final = handle ∨
          ∃ pending, handle.state.IsOpen pending ∧
            ((∃ cause, error = .write cause) ∨ pending.sealedRecord.fix = .error error)))
      (finishAddedData handle) := by
  refine Outcome.bind ((outcome_expectPending _ handle).mono ?_ ?_)
  · rintro pending ⟨stream, state⟩ ⟨rfl, hopen⟩
    split
    next => exact ⟨⟨pending, hopen⟩, (HandleState.writingAt_atRecord_of_isOpen hopen).symm⟩
    next =>
      refine Outcome.bind ((effect_sealHeader hopen stream).mono ?_ ?_)
      · rintro _ ⟨final, _⟩ rfl
        exact ⟨⟨pending, hopen⟩, (HandleState.writingAt_atRecord_of_isOpen hopen).symm⟩
      · exact fun _ _ hfinal => ⟨hfinal.1, .inr ⟨pending, hopen, hfinal.2⟩⟩
  · rintro _ _ ⟨rfl, hnone⟩
    exact ⟨.refl _, .inl ⟨hnone, rfl⟩⟩

/-- A seal is out of order only where there is no payload. -/
theorem hasEffect_finishAddedData (handle : Archive σ) :
    HasEffect handle (∃ pending, handle.state.IsOpen pending)
      (fun _ final => (∃ pending, handle.state.IsOpen pending) ∧
        final.state = handle.state.writingAt .atRecord)
      handle.state.Attempted (finishAddedData handle) := by
  refine (effect_finishAddedData handle).mono (fun _ _ hfinal => hfinal) ?_
  rintro error final ⟨hstate, ⟨hnone, hfinal⟩ | ⟨pending, -, hcause | hfix⟩⟩
  · exact ⟨hstate, fun _ => ⟨hfinal, hnone⟩⟩
  · obtain ⟨cause, rfl⟩ := hcause
    exact ⟨hstate, nofun⟩
  · have hfault := not_isOutOfOrder_of_invalidParameter (Record.fix_eq_error hfix)
    exact ⟨hstate, fun h => absurd h hfault⟩

/-- Where a record can start: between two records or in a payload. -/
def IsReady (handle : Archive σ) : Prop :=
  handle.state.mode = .writing .atRecord ∨ ∃ pending, handle.state.IsOpen pending

/-- What a failure to start a record leaves: the state, with an open payload sealed or not. -/
def IsSealed (handle : Archive σ) (state : HandleState) : Prop :=
  handle.state.Attempted state ∨ (∃ pending, handle.state.IsOpen pending) ∧
    state = handle.state.writingAt .atRecord

/-- An open payload is sealed in front of the next record. -/
theorem effect_readyForRecord (name : String) (handle : Archive σ) :
    HasEffect handle (IsReady handle)
      (fun _ final => IsReady handle ∧ final.state = handle.state.writingAt .atRecord ∧
        IsSealed handle final.state)
      handle.state.Attempted (readyForRecord name handle) := by
  by_cases hmode : handle.state.mode = .writing .atRecord
  · rw [readyForRecord_of_atRecord hmode]
    exact ⟨.inl hmode, (HandleState.writingAt_atRecord hmode).symm, .inl (.refl _)⟩
  by_cases hplace : handle.state.mode = .writing .atAddedData
  · -- The payload in front is sealed, if what that needs is kept.
    have hrun : readyForRecord name handle = finishAddedData handle := by
      rw [readyForRecord, bind_of_ok (state_apply handle), hplace]
    rw [hrun]
    refine (hasEffect_finishAddedData handle).next
      (.inr ⟨rfl, fun hready => hready.resolve_left hmode⟩) ?_ fun _ h => h
    exact fun _ _ hfinal => ⟨.inr hfinal.1, hfinal.2, .inr hfinal⟩
  · have hnot : ¬ IsReady handle := by
      rintro (hready | ⟨pending, hopen⟩)
      · exact hmode hready
      · exact hplace hopen.mode
    have hrefused : readyForRecord name handle = .error (.invalidState name) handle := by
      rw [readyForRecord, bind_of_ok (state_apply handle)]
      rcases hother : handle.state.mode with _ | _ | (_ | _ | _)
      case writing.atRecord => exact absurd hother hmode
      case writing.atAddedData => exact absurd hother hplace
      all_goals rfl
    rw [hrefused]
    exact ⟨.refl _, fun _ => ⟨rfl, hnot⟩⟩

omit [ByteSink σ] in
/-- To ask for the offset leaves the state. -/
theorem effect_recordOffset (record : Record) (stream : σ) (state : HandleState) :
    Outcome (fun _ final => final.state = state)
      (fun error final => final.state = state ∧ ∃ cause, error = .write cause)
      (recordOffset record ⟨stream, state⟩) := by
  refine Outcome.bind ((effect_tellStream stream state).mono ?_ fun _ _ => False.elim)
  rintro position? ⟨asked, _⟩ rfl
  cases position? with
  | ok position => rfl
  | error cause =>
    dsimp only
    split
    next => exact ⟨rfl, _, rfl⟩
    next => rfl

omit [Seekable σ] in
/-- To put a record leaves the state. -/
theorem effect_emit {record : Record} (hfits : record.Fits) (stream : σ) (state : HandleState) :
    Outcome (fun _ final => final.state = state)
      (fun error final => final.state = state ∧ ∃ cause, error = .write cause)
      (emit record.fixed ⟨stream, state⟩) := by
  have hencode : ofResult record.fixed.encode? (⟨stream, state⟩ : Archive σ)
      = .ok record.fixed.toBytes ⟨stream, state⟩ :=
    ofResult_eq_ok.mpr ⟨Record.encode?_eq_ok.mpr ⟨hfits.size_fixed, rfl⟩, rfl⟩
  rw [emit, bind_of_ok hencode]
  exact effect_writeStream _ stream state

/-- **A record is started** where one can start; its payload, if it announces one, is open then. -/
theorem effect_writeRecord (record : Record) (handle : Archive σ) :
    HasEffect handle (IsReady handle)
      (fun _ final => IsReady handle ∧ record.Fits ∧ ∃ offset?,
        final.state = handle.state.writingAt (record.fixed.placeBehind offset?))
      (IsSealed handle) (CallWith.withValue record writeRecord handle) := by
  refine CallWith.outcome_withValue (Outcome.bind (outcome_lift
    ((effect_readyForRecord _ handle).mono ?_ fun _ _ h => ⟨.inl h.1, h.2⟩)))
  rintro _ ⟨stream, _⟩ ⟨hready, rfl, hsealed⟩
  cases hfix : record.fix with
  | error error =>
    rw [bind_of_error (fixValue_of_error hfix _)]
    have hfault := not_isOutOfOrder_of_invalidParameter (Record.fix_eq_error hfix)
    exact ⟨hsealed, fun h => absurd h hfault⟩
  | ok fixed =>
    have hfits := (Record.fix_eq_ok.mp hfix).1
    rw [bind_of_ok (fixValue_of_fits hfits _)]
    refine Outcome.bind (outcome_lift ((effect_recordOffset record.fixed stream _).mono ?_ ?_))
    · rintro offset? ⟨asked, _⟩ rfl
      refine Outcome.bind (outcome_lift ((effect_emit hfits asked _).mono ?_ ?_))
      · rintro _ ⟨behind, _⟩ rfl
        rw [lift_apply, passRecord_apply rfl, HandleState.writingAt_writingAt]
        exact ⟨hready, hfits, offset?, rfl⟩
      · rintro _ ⟨behind, _⟩ ⟨rfl, cause, rfl⟩
        exact ⟨hsealed, nofun⟩
    · rintro _ ⟨asked, _⟩ ⟨rfl, cause, rfl⟩
      exact ⟨hsealed, nofun⟩

/-- **A record whose size is to follow** is started, or the payload in front of it may be sealed
already. -/
theorem effect_startStreamedRecord (record : Record) (handle : Archive σ) :
    HasEffect handle False
      (fun _ final => IsReady handle ∧ record.Fits ∧ record.hasAddedSize = true ∧
        ∃ offset?, final.state
          = handle.state.writingAt (.atAddedData (.start record.fixed offset?)))
      (IsSealed handle) (CallWith.withValue record startStreamedRecord handle) := by
  by_cases hsize : record.hasAddedSize = true
  · have hrun : CallWith.withValue record startStreamedRecord handle
        = CallWith.withValue record writeRecord handle := by
      unfold CallWith.withValue
      rw [startStreamedRecord_of_hasAddedSize hsize]
    rw [hrun]
    refine (effect_writeRecord record handle).next (.inr ⟨rfl, False.elim⟩) ?_ fun _ h => h
    rintro _ final ⟨hready, hfits, offset?, hstate⟩
    have hsize' : record.fixed.hasAddedSize = true := hsize
    rw [Record.placeBehind, if_pos hsize'] at hstate
    exact ⟨hready, hfits, hsize, offset?, hstate⟩
  · rw [CallWith.withValue_of_error (startStreamedRecord_of_not_hasAddedSize hsize handle)]
    exact ⟨.inl (.refl _), False.elim⟩

/-- **A record with its payload** is written, or the payload in front of it may be sealed already.
-/
theorem effect_writeRecordWithAddedData (record : Record) (payload : List UInt8)
    (handle : Archive σ) :
    HasEffect handle (IsReady handle)
      (fun _ final => IsReady handle ∧ final.state = handle.state.writingAt .atRecord)
      (IsSealed handle) (CallWith.withValue record (writeRecordWithAddedData payload) handle) := by
  refine CallWith.outcome_withValue (Outcome.bind (outcome_lift
    ((effect_readyForRecord _ handle).mono ?_ fun _ _ h => ⟨.inl h.1, h.2⟩)))
  rintro _ ⟨stream, _⟩ ⟨hready, rfl, hsealed⟩
  rw [bind_of_ok (CallWith.value_apply _ _), bind_of_ok (CallWith.setValue_apply _ _ _)]
  cases hfix : (record.announcing payload).fix with
  | error error =>
    rw [bind_of_error (fixValue_of_error hfix _)]
    have hfault := not_isOutOfOrder_of_invalidParameter (Record.fix_eq_error hfix)
    exact ⟨hsealed, fun h => absurd h hfault⟩
  | ok fixed =>
    have hfits := (Record.fix_eq_ok.mp hfix).1
    rw [bind_of_ok (fixValue_of_fits hfits _)]
    refine Outcome.bind (outcome_lift ((effect_emit hfits stream _).mono ?_ ?_))
    · rintro _ ⟨behind, _⟩ rfl
      refine Outcome.bind (outcome_lift ((effect_writeStream payload behind _).mono ?_ ?_))
      · rintro _ ⟨final, _⟩ rfl
        exact ⟨hready, rfl⟩
      · rintro _ ⟨final, _⟩ ⟨rfl, cause, rfl⟩
        exact ⟨hsealed, nofun⟩
    · rintro _ ⟨behind, _⟩ ⟨rfl, cause, rfl⟩
      exact ⟨hsealed, nofun⟩

omit [Seekable σ] in
/-- **A chunk** is counted, or the state stays as it was. -/
theorem effect_writeAddedData (chunk : List UInt8) (handle : Archive σ) :
    HasEffect handle (∃ pending, handle.state.IsOpen pending)
      (fun _ final => ∃ pending, handle.state.IsOpen pending ∧ pending.fits chunk = true ∧
        final.state = handle.state.writingAt
          (.atAddedData (pending.append (pending.accept chunk))))
      (fun state => state = handle.state) (writeAddedData chunk handle) := by
  refine Outcome.bind ((outcome_expectPending _ handle).mono ?_ ?_)
  · rintro pending ⟨stream, state⟩ ⟨rfl, hopen⟩
    refine Outcome.bind (outcome_require (fun hchunk => ?_) fun _ => ⟨rfl, False.elim⟩)
    refine Outcome.bind ((effect_writeStream _ stream state).mono ?_ ?_)
    · rintro _ ⟨final, _⟩ rfl
      refine ⟨pending, hopen, hchunk, ?_⟩
      rw [HandleState.writingAt, ← hopen.mode]
    · rintro _ _ ⟨hstate, cause, rfl⟩
      exact ⟨hstate, False.elim⟩
  · rintro _ _ ⟨rfl, hnone⟩
    exact ⟨rfl, fun _ => ⟨rfl, hnone⟩⟩

/-! ## Turning a handle -/

omit [Seekable σ] in
/-- **The marker** is written where it is missing, and nowhere else. -/
theorem effect_writeMarker (handle : Archive σ) :
    HasEffect handle (handle.state.mode = .writing .atMarker)
      (fun _ final => handle.state.mode = .writing .atMarker ∧
        final.state = handle.state.writingAt .atRecord)
      (fun state => state = handle.state) (writeMarker handle) := by
  obtain ⟨stream, state⟩ := handle
  rw [writeMarker, bind_of_ok (state_apply _)]
  refine Outcome.bind (outcome_require (fun hmode => ?_) fun hmode => ⟨rfl, fun _ => ⟨rfl, hmode⟩⟩)
  refine Outcome.bind (outcome_onStream ((isInOrder_write (writeAll Marker.bytes) stream).mono ?_ ?_))
  · refine fun _ final _ => ⟨hmode, ?_⟩
    have hplace : state.mode = .writing .atMarker := hmode
    have hother : state.mode ≠ .writing .atAddedData := by simp [hplace]
    rw [HandleState.writingAt_atRecord_of_mode_ne hother]
  · exact fun _ _ herror => ⟨rfl, fun h => absurd h herror⟩

/-- **What is being written** is completed, or its payload at least. That is out of order only where
what sealing needs is not kept. -/
theorem effect_finishWriting (handle : Archive σ) :
    Outcome (fun _ final => IsSealed handle final.state ∧ final.state.mode ≠ .writing .atAddedData)
      (fun error final => IsSealed handle final.state ∧
        (error.IsOutOfOrder → final = handle ∧ ¬ handle.state.KeepsPending))
      (finishWriting handle) := by
  have hflush (middle : Archive σ) (hmiddle : IsSealed handle middle.state)
      (hmode : middle.state.mode ≠ .writing .atAddedData) :
      Outcome
        (fun _ final => IsSealed handle final.state ∧ final.state.mode ≠ .writing .atAddedData)
        (fun error final => IsSealed handle final.state ∧
          (error.IsOutOfOrder → final = handle ∧ ¬ handle.state.KeepsPending))
        (flushStream middle) := by
    refine (effect_flushStream middle.stream middle.state).mono ?_ ?_
    · exact fun _ _ hstate => hstate ▸ ⟨hmiddle, hmode⟩
    · rintro _ _ ⟨hstate, cause, rfl⟩
      exact ⟨hstate ▸ hmiddle, False.elim⟩
  have hsame : IsSealed handle handle.state := .inl (.refl _)
  rw [finishWriting, bind_of_ok (state_apply handle)]
  rcases hmode : handle.state.mode with _ | _ | (_ | _ | _)
  case idle => exact ⟨hsame, by simp [hmode]⟩
  case reading => exact ⟨hsame, by simp [hmode]⟩
  case writing.atMarker => exact hflush handle hsame (by simp [hmode])
  case writing.atRecord => exact hflush handle hsame (by simp [hmode])
  case writing.atAddedData =>
    refine Outcome.bind ((hasEffect_finishAddedData handle).mono ?_ ?_)
    · rintro _ middle ⟨hopen, hstate⟩
      have hmode : middle.state.mode = .writing .atRecord := congrArg HandleState.mode hstate
      exact hflush middle (.inr ⟨hopen, hstate⟩) (by simp [hmode])
    · refine fun _ _ hfinal => ⟨.inl hfinal.1, fun herror => ⟨(hfinal.2 herror).1, fun hkeeps => ?_⟩⟩
      exact (hfinal.2 herror).2 (hkeeps.exists_isOpen hmode)

/-- The state of a handle that has been turned to reading. -/
def turnedToReading (state : HandleState) : HandleState :=
  { state with
    mode := .reading .atMarker
    incoming := {}
    unpacker := .validatingFormat
    entry := {}
    currentFile? := none }

/-- **Turning to reading** forgets what was written, unless that could not be completed. -/
theorem effect_startReading (handle : Archive σ) :
    Outcome (fun _ final => final = handle ∧ (∃ place, handle.state.mode = .reading place) ∨
        ∃ state, IsSealed handle state ∧ state.mode ≠ .writing .atAddedData ∧
          final.state = turnedToReading state)
      (fun error final => IsSealed handle final.state ∧
        (error.IsOutOfOrder → final = handle ∧ ¬ handle.state.KeepsPending))
      (startReading handle) := by
  rw [startReading, bind_of_ok (state_apply handle)]
  rcases handle.state.mode with _ | place | _
  case reading => exact .inl ⟨rfl, place, rfl⟩
  all_goals
    refine Outcome.bind ((effect_finishWriting handle).mono ?_ fun _ _ h => h)
    exact fun _ middle hmiddle => .inr ⟨middle.state, hmiddle.1, hmiddle.2, rfl⟩

/-- The state of a handle that has been turned to writing. -/
def turned (state : HandleState) (place : WriterState) : HandleState :=
  { state with mode := .writing place, pending? := none, packer := .idle, currentFile? := none }

omit [Seekable σ] in
/-- **Turning to writing** forgets what was read, whether the marker can be written or not. -/
theorem effect_startWriting (handle : Archive σ) :
    Outcome (fun _ final => final = handle ∧ (∃ place, handle.state.mode = .writing place) ∨
        (¬ ∃ place, handle.state.mode = .writing place) ∧
          final.state = turned handle.state .atRecord)
      (fun error final => (¬ ∃ place, handle.state.mode = .writing place) ∧
        final.state = turned handle.state .atMarker ∧ ¬ error.IsOutOfOrder)
      (startWriting handle) := by
  obtain ⟨stream, state⟩ := handle
  rw [startWriting, bind_of_ok (state_apply _)]
  have hmarker : Outcome (fun _ final => final.state = turned state .atRecord)
      (fun error final => final.state = turned state .atMarker ∧ ¬ error.IsOutOfOrder)
      (writeMarker ⟨stream, turned state .atMarker⟩) :=
    (effect_writeMarker _).mono (fun _ _ hfinal => hfinal.2)
      fun _ _ hfinal => ⟨hfinal.1, fun h => (hfinal.2 h).2 rfl⟩
  rcases hmode : state.mode with _ | _ | place
  case writing => exact .inl ⟨rfl, place, rfl⟩
  all_goals
    refine hmarker.mono (fun _ _ hfinal => .inr ⟨?_, hfinal⟩) fun _ _ hfinal => ⟨?_, hfinal⟩
    all_goals simp

/-! ## Packing -/

omit [ByteSink σ] [Seekable σ] in
/-- The check changes nothing. -/
theorem effect_expectPacker (allowed : List PackerState) (name : String) (handle : Archive σ) :
    Outcome (fun _ final => final = handle ∧ (∃ place, handle.state.mode = .writing place) ∧
        handle.state.packer ∈ allowed)
      (fun _ final => final = handle) (expectPacker allowed name handle) := by
  rw [expectPacker, bind_of_ok (state_apply handle)]
  rcases hmode : handle.state.mode with _ | _ | place
  · rfl
  · rfl
  · exact outcome_require (fun hplace => ⟨rfl, ⟨place, rfl⟩, hplace⟩) fun _ => rfl

omit [ByteSink σ] [Seekable σ] in
/-- The check is passed by handles that nothing was packed into. -/
theorem effect_expectFresh (name : String) (handle : Archive σ) :
    Outcome (fun _ final => final = handle ∧
        ((∃ place, handle.state.mode = .writing place) → handle.state.packer = .idle))
      (fun _ final => final = handle) (expectFresh name handle) := by
  rw [expectFresh, bind_of_ok (state_apply handle)]
  rcases hmode : handle.state.mode with _ | _ | place
  · exact ⟨rfl, fun ⟨_, h⟩ => nomatch h⟩
  · exact ⟨rfl, fun ⟨_, h⟩ => nomatch h⟩
  · exact outcome_require (fun hplace => ⟨rfl, fun _ => hplace⟩) fun _ => rfl

/-- The record of the archive header is written where nothing else has happened or the handle has
just been turned. -/
theorem effect_writeVersion {handle middle : Archive σ} {failed : HandleState → Prop}
    (horder : middle.state.mode = .writing .atRecord ∨ middle = handle)
    (hfailed : ∀ state, IsSealed middle state → failed state) :
    HasEffect handle False
      (fun _ final => final.state
        = { middle.state.writingAt .atRecord with packer := .fileHeader }) failed
      ((do
        let record ← ofResult ArchiveHeader.current.toRecord
        CallWith.withValue record writeRecord
        setPacker .fileHeader : Call σ Unit) middle) := by
  have hparts : ArchiveHeader.current.toRecord = Record.fix
      { kind := .archiveHeader, flags := 0, data := LittleEndian.word16 1 } := rfl
  rw [hparts]
  refine Outcome.bind (outcome_ofResult (fun record hrecord => ?_) fun error herror => ?_)
  · obtain ⟨-, rfl⟩ := Record.fix_eq_ok.mp hrecord
    refine Outcome.bind (((effect_writeRecord _ middle).next
      (horder.imp .inl fun h => ⟨h, False.elim⟩) (fun _ _ hfinal => hfinal) hfailed).mono ?_
      fun _ _ hfinal => hfinal)
    rintro _ ⟨stream, _⟩ ⟨-, -, offset?, rfl⟩
    rfl
  · have hfault := not_isOutOfOrder_of_invalidParameter (Record.fix_eq_error herror)
    exact ⟨hfailed _ (.inl (.refl _)), fun h => absurd h hfault⟩

/-- What a failure to write the archive header leaves: the state, with an open payload sealed or not,
or the handle turned to writing. -/
def IsTurned (handle : Archive σ) (state : HandleState) : Prop :=
  IsSealed handle state ∨ ∃ place, state = turned handle.state place ∧
    (place = .atMarker ∨ place = .atRecord)

/-- **The archive header** is written behind a marker that is written where it is missing. -/
theorem effect_initArchive (handle : Archive σ) :
    HasEffect handle False
      (fun _ final => (∃ place, handle.state.mode = .writing place) ∧ handle.state.packer = .idle ∧
          final.state = { handle.state.writingAt .atRecord with packer := .fileHeader } ∨
        final.state = { turned handle.state .atRecord with packer := .fileHeader })
      (IsTurned handle) (initArchive handle) := by
  refine Outcome.bind ((effect_expectFresh _ handle).mono ?_ ?_)
  · rintro _ handle ⟨rfl, hfresh⟩
    refine Outcome.bind ((effect_startWriting handle).mono ?_ ?_)
    · rintro _ middle (⟨rfl, hmode⟩ | ⟨-, hturned⟩)
      · have hfailed (state : HandleState) (h : IsSealed middle state) : IsTurned middle state :=
          .inl h
        refine (effect_writeVersion (.inr rfl) hfailed).mono ?_ fun _ _ h => h
        exact fun _ _ hfinal => .inl ⟨hmode, hfresh hmode, hfinal⟩
      · have hrecord : middle.state.mode = .writing .atRecord := by rw [hturned]; rfl
        have hsame : middle.state.writingAt .atRecord = turned handle.state .atRecord := by
          rw [HandleState.writingAt_atRecord hrecord, hturned]
        have hfailed (state : HandleState) (h : IsSealed middle state) : IsTurned handle state := by
          refine .inr ⟨.atRecord, ?_, .inr rfl⟩
          rcases h with hattempted | ⟨-, rfl⟩
          · rw [hattempted.eq_of_not_isOpen (HandleState.not_isOpen_of_atRecord hrecord), hturned]
          · exact hsame
        refine (effect_writeVersion (.inl hrecord) hfailed).mono ?_ fun _ _ h => h
        exact fun _ _ hfinal => .inr (hsame ▸ hfinal)
    · rintro _ _ ⟨-, hstate, herror⟩
      exact ⟨.inr ⟨.atMarker, hstate, .inl rfl⟩, fun h => absurd h herror⟩
  · rintro _ _ rfl
    exact ⟨.inl (.inl (.refl _)), fun _ => ⟨rfl, id⟩⟩

/-- **A file header** is written and the content of its entry opened. -/
theorem effect_beginFile (info : EntryInfo) (handle : Archive σ) :
    HasEffect handle False
      (fun _ final => ∃ header, info.toRecord = .ok header ∧
        (handle.state.options.requestCrc (info.announceContent header)).Fits ∧
        ∃ offset?, final.state = { handle.state.writingAt
          ((handle.state.options.requestCrc (info.announceContent header)).fixed.placeBehind
            offset?) with currentFile? := some info, packer := .fileData })
      (IsSealed handle) (beginFile info handle) := by
  refine Outcome.bind ((effect_expectPacker _ _ handle).mono ?_ ?_)
  · rintro _ handle ⟨rfl, -⟩
    refine Outcome.bind (outcome_ofResult (fun header hheader => ?_) fun error herror => ?_)
    · rw [bind_of_ok (state_apply handle)]
      refine Outcome.bind (((effect_writeRecord _ handle).next (.inr ⟨rfl, False.elim⟩)
        (fun _ _ hfinal => hfinal) fun _ h => h).mono ?_ fun _ _ hfinal => hfinal)
      rintro _ ⟨stream, _⟩ ⟨-, hfits, offset?, rfl⟩
      exact ⟨header, hheader, hfits, offset?, rfl⟩
    · have hfault := not_isOutOfOrder_of_invalidParameter (EntryInfo.toRecord_eq_error herror)
      exact ⟨.inl (.refl _), fun h => absurd h hfault⟩
  · rintro _ _ rfl
    exact ⟨.inl (.refl _), fun _ => ⟨rfl, id⟩⟩

/-- **An entry is sealed**. -/
theorem effect_endFile (handle : Archive σ) :
    HasEffect handle False
      (fun _ final => final.state = { handle.state.writingAt .atRecord with
        currentFile? := none, packer := .fileHeader })
      handle.state.Attempted (endFile handle) := by
  refine Outcome.bind ((effect_expectPacker _ _ handle).mono ?_ ?_)
  · rintro _ handle ⟨rfl, -⟩
    refine Outcome.bind (((hasEffect_finishAddedData handle).next (.inr ⟨rfl, False.elim⟩)
      (fun _ _ hfinal => hfinal) fun _ h => h).mono ?_ fun _ _ hfinal => hfinal)
    rintro _ ⟨stream, _⟩ ⟨-, rfl⟩
    rfl
  · rintro _ _ rfl
    exact ⟨.refl _, fun _ => ⟨rfl, id⟩⟩

/-- **A whole entry** is written between two entries. -/
theorem effect_addFile (info : EntryInfo) (content : List UInt8) (handle : Archive σ) :
    HasEffect handle False
      (fun _ final => (∃ place, handle.state.mode = .writing place) ∧
        handle.state.packer ∈ [PackerState.idle, .fileHeader] ∧
        final.state = { handle.state.writingAt .atRecord with packer := .fileHeader })
      (IsSealed handle) (addFile info content handle) := by
  refine Outcome.bind ((effect_expectPacker _ _ handle).mono ?_ ?_)
  · rintro _ handle ⟨rfl, hmode, hpacker⟩
    refine Outcome.bind (outcome_ofResult (fun header _ => ?_) fun error herror => ?_)
    · rw [bind_of_ok (state_apply handle)]
      refine Outcome.bind (((effect_writeRecordWithAddedData _ content handle).next
        (.inr ⟨rfl, False.elim⟩) (fun _ _ hfinal => hfinal) fun _ h => h).mono ?_
        fun _ _ hfinal => hfinal)
      rintro _ ⟨stream, _⟩ ⟨-, rfl⟩
      exact ⟨hmode, hpacker, rfl⟩
    · have hfault := not_isOutOfOrder_of_invalidParameter (EntryInfo.toRecord_eq_error herror)
      exact ⟨.inl (.refl _), fun h => absurd h hfault⟩
  · rintro _ _ rfl
    exact ⟨.inl (.refl _), fun _ => ⟨rfl, id⟩⟩

end Archive

/-! ## Copying content -/

namespace ByteSource

/-- **What a stream offers** to reads of a size until it ends or fails. -/
def offered [ByteSource ι] (count : Nat) (start : ι) : List UInt8 :=
  match _hrun : read count start with
  | .ok [] _ => []
  | .ok (byte :: bytes) rest => byte :: bytes ++ offered count rest
  | .error error rest => if _hagain : error.isInterrupted then offered count rest else []
termination_by readBudget start
decreasing_by
  · have := readBudget_ok _hrun
    simp only [List.length_cons] at this
    omega
  · have := readBudget_error _hrun
    rw [_hagain, Bool.toNat_true] at this
    omega

/-- A stream offers what it gives and then what its rest offers. -/
theorem offered_of_ok [ByteSource ι] {count : Nat} {start rest : ι} {bytes : List UInt8}
    (h : read count start = .ok bytes rest) (hne : bytes ≠ []) :
    offered count start = bytes ++ offered count rest := by
  obtain ⟨byte, bytes, rfl⟩ := List.exists_cons_of_ne_nil hne
  rw [offered]
  split
  next hrun => cases hrun.symm.trans h
  next hrun => cases hrun.symm.trans h; rfl
  next hrun => cases hrun.symm.trans h

/-- An interruption takes nothing from what is offered. -/
theorem offered_of_interrupted [ByteSource ι] {count : Nat} {start rest : ι} {error : IoError}
    (h : read count start = .error error rest) (hagain : error.isInterrupted = true) :
    offered count start = offered count rest := by
  rw [offered]
  split
  next hrun => cases hrun.symm.trans h
  next hrun => cases hrun.symm.trans h
  next hrun =>
    cases hrun.symm.trans h
    rw [dif_pos hagain]

end ByteSource

/-- **The chunks that are accepted** for a payload, one after another. -/
inductive PendingPayload.Accepts (pending : PendingPayload) :
    List (List UInt8) → PendingPayload → Prop
  /-- No chunk. -/
  | nil : Accepts pending [] pending
  /-- One more chunk, which fits. -/
  | add {chunks : List (List UInt8)} {middle : PendingPayload} {chunk : List UInt8}
    (h : Accepts pending chunks middle) (hchunk : middle.fits chunk = true) :
    Accepts pending (chunks ++ [chunk]) (middle.append (middle.accept chunk))

namespace HandleState

/-- The state after some chunks: as it was if there are none, and with the payload that has accepted
them otherwise. -/
def Accepts (first : HandleState) (chunks : List (List UInt8)) (second : HandleState) : Prop :=
  chunks = [] ∧ second = first ∨ ∃ pending final, first.IsOpen pending ∧
    pending.Accepts chunks final ∧ second = first.writingAt (.atAddedData final)

/-- One more chunk. -/
theorem Accepts.add {first middle : HandleState} {chunks : List (List UInt8)}
    (h : first.Accepts chunks middle) {pending : PendingPayload} {chunk : List UInt8}
    (hopen : middle.IsOpen pending) (hchunk : pending.fits chunk = true) :
    first.Accepts (chunks ++ [chunk])
      (middle.writingAt (.atAddedData (pending.append (pending.accept chunk)))) := by
  rcases h with ⟨rfl, rfl⟩ | ⟨start, final, hstart, haccepts, rfl⟩
  · exact .inr ⟨pending, _, hopen, .add .nil hchunk, rfl⟩
  · obtain rfl := hopen.unique (first.isOpen_writingAt final)
    exact .inr ⟨start, _, hstart, haccepts.add hchunk, rfl⟩

end HandleState

namespace Archive

variable [ByteSource ι] [ByteSink σ]

omit [ByteSink σ] in
/-- A piece of what the stream offers is fetched. -/
theorem outcome_fetch (count : Nat) (source : CopySource ι) :
    Outcome (fun fetched? rest => rest.total = source.total ∧ (fetched? = some [] ∨
        ByteSource.offered count source.stream
          = fetched?.getD [] ++ ByteSource.offered count rest.stream))
      (fun error rest => rest.total = source.total ∧ ∃ cause, error = .read cause)
      (fetch count source) := by
  unfold fetch
  cases hread : ByteSource.read count source.stream with
  | ok bytes rest =>
    by_cases hnil : bytes = []
    · exact ⟨rfl, .inl (congrArg some hnil)⟩
    · exact ⟨rfl, .inr (ByteSource.offered_of_ok hread hnil)⟩
  | error error rest =>
    dsimp only
    split
    next hagain => exact ⟨rfl, .inr (ByteSource.offered_of_interrupted hread hagain)⟩
    next => exact ⟨rfl, error, rfl⟩

/-- One round of copying appends one chunk of what the stream offers, or nothing. -/
theorem effect_insertRound (count : Nat) (source : CopySource ι) (handle : Archive σ) :
    Outcome
      (fun round final => round.elim
        (∃ bytes, ByteSource.offered count source.stream
            = bytes ++ ByteSource.offered count final.1.stream ∧
          final.1.total = source.total + bytes.length ∧
          (bytes = [] ∧ final.2 = handle ∨ ∃ pending, handle.state.IsOpen pending ∧
            pending.fits bytes = true ∧ final.2.state = handle.state.writingAt
              (.atAddedData (pending.append (pending.accept bytes)))))
        fun _ => final.1.total = source.total ∧ final.2 = handle)
      (fun error final => final.1.total = source.total ∧ final.2.state = handle.state ∧
        (error.IsOutOfOrder → final.2 = handle ∧ ¬ ∃ pending, handle.state.IsOpen pending))
      (insertRound count (source, handle)) := by
  refine Outcome.bind (CallWith.outcome_onValue ((outcome_fetch count source).mono ?_ ?_))
  · rintro fetched? rest ⟨htotal, hoffered⟩
    rcases fetched? with _ | _ | ⟨byte, bytes⟩
    · exact ⟨[], hoffered.resolve_left nofun, htotal, .inl ⟨rfl, rfl⟩⟩
    · exact ⟨htotal, rfl⟩
    · refine Outcome.bind (outcome_lift ((effect_writeAddedData (byte :: bytes) handle).mono ?_ ?_))
      · intro _ final hfinal
        refine ⟨byte :: bytes, hoffered.resolve_left nofun, ?_, .inr hfinal⟩
        exact congrArg (· + (byte :: bytes).length) htotal
      · exact fun _ _ hfinal => ⟨htotal, hfinal⟩
  · rintro _ rest ⟨htotal, cause, rfl⟩
    exact ⟨htotal, rfl, nofun⟩

/-- **Copying a stream** appends chunks to the open content which are, in a row, the front part of
what the stream offers that has been counted. -/
theorem outcome_insertFileData (input : ι) (handle : Archive σ) :
    Outcome
      (fun _ final => ∃ chunks state, handle.state.Accepts chunks state ∧
        chunks.flatten = (ByteSource.offered handle.state.options.copySize input).take final.1.total ∧
        (∃ place, handle.state.mode = .writing place) ∧ handle.state.packer = .fileData ∧
        final.2.state = { state with packer := .afterFileData })
      (fun error final => (∃ chunks, handle.state.Accepts chunks final.2.state ∧
          chunks.flatten
            = (ByteSource.offered handle.state.options.copySize input).take final.1.total) ∧
        (error.IsOutOfOrder → final.2 = handle))
      (insertFileData ((⟨input, 0⟩ : CopySource ι), handle)) := by
  have hnothing : ∃ chunks, handle.state.Accepts chunks handle.state ∧
      chunks.flatten = (ByteSource.offered handle.state.options.copySize input).take 0 :=
    ⟨[], .inl ⟨rfl, rfl⟩, rfl⟩
  refine Outcome.bind (outcome_lift ((effect_expectPacker _ _ handle).mono ?_ ?_))
  · rintro _ handle ⟨rfl, hmode, hpacker⟩
    have hstate : (Call.lift Call.state : CallWith (CopySource ι) σ HandleState) (⟨input, 0⟩, handle)
        = .ok handle.state (⟨input, 0⟩, handle) := rfl
    rw [bind_of_ok hstate]
    -- The chunks so far are the front part that was counted; only the first one can be out of order.
    refine Outcome.bind (Outcome.repeatUntil (fun start : CopySource ι × Archive σ => ∃ chunks,
      handle.state.Accepts chunks start.2.state ∧
      ByteSource.offered handle.state.options.copySize input
        = chunks.flatten ++ ByteSource.offered handle.state.options.copySize start.1.stream ∧
      start.1.total = chunks.flatten.length ∧
      (start.2 = handle ∨ ∃ pending, start.2.state.IsOpen pending)) ?_
      ⟨[], .inl ⟨rfl, rfl⟩, rfl, rfl, .inl rfl⟩)
    rintro ⟨source, middle⟩ ⟨chunks, haccepts, hoffered, htotal, horder⟩
    have hcounted (total : Nat) (hsame : total = source.total) :
        chunks.flatten = (ByteSource.offered handle.state.options.copySize input).take total := by
      rw [hsame, hoffered, htotal, List.take_left]
    refine (effect_insertRound _ source middle).mono ?_ ?_
    · rintro round ⟨rest, final⟩ hround
      cases round with
      | some _ =>
        obtain ⟨hsame, rfl⟩ := hround
        exact ⟨chunks, _, haccepts, hcounted _ hsame, hmode, List.mem_singleton.mp hpacker, rfl⟩
      | none =>
        obtain ⟨bytes, hbytes, hlength, hchunk⟩ := hround
        rcases hchunk with ⟨rfl, rfl⟩ | ⟨pending, hopen, hfits, hstate⟩
        · exact ⟨chunks, haccepts, hoffered.trans (by rw [hbytes, List.nil_append]),
            hlength.trans htotal, horder⟩
        · refine ⟨chunks ++ [bytes], ?_, ?_, ?_, .inr ?_⟩
          · rw [hstate]
            exact haccepts.add hopen hfits
          · rw [hoffered, hbytes, List.flatten_append, List.flatten_singleton, List.append_assoc]
          · rw [List.flatten_append, List.flatten_singleton, List.length_append]
            exact hlength.trans (congrArg (· + bytes.length) htotal)
          · exact ⟨_, hstate ▸ middle.state.isOpen_writingAt _⟩
    · rintro error ⟨rest, final⟩ ⟨hsame, hstate, herror⟩
      refine ⟨⟨chunks, hstate ▸ haccepts, hcounted _ hsame⟩, fun h => ?_⟩
      obtain ⟨rfl, hnone⟩ := herror h
      exact horder.resolve_right hnone
  · rintro _ _ rfl
    exact ⟨hnothing, fun _ => rfl⟩

end Archive

end RecordArchive
