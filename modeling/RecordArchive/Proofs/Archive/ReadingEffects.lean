import RecordArchive.Proofs.Archive.Effects
import RecordArchive.Proofs.Archive.Taking
import RecordArchive.Proofs.Archive.Unpacker

/-! # What reading does to a handle

The effect of each call of the reader and of the unpacker, on any stream.

* `Archive.effect_readRecord`, `Archive.effect_skipRecord`, `Archive.effect_readAddedData`: calls of
  the reader keep the entry and leave the handle between two records, inside a payload, or inside a
  record that could not be read.
* `Archive.effect_skipFile`, `Archive.effect_readFileData`, `Archive.effect_extract`: the calls of the
  unpacker repeat such steps. Only the first one can be out of order, and it has touched nothing. -/

namespace RecordArchive

open Program Call

variable {σ τ : Type}

namespace Archive

/-! ## Reading records -/

variable [ByteSource σ]

/-- A header is read, or the reader is left inside of it. -/
theorem effect_readRecordHeader (stream : σ) (state : HandleState) :
    Outcome (fun _ final => final.state = state.stranded)
      (fun error final => (final.state = state ∨ final.state = state.stranded) ∧
        ¬ error.IsOutOfOrder)
      (readRecordHeader ⟨stream, state⟩) := by
  refine Outcome.bind (outcome_onStream ((outcome_readExactly .boundary 1 stream).mono ?_ ?_))
  · rintro first behind -
    rw [bind_of_ok (setMode_apply _ behind state)]
    -- from here on every failure is one inside the record
    refine Outcome.bind (outcome_onStream ((outcome_readExactly .inside _ behind).mono ?_ ?_))
    · rintro fixed middle -
      refine Outcome.bind (outcome_onStream ((outcome_readExactly .inside _ middle).mono ?_ ?_))
      · rintro optional final -
        refine outcome_ofResult (fun header _ => rfl) fun error herror => ⟨.inr rfl, ?_⟩
        exact not_isOutOfOrder_of_invalidData (Record.decodeHeader_eq_error herror)
      · exact fun _ _ herror => ⟨.inr rfl, herror⟩
    · exact fun _ _ herror => ⟨.inr rfl, herror⟩
  · exact fun _ _ herror => ⟨.inl rfl, herror⟩

/-- **A record is read** between two records, and nowhere else. -/
theorem effect_readRecord (handle : Archive σ) :
    HasEffect handle (handle.state.mode = .reading .atRecordHeader)
      (fun record final => handle.state.mode = .reading .atRecordHeader ∧
        final.state = handle.state.behind record)
      handle.state.KeepsEntry (readRecord handle) := by
  obtain ⟨stream, state⟩ := handle
  rw [readRecord, expectReader]
  refine Outcome.bind (Outcome.bind (outcome_require (fun hmode => ?_) fun hmode => ?_))
  · have hreading : state.mode.use = .reading := Mode.use_eq_reading.mpr ⟨_, hmode⟩
    have hstranded : state.KeepsEntry state.stranded :=
      HandleState.keepsEntry_moved hreading .atRecordData state.incoming state.entry
    refine Outcome.bind ((effect_readRecordHeader stream state).mono ?_ ?_)
    · rintro header ⟨middle, _⟩ rfl
      refine Outcome.bind (outcome_onStream ((outcome_readExactly .inside _ middle).mono ?_ ?_))
      · exact fun data final _ => ⟨hmode, rfl⟩
      · exact fun _ _ herror => ⟨hstranded, fun h => absurd h herror⟩
    · rintro error ⟨final, _⟩ ⟨rfl | rfl, herror⟩
      · exact ⟨.refl _, fun h => absurd h herror⟩
      · exact ⟨hstranded, fun h => absurd h herror⟩
  · exact ⟨.refl _, fun _ => ⟨rfl, hmode⟩⟩

/-- **The marker is searched** where it is ahead, and nowhere else. -/
theorem effect_findMarker (handle : Archive σ) :
    HasEffect handle (handle.state.mode = .reading .atMarker)
      (fun _ final => handle.state.KeepsEntry final.state ∧
        final.state.mode = .reading .atRecordHeader)
      handle.state.KeepsEntry (findMarker handle) := by
  obtain ⟨stream, state⟩ := handle
  rw [findMarker, expectReader]
  refine Outcome.bind (Outcome.bind (outcome_require (fun hmode => ?_) fun hmode => ?_))
  · have hreading : state.mode.use = .reading := Mode.use_eq_reading.mpr ⟨_, hmode⟩
    refine Outcome.bind (outcome_onStream ((isInOrder_find stream).mono ?_ ?_))
    · exact fun _ final _ => ⟨HandleState.keepsEntry_moved hreading .atRecordHeader
        state.incoming state.entry, rfl⟩
    · exact fun _ _ herror => ⟨.refl _, fun h => absurd h herror⟩
  · exact ⟨.refl _, fun _ => ⟨rfl, hmode⟩⟩

/-- The payload of a record that is skipped is found, or the handle stays in front of the record or
inside it. -/
theorem effect_payloadToSkip (handle : Archive σ) :
    HasEffect handle handle.state.IsPlaced
      (fun _ final => final.state.mode.use = .reading ∧ handle.state.KeepsEntry final.state ∧
        final.state.entry = handle.state.entry)
      handle.state.KeepsEntry (payloadToSkip handle) := by
  by_cases hpayload : handle.state.mode = .reading .atAddedData
  · rw [payloadToSkip_of_atAddedData hpayload]
    exact ⟨Mode.use_eq_reading.mpr ⟨_, hpayload⟩, .refl _, rfl⟩
  by_cases hheader : handle.state.mode = .reading .atRecordHeader
  · rw [payloadToSkip_of_atRecordHeader hheader]
    have hreading : handle.state.mode.use = .reading := Mode.use_eq_reading.mpr ⟨_, hheader⟩
    have hstranded : handle.state.KeepsEntry handle.state.stranded :=
      HandleState.keepsEntry_moved hreading .atRecordData handle.state.incoming handle.state.entry
    refine Outcome.bind ((effect_readRecordHeader handle.stream handle.state).mono ?_ ?_)
    · rintro header ⟨middle, _⟩ rfl
      refine Outcome.bind (outcome_onStream ((isInOrder_discard _ middle).mono ?_ ?_))
      · exact fun _ final _ => ⟨rfl, hstranded, rfl⟩
      · exact fun _ _ herror => ⟨hstranded, fun h => absurd h herror⟩
    · rintro error final ⟨hfinal | hfinal, herror⟩
      · exact ⟨hfinal ▸ .refl _, fun h => absurd h herror⟩
      · exact ⟨hfinal ▸ hstranded, fun h => absurd h herror⟩
  · rw [payloadToSkip_of_other hheader hpayload]
    exact ⟨.refl _, fun _ => ⟨rfl, fun h => h.elim hpayload hheader⟩⟩

/-- **A record is skipped**, or what is left of its payload. -/
theorem effect_skipRecord (handle : Archive σ) :
    HasEffect handle handle.state.IsPlaced
      (fun _ final => handle.state.KeepsEntry final.state ∧
        final.state.entry = handle.state.entry ∧ final.state.mode = .reading .atRecordHeader)
      handle.state.KeepsEntry (skipRecord handle) := by
  refine Outcome.bind ((effect_payloadToSkip handle).mono ?_ fun _ _ hfinal => hfinal)
  rintro length ⟨middle, state⟩ ⟨hreading, hkeeps, hentry⟩
  refine Outcome.bind (outcome_onStream ((isInOrder_discard length middle).mono ?_ ?_))
  · intro _ final _
    exact ⟨hkeeps.trans (HandleState.keepsEntry_moved hreading .atRecordHeader {} state.entry),
      hentry, rfl⟩
  · exact fun _ _ herror => ⟨hkeeps, fun h => absurd h herror⟩

omit [ByteSource σ] in
/-- The end of a payload is the end of its record, whether its checksum is right or not. -/
theorem effect_endAddedData (stream : σ) (state : HandleState) :
    Outcome (fun _ final => final = ⟨stream, { state with mode := .reading .atRecordHeader }⟩)
      (fun error final => final = ⟨stream, { state with mode := .reading .atRecordHeader }⟩ ∧
        ¬ error.IsOutOfOrder)
      (endAddedData ⟨stream, state⟩) := by
  rw [endAddedData, bind_of_ok (setMode_apply _ stream state), bind_of_ok (state_apply _)]
  cases state.incoming.declaredCrc? with
  | none => rfl
  | some stored => exact outcome_require (fun _ => rfl) fun _ => ⟨rfl, id⟩

/-- **Payload is read** inside of it. Where none comes, it has ended. -/
theorem effect_readAddedData (count : Nat) (handle : Archive σ) :
    HasEffect handle (handle.state.mode = .reading .atAddedData)
      (fun bytes final => handle.state.KeepsEntry final.state ∧
        final.state.entry = handle.state.entry ∧ final.state.IsPlaced ∧
        (0 < count → bytes = [] → final.state.mode = .reading .atRecordHeader))
      handle.state.KeepsEntry (readAddedData count handle) := by
  obtain ⟨stream, state⟩ := handle
  rw [readAddedData, expectReader]
  refine Outcome.bind (Outcome.bind (outcome_require (fun hmode => ?_) fun hmode => ?_))
  · have hreading : state.mode.use = .reading := Mode.use_eq_reading.mpr ⟨_, hmode⟩
    have hmoved (incoming : IncomingPayload) : state.KeepsEntry
        { state with mode := .reading .atRecordHeader, incoming } :=
      HandleState.keepsEntry_moved hreading .atRecordHeader incoming state.entry
    rw [bind_of_ok (state_apply _)]
    show Outcome _ _ ((if state.incoming.remaining = 0 then _ else _ :
      Call σ (List UInt8)) ⟨stream, state⟩)
    by_cases hzero : state.incoming.remaining = 0
    · rw [if_pos hzero]
      refine Outcome.bind ((effect_endAddedData stream state).mono ?_ ?_)
      · rintro _ _ rfl
        exact ⟨hmoved _, rfl, .inr rfl, fun _ _ => rfl⟩
      · rintro _ _ ⟨rfl, herror⟩
        exact ⟨hmoved _, fun h => absurd h herror⟩
    · rw [if_neg hzero]
      refine Outcome.bind (outcome_onStream ((outcome_readExactly .inside _ stream).mono ?_ ?_))
      · rintro bytes final hlength
        -- a piece is empty only if nothing was asked for
        have hnothing : 0 < count → bytes ≠ [] := by
          rintro hcount rfl
          have hlength : 0 = min (min count state.incoming.remaining) maxTransfer := hlength
          rw [maxTransfer] at hlength
          omega
        rw [bind_of_ok (update_apply _ final state)]
        by_cases hlast : (state.incoming.consume bytes).remaining = 0
        · rw [if_pos hlast]
          refine Outcome.bind ((effect_endAddedData final _).mono ?_ ?_)
          · rintro _ _ rfl
            exact ⟨hmoved _, rfl, .inr rfl, fun _ _ => rfl⟩
          · rintro _ _ ⟨rfl, herror⟩
            exact ⟨hmoved _, fun h => absurd h herror⟩
        · rw [if_neg hlast]
          refine ⟨⟨rfl, rfl, rfl, rfl, rfl⟩, rfl, .inl hmode, fun hcount hnil => ?_⟩
          exact absurd hnil (hnothing hcount)
      · exact fun _ _ herror => ⟨.refl _, fun h => absurd h herror⟩
  · exact ⟨.refl _, fun _ => ⟨rfl, hmode⟩⟩

/-! ## Unpacking -/

omit [ByteSource σ] in
/-- The check is passed by the handles that are used for reading. -/
theorem outcome_expectReading (name : String) (handle : Archive σ) :
    Outcome (fun _ final => final = handle ∧ handle.state.mode.use = .reading)
      (fun _ final => final = handle ∧ handle.state.mode.use ≠ .reading)
      (expectReading name handle) := by
  rw [expectReading, bind_of_ok (state_apply handle)]
  rcases hmode : handle.state.mode with _ | place | (_ | _ | _)
  case reading => exact ⟨rfl, rfl⟩
  all_goals exact ⟨rfl, by simp [Mode.use]⟩

/-- A payload is left if the handle stands in one; otherwise nothing happens. -/
theorem effect_leavePayload (handle : Archive σ) :
    Outcome (fun _ final => handle.state.KeepsEntry final.state ∧
        final.state.entry = handle.state.entry ∧
        (final = handle ∧ handle.state.mode ≠ .reading .atAddedData ∨
          final.state.mode = .reading .atRecordHeader))
      (fun error final => handle.state.KeepsEntry final.state ∧ ¬ error.IsOutOfOrder)
      (leavePayload handle) := by
  rw [leavePayload, bind_of_ok (state_apply handle)]
  by_cases hmode : handle.state.mode = .reading .atAddedData
  · rw [if_pos hmode]
    refine (effect_skipRecord handle).mono ?_ ?_
    · exact fun _ _ hfinal => ⟨hfinal.1, hfinal.2.1, .inr hfinal.2.2⟩
    · exact fun _ _ hfinal => ⟨hfinal.1, fun herror => (hfinal.2 herror).2 (.inl hmode)⟩
  · rw [if_neg hmode]
    exact ⟨.refl _, rfl, .inl ⟨rfl, hmode⟩⟩

/-- The record behind the marker is read, where nothing else has happened or the marker was found. -/
theorem effect_readVersion {handle middle : Archive σ} (hreading : handle.state.mode.use = .reading)
    (hunpacker : handle.state.unpacker = .validatingFormat)
    (hkeeps : handle.state.KeepsEntry middle.state)
    (horder : middle.state.mode = .reading .atRecordHeader ∨ middle = handle) :
    HasEffect handle False (fun _ final => handle.state.Continues final.state)
      handle.state.Continues ((do
        let record ← readRecord
        let header ← ofResult (ArchiveHeader.ofRecord record)
        leavePayload
        require (header.version ≤ ArchiveHeader.supportedVersion)
          (.invalidFormat (.newerVersion header.version ArchiveHeader.supportedVersion))
        update fun state => { state with unpacker := .fileHeader }
        pure header : Call σ ArchiveHeader) middle) := by
  refine Outcome.bind (((effect_readRecord middle).next (horder.imp_right fun h => ⟨h, False.elim⟩)
    (fun _ _ hbehind => hbehind) fun _ h => (hkeeps.trans h).continues).mono ?_ fun _ _ h => h)
  rintro record ⟨stream, _⟩ ⟨hmode, rfl⟩
  have hbehind : handle.state.KeepsEntry (middle.state.behind record) :=
    hkeeps.trans (HandleState.keepsEntry_moved (hkeeps.use.trans hreading) _ _ middle.state.entry)
  refine Outcome.bind (outcome_ofResult (fun header _ => ?_) fun error herror => ?_)
  · refine Outcome.bind ((effect_leavePayload _).mono ?_ ?_)
    · rintro _ final ⟨hleft, -, -⟩
      have hfinal := hbehind.trans hleft
      refine Outcome.bind (outcome_require (fun _ => ?_) fun _ => ⟨hfinal.continues, nofun⟩)
      -- the entry is still unknown, and nothing is known of the next one yet
      refine HandleState.continues_of_reading hreading (hfinal.use.trans hreading) hfinal.pending?
        fun hknows => ?_
      show final.state.currentFile?.isSome = true ↔ _
      rw [hfinal.currentFile?, hknows, hunpacker]
      simp
    · exact fun _ _ hfinal => ⟨(hbehind.trans hfinal.1).continues, fun h => absurd h hfinal.2⟩
  · have hfault := not_isOutOfOrder_of_invalidData (ArchiveHeader.ofRecord_eq_error herror)
    exact ⟨hbehind.continues, fun h => absurd h hfault⟩

/-- **The archive header is read**, or the handle is left as it is used. -/
theorem effect_readArchiveHeader (handle : Archive σ) :
    HasEffect handle False (fun _ final => handle.state.Continues final.state)
      handle.state.Continues (readArchiveHeader handle) := by
  have hsame := (HandleState.KeepsEntry.refl handle.state).continues
  refine Outcome.bind ((outcome_expectReading _ handle).mono ?_ ?_)
  · rintro _ _ ⟨rfl, hreading⟩
    rw [bind_of_ok (state_apply _)]
    refine Outcome.bind (outcome_require (fun hunpacker => ?_) fun _ => ⟨hsame, fun _ => ⟨rfl, id⟩⟩)
    split
    next hmarker =>
      refine Outcome.bind ((effect_findMarker _).mono ?_ ?_)
      · exact fun _ middle hmiddle => effect_readVersion hreading hunpacker hmiddle.1 (.inl hmiddle.2)
      · exact fun _ _ hfinal => ⟨hfinal.1.continues, fun h => ⟨(hfinal.2 h).1, id⟩⟩
    next => exact effect_readVersion hreading hunpacker (.refl _) (.inr rfl)
  · rintro _ _ ⟨rfl, -⟩
    exact ⟨hsame, fun _ => ⟨rfl, id⟩⟩

/-- Behind the archive header the handle stands in front of an entry. Until then it waits for the
header, unless nothing has happened. -/
theorem unpacker_readArchiveHeader (handle : Archive σ) :
    Outcome (fun _ final => final.state.unpacker = .fileHeader)
      (fun _ final => final = handle ∨ final.state.unpacker = .validatingFormat)
      (readArchiveHeader handle) := by
  refine Outcome.bind ((outcome_expectReading _ handle).mono ?_ fun _ _ hsame => .inl hsame.1)
  rintro _ _ ⟨rfl, -⟩
  rw [bind_of_ok (state_apply _)]
  refine Outcome.bind (outcome_require (fun hunpacker => ?_) fun _ => .inl rfl)
  have hrecord {middle : Archive σ} (hmiddle : middle.state.unpacker = .validatingFormat) :
      Outcome (fun _ final => final.state.unpacker = .fileHeader)
        (fun _ final => final.state.unpacker = .validatingFormat) ((do
          let record ← readRecord
          let header ← ofResult (ArchiveHeader.ofRecord record)
          leavePayload
          require (header.version ≤ ArchiveHeader.supportedVersion)
            (.invalidFormat (.newerVersion header.version ArchiveHeader.supportedVersion))
          update fun state => { state with unpacker := .fileHeader }
          pure header : Call σ ArchiveHeader) middle) := by
    refine Outcome.bind ((effect_readRecord middle).mono ?_ fun _ _ hfinal =>
      hfinal.1.unpacker.trans hmiddle)
    rintro record ⟨stream, _⟩ ⟨-, rfl⟩
    refine Outcome.bind (outcome_ofResult (fun header _ => ?_) fun _ _ => hmiddle)
    refine Outcome.bind ((effect_leavePayload _).mono ?_ fun _ _ hfinal =>
      hfinal.1.unpacker.trans hmiddle)
    rintro _ final ⟨hleft, -, -⟩
    exact Outcome.bind (outcome_require (fun _ => rfl) fun _ => hleft.unpacker.trans hmiddle)
  split
  next =>
    refine Outcome.bind ((effect_findMarker _).mono ?_ fun _ _ hfinal =>
      .inr (hfinal.1.unpacker.trans hunpacker))
    exact fun _ _ hmiddle => (hrecord (hmiddle.1.unpacker.trans hunpacker)).mono
      (fun _ _ hfinal => hfinal) fun _ _ => .inr
  next => exact (hrecord hunpacker).mono (fun _ _ hfinal => hfinal) fun _ _ => .inr

/-- The metadata of the next entry is read. -/
theorem effect_readFileHeader (handle : Archive σ) :
    HasEffect handle (handle.state.mode = .reading .atRecordHeader)
      (fun info final => final.state.mode.use = handle.state.mode.use ∧
        final.state.pending? = handle.state.pending? ∧ final.state.IsInsideEntry ∧ final.state.currentFile? = some info)
      handle.state.KeepsEntry (readFileHeader handle) := by
  refine Outcome.bind ((effect_readRecord handle).mono ?_ fun _ _ hfinal => hfinal)
  rintro record ⟨stream, _⟩ ⟨hmode, rfl⟩
  have hreading : handle.state.mode.use = .reading := Mode.use_eq_reading.mpr ⟨_, hmode⟩
  refine Outcome.bind (outcome_ofResult (fun info _ => ?_) fun error herror => ?_)
  · exact ⟨hreading.symm, rfl, ⟨handle.state.mode_behind_or record, rfl⟩, rfl⟩
  · have hfault := not_isOutOfOrder_of_invalidData (EntryInfo.ofRecord_eq_error herror)
    exact ⟨HandleState.keepsEntry_moved hreading _ _ handle.state.entry, fun h => absurd h hfault⟩

/-- Inside an entry whose metadata is known. -/
theorem knows_of_isInside {state : HandleState} (h : state.IsInsideEntry)
    (hknown : state.currentFile?.isSome = true) : state.Knows := by
  refine HandleState.knows_of_reading (Mode.use_eq_reading.mpr h.exists_reading) ?_
  simp [hknown, h.unpacker]

omit [ByteSource σ] in
/-- To look the metadata up does not change the handle. -/
theorem outcome_knownFile (handle : Archive σ) :
    Outcome (fun _ final => final = handle) (fun _ final => final = handle) (knownFile handle) := by
  rw [knownFile, bind_of_ok (state_apply handle)]
  cases handle.state.currentFile? with
  | none => rfl
  | some info => rfl

/-- **A rule for metadata**: either nothing happens, or it is read from the header of the next
entry. -/
theorem outcome_currentFileInfo {handle : Archive σ} {ok : Archive σ → Prop}
    {failed : ArchiveError → Archive σ → Prop}
    (hknown : handle.state.unpacker ≠ .fileHeader → ok handle) (hsame : ∀ error, failed error handle)
    (hheader : handle.state.mode.use = .reading → handle.state.unpacker = .fileHeader →
      Outcome (fun _ final => ok final) failed (readFileHeader handle)) :
    Outcome (fun _ final => ok final) failed (currentFileInfo handle) := by
  have hfile (hother : handle.state.unpacker ≠ .fileHeader) :
      Outcome (fun _ final => ok final) failed (knownFile handle) :=
    (outcome_knownFile handle).mono (fun _ _ hfinal => hfinal ▸ hknown hother)
      fun _ _ hfinal => hfinal ▸ hsame _
  refine Outcome.bind ((outcome_expectReading _ handle).mono ?_ fun _ _ hfinal =>
    hfinal.1 ▸ hsame _)
  rintro _ handle ⟨rfl, hreading⟩
  rw [bind_of_ok (state_apply handle)]
  cases hunpacker : handle.state.unpacker with
  | validatingFormat => exact hsame _
  | fileHeader => exact hheader hreading hunpacker
  | fileData => exact hfile (by rw [hunpacker]; decide)
  | afterFileData => exact hfile (by rw [hunpacker]; decide)

/-- **The metadata are given**, and in front of an entry it is entered. -/
theorem effect_currentFileInfo (handle : Archive σ) :
    HasEffect handle False
      (fun _ final => handle.state.Continues final.state ∧
        (handle.state.unpacker = .fileHeader → final.state.IsInsideEntry))
      handle.state.KeepsEntry (currentFileInfo handle) := by
  refine outcome_currentFileInfo (fun hother => ?_) (fun _ => ⟨.refl _, fun _ => ⟨rfl, id⟩⟩) ?_
  · exact ⟨(HandleState.KeepsEntry.refl _).continues, fun h => absurd h hother⟩
  · intro _ _
    refine (effect_readFileHeader handle).next (.inr ⟨rfl, False.elim⟩) ?_ fun _ h => h
    rintro info final ⟨huse, hpending, hinside, hinfo⟩
    exact ⟨⟨huse, hpending, fun _ => knows_of_isInside hinside (by rw [hinfo]; rfl)⟩, fun _ => hinside⟩

/-! ## Fragments -/

/-- A fragment is entered between two records, and nowhere else. -/
theorem effect_readFragment (handle : Archive σ) :
    HasEffect handle (handle.state.mode = .reading .atRecordHeader)
      (fun _ final => handle.state.KeepsEntry final.state ∧ final.state.IsPlaced)
      handle.state.KeepsEntry (readFragment handle) := by
  refine Outcome.bind ((effect_readRecord handle).mono ?_ fun _ _ hfinal => hfinal)
  rintro record ⟨stream, _⟩ ⟨hmode, rfl⟩
  have hreading : handle.state.mode.use = .reading := Mode.use_eq_reading.mpr ⟨_, hmode⟩
  have hmoved (entry : EntryProgress) : handle.state.KeepsEntry
      { handle.state.behind record with entry } :=
    HandleState.keepsEntry_moved hreading _ _ entry
  have hrefused : ∀ fault, HasEffect handle (handle.state.mode = .reading .atRecordHeader)
      (fun (_ : Unit) _ => False) handle.state.KeepsEntry
      (.error (.invalidData fault) ⟨stream, handle.state.behind record⟩) :=
    fun _ => ⟨hmoved handle.state.entry, nofun⟩
  refine Outcome.bind (outcome_require (fun _ => ?_) fun _ => hrefused _)
  refine Outcome.bind (outcome_require (fun _ => ?_) fun _ => hrefused _)
  exact ⟨hmoved _, handle.state.mode_behind_or record⟩

/-- Behind a payload, the next record is read if the content goes on. -/
theorem effect_skipRound (handle : Archive σ) :
    HasEffect handle handle.state.IsPlaced
      (fun round final => handle.state.KeepsEntry final.state ∧
        (round = none → final.state.IsPlaced))
      handle.state.KeepsEntry (skipRound handle) := by
  refine Outcome.bind ((effect_leavePayload handle).mono ?_ ?_)
  · rintro _ middle ⟨hkeeps, -, horder⟩
    rw [bind_of_ok (state_apply middle)]
    split
    next =>
      have hnext : middle.state.mode = .reading .atRecordHeader ∨
          middle = handle ∧
            (handle.state.IsPlaced → middle.state.mode = .reading .atRecordHeader) := by
        rcases horder with ⟨rfl, hother⟩ | hheader
        · exact .inr ⟨rfl, fun hplaced => hplaced.resolve_left hother⟩
        · exact .inl hheader
      refine Outcome.bind ((effect_readFragment middle).next hnext ?_ fun _ h => hkeeps.trans h)
      exact fun _ final hfinal => ⟨hkeeps.trans hfinal.1, fun _ => hfinal.2⟩
    next => exact ⟨hkeeps, nofun⟩
  · exact fun _ _ hfinal => ⟨hfinal.1, fun h => absurd h hfinal.2⟩

/-- What is not skipped yet of an entry is placed between two records or in a payload. -/
theorem effect_beginSkip (handle : Archive σ) :
    HasEffect handle False
      (fun _ final => handle.state.KeepsEntry final.state ∧
        (final = handle ∨ final.state.IsPlaced))
      handle.state.KeepsEntry (beginSkip handle) := by
  have hstays : handle.state.KeepsEntry handle.state ∧ (handle = handle ∨ handle.state.IsPlaced) :=
    ⟨.refl _, .inl rfl⟩
  rw [beginSkip, bind_of_ok (state_apply handle)]
  cases handle.state.unpacker with
  | validatingFormat => exact ⟨.refl _, fun _ => ⟨rfl, id⟩⟩
  | fileHeader =>
    refine Outcome.bind (((effect_readRecord handle).next (.inr ⟨rfl, False.elim⟩)
      (fun _ _ hbehind => hbehind) fun _ h => h).mono ?_ fun _ _ hfinal => hfinal)
    rintro record ⟨stream, _⟩ ⟨hmode, rfl⟩
    have hreading : handle.state.mode.use = .reading := Mode.use_eq_reading.mpr ⟨_, hmode⟩
    refine Outcome.bind (outcome_require (fun _ => ?_) fun _ => ?_)
    · exact ⟨HandleState.keepsEntry_moved hreading _ _ _, .inr (handle.state.mode_behind_or record)⟩
    · exact ⟨HandleState.keepsEntry_moved hreading _ _ handle.state.entry, nofun⟩
  | fileData => exact hstays
  | afterFileData => exact hstays

/-- Behind an entry nothing is known of the next one. -/
theorem continues_finishEntry {first middle : HandleState} (hreading : first.mode.use = .reading)
    (hmiddle : middle.mode.use = .reading) (hpending : middle.pending? = first.pending?) :
    first.Continues { middle with entry := {}, currentFile? := none, unpacker := .fileHeader } :=
  HandleState.continues_of_reading hreading hmiddle hpending fun _ => by simp

/-- **An entry is skipped**, or the handle is left as it is used. -/
theorem effect_skipFile (handle : Archive σ) :
    HasEffect handle False (fun _ final => handle.state.Continues final.state)
      handle.state.Continues (skipFile handle) := by
  refine Outcome.bind ((outcome_expectReading _ handle).mono ?_ ?_)
  · rintro _ handle ⟨rfl, hreading⟩
    refine Outcome.bind ((effect_beginSkip handle).mono ?_ ?_)
    · rintro _ middle ⟨hkeeps, horder⟩
      -- Only the first round can find the handle out of order, and then nothing has happened yet.
      refine Outcome.bind (Outcome.repeatUntil (fun middle => handle.state.KeepsEntry middle.state ∧
        (middle = handle ∨ middle.state.IsPlaced)) ?_ ⟨hkeeps, horder⟩)
      rintro middle ⟨hkeeps, horder⟩
      refine (effect_skipRound middle).next (horder.symm.imp_right fun h => ⟨h, False.elim⟩) ?_
        fun _ h => (hkeeps.trans h).continues
      rintro round final ⟨hround, hplaced⟩
      have hfinal := hkeeps.trans hround
      cases round with
      | none => exact ⟨hfinal, .inr (hplaced rfl)⟩
      | some _ => exact continues_finishEntry hreading (hfinal.use.trans hreading) hfinal.pending?
    · exact fun _ _ hfinal => ⟨hfinal.1.continues, hfinal.2⟩
  · rintro _ _ ⟨rfl, -⟩
    exact ⟨(HandleState.KeepsEntry.refl _).continues, fun _ => ⟨rfl, id⟩⟩

/-- A handle that has skipped an entry stands in front of the next one. -/
theorem unpacker_skipFile {handle final : Archive σ} (h : skipFile handle = .ok () final) :
    final.state.unpacker = .fileHeader := by
  simp only [skipFile, bind_eq_ok] at h
  obtain ⟨_, _, -, _, _, -, _, _, -, hfinish⟩ := h
  cases hfinish
  rfl

/-! ## Content -/

/-- A piece of payload is taken. Where none comes, there is none any more. -/
theorem effect_takePayload {count : Nat} (hcount : 0 < count) (handle : Archive σ) :
    Outcome (fun bytes final => handle.state.KeepsEntry final.state ∧
        (bytes ≠ [] → final.state.IsPlaced) ∧
        (bytes = [] → final = handle ∧ handle.state.mode ≠ .reading .atAddedData ∨
          final.state.mode = .reading .atRecordHeader))
      (fun error final => handle.state.KeepsEntry final.state ∧ ¬ error.IsOutOfOrder)
      (takePayload count handle) := by
  rw [takePayload, bind_of_ok (state_apply handle)]
  by_cases hmode : handle.state.mode = .reading .atAddedData
  · rw [if_pos hmode]
    refine (effect_readAddedData count handle).mono ?_ ?_
    · rintro bytes final ⟨hkeeps, -, hplaced, hlast⟩
      exact ⟨hkeeps, fun _ => hplaced, fun hnil => .inr (hlast hcount hnil)⟩
    · exact fun _ _ hfinal => ⟨hfinal.1, fun herror => (hfinal.2 herror).2 hmode⟩
  · rw [if_neg hmode]
    exact ⟨.refl _, fun hne => absurd rfl hne, fun _ => .inl ⟨rfl, hmode⟩⟩

omit [ByteSource σ] in
/-- The check of an entry leaves the handle, and is never about the order of calls. -/
theorem outcome_verifyEntry (handle : Archive σ) :
    Outcome (fun _ final => final = handle)
      (fun error final => final = handle ∧ ¬ error.IsOutOfOrder) (verifyEntry handle) := by
  rw [verifyEntry, bind_of_ok (state_apply handle)]
  cases handle.state.currentFile? with
  | none => rfl
  | some info =>
    refine outcome_ofResult (fun _ _ => rfl) fun error herror => ⟨rfl, ?_⟩
    exact not_isOutOfOrder_of_invalidData (EntryInfo.verify_eq_error herror)

/-- A round gives content from inside the entry, asks for another round there, or comes to the end. -/
theorem effect_readRound {count : Nat} (hcount : 0 < count) (handle : Archive σ) :
    HasEffect handle handle.state.IsPlaced
      (fun round final => round.elim (handle.state.KeepsEntry final.state ∧ final.state.IsPlaced)
        fun bytes =>
          if bytes = [] then handle.state.KeepsEntry { final.state with
            unpacker := handle.state.unpacker } ∧ final.state.unpacker = .afterFileData
          else handle.state.KeepsEntry final.state ∧ final.state.IsPlaced)
      handle.state.KeepsEntry (readRound count handle) := by
  refine Outcome.bind ((effect_takePayload hcount handle).mono ?_ ?_)
  · rintro bytes middle ⟨hkeeps, hplaced, horder⟩
    rw [bind_of_ok (state_apply middle)]
    split
    next hne =>
      show if bytes = [] then _ else _
      rw [if_neg hne]
      exact ⟨⟨hkeeps.use, hkeeps.pending?, hkeeps.unpacker, hkeeps.packer, hkeeps.currentFile?⟩,
        hplaced hne⟩
    next hnil =>
      split
      next =>
        have hnext : middle.state.mode = .reading .atRecordHeader ∨ middle = handle ∧
            (handle.state.IsPlaced → middle.state.mode = .reading .atRecordHeader) := by
          rcases horder (Decidable.not_not.mp hnil) with ⟨rfl, hother⟩ | hheader
          · exact .inr ⟨rfl, fun hplaced => hplaced.resolve_left hother⟩
          · exact .inl hheader
        refine Outcome.bind ((effect_readFragment middle).next hnext ?_ fun _ h => hkeeps.trans h)
        exact fun _ final hfinal => ⟨hkeeps.trans hfinal.1, hfinal.2⟩
      next =>
        refine Outcome.bind ((outcome_verifyEntry middle).mono ?_ ?_)
        · rintro _ _ rfl
          exact ⟨⟨hkeeps.use, hkeeps.pending?, rfl, hkeeps.packer, hkeeps.currentFile?⟩, rfl⟩
        · rintro _ _ ⟨rfl, herror⟩
          exact ⟨hkeeps, fun h => absurd h herror⟩
  · exact fun _ _ hfinal => ⟨hfinal.1, fun h => absurd h hfinal.2⟩

/-- **A rule for reading content**: either nothing happens, or rounds are repeated inside the
entry. -/
theorem outcome_readFileData {count : Nat} {handle : Archive σ}
    {ok : List UInt8 → Archive σ → Prop} {failed : ArchiveError → Archive σ → Prop}
    (hsame : ¬ handle.state.IsInsideEntry → ∀ error, failed error handle)
    (hnothing : count = 0 → ok [] handle)
    (hbehind : handle.state.unpacker = .afterFileData → ok [] handle)
    (hrounds : handle.state.mode.use = .reading → handle.state.unpacker = .fileData → 0 < count →
      Outcome ok failed
        (repeatUntil (readRound count) readBudget (readRound_progress count) handle)) :
    Outcome ok failed (readFileData count handle) := by
  have houtside (hother : handle.state.unpacker ≠ .fileData) : ¬ handle.state.IsInsideEntry :=
    fun hinside => hother hinside.unpacker
  refine Outcome.bind ((outcome_expectReading _ handle).mono ?_ ?_)
  · rintro _ handle ⟨rfl, hreading⟩
    rw [bind_of_ok (state_apply handle)]
    cases hunpacker : handle.state.unpacker with
    | validatingFormat => exact hsame (houtside (by rw [hunpacker]; decide)) _
    | fileHeader => exact hsame (houtside (by rw [hunpacker]; decide)) _
    | afterFileData => exact hbehind hunpacker
    | fileData =>
      by_cases hzero : count = 0
      · rw [if_pos hzero]
        exact hnothing hzero
      · rw [if_neg hzero]
        exact hrounds hreading hunpacker (Nat.pos_of_ne_zero hzero)
  · rintro error _ ⟨rfl, hother⟩
    exact hsame (fun hinside => hother (Mode.use_eq_reading.mpr hinside.exists_reading)) error

/-- **Content is read** inside an entry, and the handle stays there as long as some comes. -/
theorem effect_readFileData (count : Nat) (handle : Archive σ) :
    HasEffect handle handle.state.IsInsideEntry
      (fun bytes final => handle.state.Continues final.state ∧
        (bytes ≠ [] → final.state.IsInsideEntry))
      handle.state.KeepsEntry (readFileData count handle) := by
  have hsame := (HandleState.KeepsEntry.refl handle.state).continues
  refine outcome_readFileData (fun hother _ => ⟨.refl _, fun _ => ⟨rfl, hother⟩⟩)
    (fun _ => ⟨hsame, fun hne => absurd rfl hne⟩) (fun _ => ⟨hsame, fun hne => absurd rfl hne⟩) ?_
  intro hreading hunpacker hcount
  refine Outcome.repeatUntil (fun middle => handle.state.KeepsEntry middle.state ∧
    (middle = handle ∨ middle.state.IsPlaced)) ?_ ⟨.refl _, .inl rfl⟩
  rintro middle ⟨hkeeps, horder⟩
  refine (effect_readRound hcount middle).next ?_ ?_ fun _ h => hkeeps.trans h
  · exact horder.symm.imp_right fun h => ⟨h, fun hinside => h ▸ hinside.mode⟩
  rintro round final hround
  cases round with
  | none => exact ⟨hkeeps.trans hround.1, .inr hround.2⟩
  | some bytes =>
    change if bytes = [] then _ else _ at hround
    by_cases hnil : bytes = []
    · rw [if_pos hnil] at hround
      obtain ⟨hlast, hafter⟩ := hround
      have hfinal := hkeeps.trans hlast
      refine ⟨HandleState.continues_of_reading hreading (hfinal.use.trans hreading) hfinal.pending? ?_,
        fun hne => absurd hnil hne⟩
      intro hknows
      have hfile : final.state.currentFile? = handle.state.currentFile? := hfinal.currentFile?
      rw [hfile, hknows, hunpacker, hafter]
      simp
    · rw [if_neg hnil] at hround
      have hfinal := hkeeps.trans hround.1
      exact ⟨hfinal.continues, fun _ => ⟨hround.2, hfinal.unpacker.trans hunpacker⟩⟩

/-! ## Extracting -/

/-- **A rule for extracting**: behind the metadata rounds are repeated until one finds nothing to
copy, and then the entry is left. -/
theorem outcome_extract [ByteSink τ] {copy : CopySink τ} {handle : Archive σ}
    {ok : CopySink τ × Archive σ → Prop} {failed : ArchiveError → CopySink τ × Archive σ → Prop}
    (kept : CopySink τ × Archive σ → Prop) (hstart : kept (copy, handle))
    (hsame : ∀ error, failed error (copy, handle))
    (hinfo : handle.state.unpacker = .fileHeader → Outcome (fun _ final => kept (copy, final))
      (fun error final => failed error (copy, final)) (currentFileInfo handle))
    (hround : handle.state.mode.use = .reading → ∀ count copied start, 0 < count →
      kept (copied, start) →
      Outcome (fun round final => round.elim (kept final) fun _ =>
          Outcome (fun _ left => ok (final.1, left)) (fun _ _ => True) (finishEntry final.2))
        failed (extractRound count (copied, start))) :
    Outcome (fun _ final => ok final) failed (extract (copy, handle)) := by
  refine Outcome.bind (outcome_lift (Outcome.bind ((outcome_expectReading _ handle).mono ?_
    fun _ _ hfinal => hfinal.1 ▸ hsame _)))
  rintro _ handle ⟨rfl, hreading⟩
  have hrounds {middle : Archive σ} (hmiddle : kept (copy, middle)) :
      Outcome (fun _ final => ok final) failed ((do
        let state ← Call.lift Call.state
        repeatUntil (extractRound state.options.copySize) copyBudget (extractRound_spends _)
        Call.lift finishEntry : CallWith (CopySink τ) σ Unit) (copy, middle)) := by
    have hstate : (Call.lift Call.state : CallWith (CopySink τ) σ HandleState) (copy, middle)
        = .ok middle.state (copy, middle) := rfl
    have hcount : 0 < middle.state.options.copySize := Nat.le_max_right _ _
    rw [bind_of_ok hstate]
    refine Outcome.bind (Outcome.repeatUntil kept ?_ hmiddle)
    rintro ⟨copied, start⟩ hkept
    refine (hround hreading _ copied start hcount hkept).mono ?_ fun _ _ hfinal => hfinal
    intro round final hfinal
    cases round with
    | none => exact hfinal
    | some _ => exact hfinal
  rw [bind_of_ok (state_apply handle)]
  cases hunpacker : handle.state.unpacker with
  | validatingFormat => exact hsame _
  | fileHeader =>
    exact outcome_of_dropped ((hinfo hunpacker).mono (fun _ _ => hrounds) fun _ _ hfinal => hfinal)
  | fileData => exact hrounds hstart
  | afterFileData => exact hrounds hstart

/-- **Extraction** leaves the handle as it is used, and where it is refused as it was. -/
theorem effect_extract [ByteSink τ] (copy : CopySink τ) (handle : Archive σ) :
    Outcome (fun _ final => handle.state.Continues final.2.state)
      (fun error final => handle.state.Continues final.2.state ∧
        (error.IsOutOfOrder → final.2 = handle))
      (extract (copy, handle)) := by
  have hsame := (HandleState.KeepsEntry.refl handle.state).continues
  -- Only the first round can find the handle out of order, and then nothing has happened yet.
  refine outcome_extract (fun start => handle.state.Continues start.2.state ∧
    (start.2 = handle ∨ start.2.state.IsInsideEntry)) ⟨hsame, .inl rfl⟩
    (fun _ => ⟨hsame, fun _ => rfl⟩) (fun hunpacker => ?_) fun hreading => ?_
  · refine (effect_currentFileInfo handle).mono ?_ ?_
    · exact fun _ _ hfinal => ⟨hfinal.1, .inr (hfinal.2 hunpacker)⟩
    · exact fun _ _ hfinal => ⟨hfinal.1.continues, fun h => (hfinal.2 h).1⟩
  · rintro count copied start - ⟨hcontinues, horder⟩
    refine Outcome.bind (outcome_lift (((effect_readFileData count start).next
      (horder.symm.imp_right fun h => ⟨h, False.elim⟩) (fun _ _ hfinal => hfinal)
      fun _ hfinal => hfinal).mono ?_ ?_))
    · rintro bytes rest ⟨hread, hinside⟩
      have hrest := hcontinues.trans hread
      split
      next => exact continues_finishEntry hreading (hrest.use.trans hreading) hrest.pending?
      next hne =>
        refine Outcome.bind (CallWith.outcome_onValue ?_)
        unfold deliver
        cases writeAll bytes copied.stream with
        | ok _ stream => exact ⟨hrest, .inr (hinside hne)⟩
        | error error stream => exact ⟨hrest, nofun⟩
    · exact fun _ _ hfinal => ⟨hcontinues.trans hfinal.1.continues, fun h => (hfinal.2 h).1⟩

end Archive

end RecordArchive
