import RecordArchive.Proofs.Archive.RecordReader
import RecordArchive.Proofs.Stream.Fallible

/-! # What the calls of a reader take when reads fail

A call of a reader takes bytes from the front of what the stream has still to give, whether it
succeeds or not. Each lemma says for one call what a success has taken, and in which state a
failure leaves the handle: as it was, with the stream as `failed` says, or somewhere inside a
record.

* `Archive.outcome_readRecord`: a record that is read stands at the front.
* `Archive.outcome_readAddedData`: so does a piece of payload. A failed call leaves the handle in
  the payload as if it had taken nothing, unless the payload has ended with a wrong checksum.
* `Archive.outcome_skipRecord`: the rest of a payload is skipped, or the handle stays in front of
  it. -/

namespace RecordArchive

open Program Call

variable {σ : Type}

namespace Archive

variable [ByteSource σ] {unread : σ → List UInt8} {failed : σ → Prop}

/-- **Where a failure to take a record stops**: in front of its first byte nothing has happened, and
behind that byte the handle is inside the record. -/
inductive StopsAt (unread : σ → List UInt8) (handle : Archive σ) (error : ArchiveError)
    (final : Archive σ) : Prop
  /-- The first byte could not be taken. -/
  | before (hfirst : readExactly .boundary 1 handle.stream = .error error final.stream)
    (hstate : final.state = handle.state) : StopsAt unread handle error final
  /-- The first byte was taken. -/
  | inside {taken : List UInt8} (hne : taken ≠ [])
    (hbytes : unread handle.stream = taken ++ unread final.stream)
    (hstate : final.state = handle.state.stranded) : StopsAt unread handle error final

omit [ByteSource σ] in
/-- What is left behind some bytes that were taken is left behind at least as many. -/
theorem exists_taken {handle final : Archive σ} {front rest : List UInt8} (hne : front ≠ [])
    (hfront : unread handle.stream = front ++ rest) (hrest : unread final.stream <:+ rest) :
    ∃ taken, taken ≠ [] ∧ unread handle.stream = taken ++ unread final.stream := by
  obtain ⟨more, rfl⟩ := hrest
  exact ⟨front ++ more, fun hnil => hne (List.append_eq_nil_iff.mp hnil).1,
    hfront.trans (List.append_assoc _ _ _).symm⟩

/-- Behind the first bytes a failure is one inside the record. -/
theorem StopsAt.behind {handle final : Archive σ} {error : ArchiveError} {front rest : List UInt8}
    (hne : front ≠ []) (hfront : unread handle.stream = front ++ rest)
    (hrest : unread final.stream <:+ rest) (hstate : final.state = handle.state.stranded) :
    StopsAt unread handle error final := by
  obtain ⟨taken, htaken, hbytes⟩ := exists_taken hne hfront hrest
  exact .inside htaken hbytes hstate

/-- **The header of a record** stands at the front. -/
theorem stops_readRecordHeader (hr : ReadsFrom unread failed) (stream : σ) (state : HandleState) :
    Outcome (fun header final => header.IsNormalHeader ∧ header.data = [] ∧
        unread stream = header.headerBytes ++ unread final.stream ∧ final.state = state.stranded)
      (StopsAt unread ⟨stream, state⟩) (readRecordHeader ⟨stream, state⟩) := by
  refine Outcome.bind (outcome_onStream (((hr.readExactly .boundary 1 stream).and
    (Outcome.self _)).mono ?_ ?_))
  · rintro first behind ⟨⟨hone, hfirst⟩, -⟩
    have hne : first ≠ [] := List.ne_nil_of_length_eq_add_one hone
    rw [bind_of_ok (setMode_apply _ behind state)]
    refine Outcome.bind (outcome_onStream ((hr.readExactly .inside _ behind).mono ?_ ?_))
    · rintro fixed middle ⟨hfive, hfixed⟩
      refine Outcome.bind (outcome_onStream ((hr.readExactly .inside _ middle).mono ?_ ?_))
      · rintro optional final ⟨hlength, hoptional⟩
        have hrest : unread behind = fixed ++ optional ++ unread final := by
          rw [hfixed, hoptional, List.append_assoc]
        refine outcome_ofResult (fun header hheader => ?_) fun _ _ => ?_
        · have hsix : (first ++ fixed).length = RecordFlags.fixedHeaderLength := by
            rw [List.length_append, hone, hfive]
            rfl
          obtain ⟨hnormal, hnil, hsame⟩ := eq_headerBytes_of_decodeHeader hsix hlength hheader
          refine ⟨hnormal, hnil, ?_, rfl⟩
          rw [hfirst, hrest, ← hsame]
          simp only [List.append_assoc]
        · exact .behind hne hfirst (suffix_of_eq_append hrest) rfl
      · rintro _ final ⟨-, hfinal⟩
        exact .behind hne hfirst (hfinal.trans (suffix_of_eq_append hfixed)) rfl
    · rintro _ final ⟨-, hfinal⟩
      exact .behind hne hfirst hfinal rfl
  · exact fun _ _ ⟨_, hrun⟩ => .before hrun rfl

/-- **The header of a record** stands at the front. Behind its first byte a failure is one inside
the record. -/
theorem outcome_readRecordHeader (hr : ReadsFrom unread failed) (stream : σ) (state : HandleState) :
    Outcome (fun header final => header.IsNormalHeader ∧ header.data = [] ∧
        unread stream = header.headerBytes ++ unread final.stream ∧ final.state = state.stranded)
      (fun _ final => unread final.stream <:+ unread stream ∧
        (final.state = state ∧ failed final.stream ∨ final.state = state.stranded))
      (readRecordHeader ⟨stream, state⟩) := by
  refine (stops_readRecordHeader hr stream state).mono (fun _ _ hfinal => hfinal) ?_
  rintro error final (⟨hfirst, hstate⟩ | ⟨-, hbytes, hstate⟩)
  · obtain ⟨hfailed, hfinal⟩ := (hr.readExactly .boundary 1 stream).of_error hfirst
    exact ⟨hfinal, .inl ⟨hstate, hfailed⟩⟩
  · exact ⟨suffix_of_eq_append hbytes, .inr hstate⟩

/-- **A record** stands at the front, and the handle is behind it. -/
theorem outcome_readRecord (hr : ReadsFrom unread failed) (handle : Archive σ) :
    Outcome (fun record final => handle.state.mode = .reading .atRecordHeader ∧ record.IsNormal ∧
        unread handle.stream = record.toBytes ++ unread final.stream ∧
        final.state = handle.state.behind record)
      (fun _ final => unread final.stream <:+ unread handle.stream ∧
        (final = handle ∨ final.state = handle.state ∧ failed final.stream ∨
          final.state = handle.state.stranded))
      (readRecord handle) := by
  obtain ⟨stream, state⟩ := handle
  rw [readRecord, expectReader]
  refine Outcome.bind (Outcome.bind (outcome_require (fun hmode => ?_) fun hmode => ?_))
  · refine Outcome.bind ((outcome_readRecordHeader hr stream state).mono ?_ ?_)
    · rintro header ⟨middle, _⟩ ⟨hnormal, hnil, hheader, rfl⟩
      refine Outcome.bind (outcome_onStream ((hr.readExactly .inside _ middle).mono ?_ ?_))
      · rintro data final ⟨hlength, hdata⟩
        refine ⟨hmode, hnormal.isNormal hlength, ?_, rfl⟩
        rw [hheader, hdata]
        exact (List.append_assoc _ _ _).symm
      · rintro _ final ⟨-, hfinal⟩
        exact ⟨hfinal.trans (suffix_of_eq_append hheader), .inr (.inr rfl)⟩
    · exact fun _ final hfinal => ⟨hfinal.1, .inr hfinal.2⟩
  · exact ⟨List.suffix_rfl, .inl rfl⟩

omit [ByteSource σ] in
/-- A payload is left whether its checksum is right or wrong. -/
theorem outcome_endAddedData (stream : σ) (state : HandleState) :
    Outcome (fun _ final => final = ⟨stream, { state with mode := .reading .atRecordHeader }⟩)
      (fun _ final => final = ⟨stream, { state with mode := .reading .atRecordHeader }⟩)
      (endAddedData ⟨stream, state⟩) := by
  rw [endAddedData, bind_of_ok (setMode_apply _ stream state), bind_of_ok (state_apply _)]
  cases state.incoming.declaredCrc? with
  | none => rfl
  | some stored => exact outcome_require (fun _ => rfl) fun _ => rfl

/-- **A piece of payload** stands at the front. A failure leaves the handle as if nothing had been
taken, or behind a payload that has the wrong checksum. -/
theorem outcome_readAddedData (hr : ReadsFrom unread failed) (count : Nat) (handle : Archive σ) :
    Outcome (fun bytes final => handle.state.mode = .reading .atAddedData ∧
        bytes.length = transferLength count handle.state.incoming ∧
        unread handle.stream = bytes ++ unread final.stream ∧
        final.state = handle.state.taken bytes)
      (fun _ final => unread final.stream <:+ unread handle.stream ∧
        (final = handle ∨ final.state = handle.state ∧ failed final.stream ∨
          handle.state.mode = .reading .atAddedData ∧ ∃ bytes : List UInt8,
            bytes.length = transferLength count handle.state.incoming ∧
            unread handle.stream = bytes ++ unread final.stream ∧
            final.state = handle.state.taken bytes ∧
            final.state.mode = .reading .atRecordHeader))
      (readAddedData count handle) := by
  obtain ⟨stream, state⟩ := handle
  rw [readAddedData, expectReader]
  refine Outcome.bind (Outcome.bind (outcome_require (fun hmode => ?_) fun hmode => ?_))
  · rw [bind_of_ok (state_apply _)]
    show Outcome _ _ ((if state.incoming.remaining = 0 then _ else _ :
      Call σ (List UInt8)) ⟨stream, state⟩)
    by_cases hzero : state.incoming.remaining = 0
    · -- The payload is only left.
      have hstate : state.taken [] = { state with mode := .reading .atRecordHeader } := by
        rw [HandleState.taken, IncomingPayload.consume_nil, if_pos hzero]
      have hnothing : ([] : List UInt8).length = transferLength count state.incoming :=
        (transferLength_eq_zero.mpr (.inr hzero)).symm
      rw [if_pos hzero]
      refine Outcome.bind ((outcome_endAddedData stream state).mono ?_ ?_)
      · rintro _ _ rfl
        exact ⟨hmode, hnothing, rfl, hstate.symm⟩
      · rintro _ _ rfl
        exact ⟨List.suffix_rfl, .inr (.inr ⟨hmode, [], hnothing, rfl, hstate.symm, rfl⟩)⟩
    · rw [if_neg hzero]
      refine Outcome.bind (outcome_onStream ((hr.readExactly .inside _ stream).mono ?_ ?_))
      · rintro bytes final ⟨hlength, hbytes⟩
        rw [bind_of_ok (update_apply _ final state)]
        by_cases hlast : (state.incoming.consume bytes).remaining = 0
        · -- The payload has ended with this piece.
          have hstate : state.taken bytes = { state with
              incoming := state.incoming.consume bytes, mode := .reading .atRecordHeader } := by
            rw [HandleState.taken, if_pos hlast]
          rw [if_pos hlast]
          refine Outcome.bind ((outcome_endAddedData final _).mono ?_ ?_)
          · rintro _ _ rfl
            exact ⟨hmode, hlength, hbytes, hstate.symm⟩
          · rintro _ _ rfl
            exact ⟨suffix_of_eq_append hbytes,
              .inr (.inr ⟨hmode, bytes, hlength, hbytes, hstate.symm, rfl⟩)⟩
        · rw [if_neg hlast]
          refine ⟨hmode, hlength, hbytes, ?_⟩
          rw [HandleState.taken, if_neg hlast, ← hmode]
      · rintro _ final ⟨hfailed, hfinal⟩
        exact ⟨hfinal, .inr (.inl ⟨rfl, hfailed⟩)⟩
  · exact ⟨List.suffix_rfl, .inl rfl⟩

/-- The payload to skip is that of the record behind the header that is taken, or the rest of the
current one. -/
theorem outcome_payloadToSkip (hr : ReadsFrom unread failed) (handle : Archive σ) :
    Outcome (fun length final => unread final.stream <:+ unread handle.stream ∧
        (handle.state.mode = .reading .atRecordHeader ∧ final.state = handle.state.stranded ∨
          handle.state.mode = .reading .atAddedData ∧ length = handle.state.incoming.remaining ∧
            final = handle))
      (fun _ final => unread final.stream <:+ unread handle.stream ∧
        (final = handle ∨ final.state = handle.state ∧ failed final.stream ∨
          final.state = handle.state.stranded))
      (payloadToSkip handle) := by
  by_cases hpayload : handle.state.mode = .reading .atAddedData
  · rw [payloadToSkip_of_atAddedData hpayload]
    exact ⟨List.suffix_rfl, .inr ⟨hpayload, rfl, rfl⟩⟩
  · by_cases hmode : handle.state.mode = .reading .atRecordHeader
    · rw [payloadToSkip_of_atRecordHeader hmode]
      refine Outcome.bind ((outcome_readRecordHeader hr handle.stream handle.state).mono ?_ ?_)
      · rintro header ⟨middle, state⟩ ⟨-, -, hheader, hstate⟩
        have hmiddle := suffix_of_eq_append hheader
        refine Outcome.bind (outcome_onStream ((hr.discard _ middle).mono ?_ ?_))
        · rintro _ final ⟨data, -, hdata⟩
          exact ⟨(suffix_of_eq_append hdata).trans hmiddle, .inl ⟨hmode, hstate⟩⟩
        · rintro _ final ⟨-, hfinal⟩
          exact ⟨hfinal.trans hmiddle, .inr (.inr hstate)⟩
      · exact fun _ final hfinal => ⟨hfinal.1, .inr hfinal.2⟩
    · rw [payloadToSkip_of_other hmode hpayload]
      exact ⟨List.suffix_rfl, .inl rfl⟩

/-- **The rest of a payload** is skipped, or the handle stays in front of it. A record that is
skipped whole may leave the handle inside it. -/
theorem outcome_skipRecord (hr : ReadsFrom unread failed) (handle : Archive σ) :
    Outcome (fun _ final => unread final.stream <:+ unread handle.stream ∧
        final.state = handle.state.skipped ∧ (handle.state.mode = .reading .atAddedData →
          ∃ payload : List UInt8, payload.length = handle.state.incoming.remaining ∧
            unread handle.stream = payload ++ unread final.stream))
      (fun _ final => unread final.stream <:+ unread handle.stream ∧
        (final = handle ∨ final.state = handle.state ∧ failed final.stream ∨
          final.state = handle.state.stranded))
      (skipRecord handle) := by
  refine Outcome.bind ((outcome_payloadToSkip hr handle).mono ?_ ?_)
  · rintro length ⟨middle, state⟩ ⟨hmiddle, ⟨hmode, hstate⟩ | ⟨hmode, hlength, hsame⟩⟩
    · have hother : handle.state.mode ≠ .reading .atAddedData := by
        rw [hmode]
        decide
      obtain rfl : state = handle.state.stranded := hstate
      refine Outcome.bind (outcome_onStream ((hr.discard length middle).mono ?_ ?_))
      · rintro _ final ⟨payload, -, hpayload⟩
        exact ⟨(suffix_of_eq_append hpayload).trans hmiddle, rfl, fun h => absurd h hother⟩
      · rintro _ final ⟨-, hfinal⟩
        exact ⟨hfinal.trans hmiddle, .inr (.inr rfl)⟩
    · -- Inside a payload only the discard itself can fail.
      subst hsame
      refine Outcome.bind (outcome_onStream ((hr.discard length middle).mono ?_ ?_))
      · rintro _ final ⟨payload, hpayload, hbytes⟩
        exact ⟨suffix_of_eq_append hbytes, rfl, fun _ => ⟨payload, hpayload.trans hlength, hbytes⟩⟩
      · rintro _ final ⟨hfailed, hfinal⟩
        exact ⟨hfinal, .inr (.inl ⟨rfl, hfailed⟩)⟩
  · exact fun _ final hfinal => hfinal

/-- The marker and what is in front of it are taken, whether the search ends or fails. -/
theorem outcome_findMarker (hr : ReadsFrom unread failed) (handle : Archive σ) :
    Outcome (fun _ final => unread final.stream <:+ unread handle.stream ∧
        final.state = { handle.state with mode := .reading .atRecordHeader })
      (fun _ final => unread final.stream <:+ unread handle.stream ∧ final.state = handle.state)
      (findMarker handle) := by
  obtain ⟨stream, state⟩ := handle
  rw [findMarker, expectReader]
  refine Outcome.bind (Outcome.bind (outcome_require (fun hmode => ?_) fun hmode => ?_))
  · refine Outcome.bind (outcome_onStream ((hr.find stream).mono ?_ ?_))
    · rintro _ final ⟨bytes, -, hbytes⟩
      exact ⟨suffix_of_eq_append hbytes, rfl⟩
    · rintro _ final ⟨-, hfinal⟩
      exact ⟨hfinal, rfl⟩
  · exact ⟨List.suffix_rfl, rfl⟩

end Archive

end RecordArchive
