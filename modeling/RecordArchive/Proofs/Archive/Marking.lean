import RecordArchive.Proofs.Archive.Pace
import RecordArchive.Proofs.Archive.Phases
import RecordArchive.Proofs.Stream.Log

/-! # Whether the marker has been written

A handle that is turned to writing stands in front of the marker until all of the marker has been
written, which may take more than one attempt. What has been written is read off a log beside the stream.

* `HandleCall.replyAlike_inner`: the log changes nothing.
* `MarkerStep` and `HandleCall.markerStep`: what **one call** writes of the marker.
* `MarkedRun before handle`: a handle in use, with what had been logged when it was last turned to writing.
* `MarkedRun.startWriting_eq_ok`: where turning the handle to writing succeeds, the marker has been written
  since, unless the handle stood in front of the marker already; there it does nothing.
* `Archive.startWriting_unmarked`: so a second attempt to turn a handle succeeds without a marker. -/

namespace RecordArchive

open Program Call Archive

variable {σ ι τ : Type}

/-! ## What one call writes -/

/-- A front part of the marker that is not all of it. -/
def IsTornMarker (piece : List UInt8) : Prop := piece <+: Marker.bytes ∧ piece.length < Marker.length

/-- What attempts to write the marker have left, one after another. -/
def IsTorn (bytes : List UInt8) : Prop :=
  ∃ pieces : List (List UInt8), pieces.flatten = bytes ∧ ∀ piece ∈ pieces, IsTornMarker piece

/-- Nothing at all is a torn marker. -/
theorem isTornMarker_nil : IsTornMarker [] := ⟨List.nil_prefix, by decide⟩

/-- No attempt has left anything. -/
theorem isTorn_nil : IsTorn [] := ⟨[], rfl, nofun⟩

/-- One more attempt leaves one more piece. -/
theorem IsTorn.add {bytes piece : List UInt8} (h : IsTorn bytes) (hpiece : IsTornMarker piece) :
    IsTorn (bytes ++ piece) := by
  obtain ⟨pieces, rfl, hpieces⟩ := h
  refine ⟨pieces ++ [piece], by simp, fun other hother => ?_⟩
  rcases List.mem_append.mp hother with hmem | hmem
  · exact hpieces other hmem
  · exact List.mem_singleton.mp hmem ▸ hpiece

/-- The handle as it would be with an empty log. -/
theorem related_behind (handle : Archive (Logged σ)) :
    Related (Logged.Behind handle.stream.log) handle ⟨⟨handle.stream.inner, []⟩, handle.state⟩ :=
  ⟨⟨rfl, (List.append_nil _).symm⟩, rfl⟩

/-- **What one call writes of the marker**: the call leaves a handle that is not written to, or it adds
a piece of the marker or all of it where the marker is missing, or it goes on behind the marker. -/
inductive MarkerStep (handle final : Archive (Logged σ)) : Prop
  /-- The handle is not written to any more, or not yet. -/
  | left (h : ¬ final.state.IsWriting)
  /-- The marker was missing and still is. -/
  | attempted {piece : List UInt8} (hmode : ¬ IsReady handle)
    (hfinal : final.state.mode = .writing .atMarker) (hpacker : final.state.packer = .idle)
    (hpiece : IsTornMarker piece) (hlog : final.stream.log = handle.stream.log ++ piece)
  /-- The marker was missing and has been written. -/
  | written (hmode : ¬ IsReady handle) (hfinal : IsReady final)
    (hlog : handle.stream.log ++ Marker.bytes <+: final.stream.log)
  /-- The marker has been written before. -/
  | behind (hmode : IsReady handle) (hfinal : IsReady final)
    (hlog : handle.stream.log <+: final.stream.log)

/-- The outcome of a call that writes so much of the marker. -/
def StepsMarker (handle : Archive (Logged σ))
    (result : EStateM.Result ArchiveError (Archive (Logged σ)) Unit) : Prop :=
  Outcome (fun _ final => MarkerStep handle final) (fun _ final => MarkerStep handle final) result

/-- A call in front of the marker that keeps the state of the handle and logs nothing. -/
theorem MarkerStep.of_same {handle final : Archive (Logged σ)}
    (hmode : handle.state.mode = .writing .atMarker) (hpacker : handle.state.packer = .idle)
    (hstate : final.state = handle.state) (hlog : final.stream.log = handle.stream.log) :
    MarkerStep handle final :=
  .attempted (not_isReady_of_atMarker hmode) (by rw [hstate, hmode]) (by rw [hstate, hpacker])
    isTornMarker_nil (hlog.trans (List.append_nil _).symm)

section Calls

variable [ByteSource ι] [ByteSink τ] [ByteSource σ] [ByteSink σ] [Seekable σ]

/-- **The log changes nothing**: a call on a stream with a log gives the same reply as on the stream
itself, and leaves a handle in the same state on the same stream. -/
theorem HandleCall.replyAlike_inner (call : HandleCall ι τ) (handle : Archive (Logged σ)) :
    StepAlike Eq Logged.Wraps (call.reply handle)
      (call.reply (⟨handle.stream.inner, handle.state⟩ : Archive σ)) :=
  HandleCall.replyAlike Logged.readsAlike_inner Logged.writesAlike_inner call ⟨rfl, rfl⟩

/-- A call only adds to the log. -/
theorem HandleCall.prefix_log_after (call : HandleCall ι τ) (handle : Archive (Logged σ)) :
    handle.stream.log <+: (call.after handle).stream.log := by
  have hstep := (HandleCall.replyAlike (Logged.readsAlike_behind handle.stream.log)
    (Logged.writesAlike_behind handle.stream.log) call (related_behind handle)).handle
  rw [snd_reply] at hstep
  exact ⟨_, hstep.stream.log.symm⟩

omit [ByteSource σ] in
/-- Writing a record only adds to the log. -/
theorem prefix_log_writeRecord (record : Record) (handle : Archive (Logged σ)) :
    Outcome (fun _ final => handle.stream.log <+: final.stream.log)
      (fun _ final => handle.stream.log <+: final.stream.log)
      (CallWith.withValue record writeRecord handle) := by
  have hrun := CallWith.simulates_withValue record
    (simulates_writeRecord (Logged.writesAlike_behind handle.stream.log)) _ _ (related_behind handle)
  revert hrun
  generalize CallWith.withValue record writeRecord handle = result
  generalize CallWith.withValue record writeRecord
    (⟨⟨handle.stream.inner, []⟩, handle.state⟩ : Archive (Logged σ)) = result'
  rintro (⟨hfinal⟩ | ⟨hfinal⟩)
  · exact ⟨_, hfinal.stream.log.symm⟩
  · exact ⟨_, hfinal.stream.log.symm⟩

omit [ByteSource σ] [Seekable σ] in
/-- An attempt to write the marker leaves all of it or a piece. -/
theorem outcome_writeMarker {handle : Archive (Logged σ)}
    (hmode : handle.state.mode = .writing .atMarker) :
    Outcome (fun _ final => final.state = handle.state.writingAt .atRecord ∧
        final.stream.log = handle.stream.log ++ Marker.bytes)
      (fun _ final => final.state = handle.state ∧ ∃ piece, IsTornMarker piece ∧
        final.stream.log = handle.stream.log ++ piece) (writeMarker handle) := by
  obtain ⟨stream, state⟩ := handle
  rw [writeMarker, bind_of_ok (state_apply _), bind_of_ok (require_of hmode _ _)]
  refine Outcome.bind (outcome_onStream (Outcome.adaptExcept
    ((Logged.outcome_writeAll Marker.bytes stream).mono ?_ ?_)))
  · have hplace : state.mode = .writing .atMarker := hmode
    have hother : state.mode ≠ .writing .atAddedData := by simp [hplace]
    exact fun _ final hlog => ⟨(HandleState.writingAt_atRecord_of_mode_ne hother).symm, hlog⟩
  · rintro _ final ⟨piece, hpiece, hlength, hlog⟩
    exact ⟨rfl, piece, ⟨hpiece, hlength⟩, hlog⟩

omit [ByteSource σ] [Seekable σ] in
/-- Handing over what was written logs nothing. -/
theorem outcome_flushStream (handle : Archive (Logged σ)) :
    Outcome (fun _ final => final.state = handle.state ∧ final.stream.log = handle.stream.log)
      (fun _ final => final.state = handle.state ∧ final.stream.log = handle.stream.log)
      (flushStream handle) := by
  refine outcome_onStream (Outcome.adaptExcept ((Logged.outcome_lift (fun _ => []) ByteSink.flush
    handle.stream).mono ?_ fun _ _ hlog => ⟨rfl, hlog⟩))
  exact fun _ _ hlog => ⟨rfl, hlog.trans (List.append_nil _)⟩

/-- In front of the marker. -/
theorem HandleCall.markerStep_of_atMarker {handle : Archive (Logged σ)}
    (hmode : handle.state.mode = .writing .atMarker) (hpacker : handle.state.packer = .idle)
    (call : HandleCall ι τ) : MarkerStep handle (call.after handle) := by
  have hready := not_isReady_of_atMarker hmode
  by_cases hmarker : call = .writeMarker
  · subst hmarker
    refine HandleCall.of_outcome (MarkerStep handle) ((outcome_writeMarker hmode).mono ?_ ?_)
    · rintro _ final ⟨hstate, hlog⟩
      exact .written hready (isReady_of_atRecord (by rw [hstate]; rfl)) (hlog ▸ List.prefix_rfl)
    · rintro _ final ⟨hstate, piece, hpiece, hlog⟩
      exact .attempted hready (by rw [hstate, hmode]) (by rw [hstate, hpacker]) hpiece hlog
  by_cases hturn : call = .startReading
  · subst hturn
    refine HandleCall.of_outcome (MarkerStep handle) ?_
    show Outcome _ _ (Archive.startReading handle)
    have hfinish : finishWriting handle = flushStream handle := by
      rw [finishWriting, bind_of_ok (state_apply handle), hmode]
    rw [Archive.startReading, bind_of_ok (state_apply handle), hmode]
    refine Outcome.bind ?_
    rw [hfinish]
    refine (outcome_flushStream handle).mono (fun _ final _ => .left ?_) ?_
    · rintro ⟨place, hplace⟩
      cases hplace
    · exact fun _ final hfinal => .of_same hmode hpacker hfinal.1 hfinal.2
  by_cases hflush : call = .writer .flush
  · subst hflush
    refine HandleCall.of_outcome (MarkerStep handle) ((outcome_flushStream handle).mono ?_ ?_)
    all_goals exact fun _ final hfinal => .of_same hmode hpacker hfinal.1 hfinal.2
  rw [after_of_atMarker hmode hpacker hmarker hturn hflush]
  exact .of_same hmode hpacker rfl rfl

omit [ByteSource σ] [Seekable σ] in
/-- Turning a handle writes the marker or a piece of it. -/
theorem outcome_startWriting {handle : Archive (Logged σ)} (hmode : ¬ handle.state.IsWriting) :
    Outcome (fun _ final => final.state = turned handle.state .atRecord ∧
        final.stream.log = handle.stream.log ++ Marker.bytes)
      (fun _ final => final.state = turned handle.state .atMarker ∧ ∃ piece, IsTornMarker piece ∧
        final.stream.log = handle.stream.log ++ piece) (startWriting handle) := by
  obtain ⟨stream, state⟩ := handle
  have hturned : Outcome (fun _ final => final.state = turned state .atRecord ∧
        final.stream.log = stream.log ++ Marker.bytes)
      (fun _ final => final.state = turned state .atMarker ∧ ∃ piece, IsTornMarker piece ∧
        final.stream.log = stream.log ++ piece) (writeMarker ⟨stream, turned state .atMarker⟩) :=
    outcome_writeMarker rfl
  rw [startWriting, bind_of_ok (state_apply _)]
  rcases hplace : state.mode with _ | _ | place
  case writing => exact absurd ⟨place, hplace⟩ hmode
  all_goals exact hturned

omit [ByteSource σ] in
/-- Packing that begins on a handle that is not written to writes the marker or a piece of it first. -/
theorem stepsMarker_initArchive {handle : Archive (Logged σ)} (hmode : ¬ handle.state.IsWriting) :
    StepsMarker handle (initArchive handle) := by
  have hready := not_isReady_of_not_isWriting hmode
  refine Outcome.bind ((effect_expectFresh _ handle).mono ?_ ?_)
  · rintro _ handle ⟨rfl, -⟩
    refine Outcome.bind ((outcome_startWriting hmode).mono ?_ ?_)
    · -- Whatever comes of the archive header, it is written behind the marker.
      rintro _ middle ⟨hstate, hlog⟩
      have hmiddle : IsReady middle := isReady_of_atRecord (by rw [hstate]; rfl)
      have hwritten (final : Archive (Logged σ)) (hfinal : IsReady final)
          (hgrown : middle.stream.log <+: final.stream.log) : MarkerStep handle final :=
        .written hready hfinal (hlog ▸ hgrown)
      refine Outcome.bind (outcome_ofResult (fun record _ => ?_) fun _ _ =>
        hwritten middle hmiddle List.prefix_rfl)
      refine Outcome.bind (((WriterCall.isReady_of_isReady hmiddle (.start record)).and
        (prefix_log_writeRecord record middle)).mono ?_ fun _ final hfinal =>
          hwritten final hfinal.1 hfinal.2)
      rintro _ ⟨stream, state⟩ ⟨hfinal, hgrown⟩
      exact hwritten ⟨stream, { state with packer := .fileHeader }⟩ (hfinal.congr rfl rfl) hgrown
    · rintro _ final ⟨hstate, piece, hpiece, hlog⟩
      exact .attempted hready (by rw [hstate]; rfl) (by rw [hstate]; rfl) hpiece hlog
  · rintro _ _ rfl
    exact .left hmode

/-- **One call**, on a handle whose packing has not begun where the marker is missing. -/
theorem HandleCall.markerStep {handle : Archive (Logged σ)} (hkeeps : handle.state.KeepsPending)
    (hidle : handle.state.mode = .writing .atMarker → handle.state.packer = .idle)
    (call : HandleCall ι τ) : MarkerStep handle (call.after handle) := by
  by_cases hmode : handle.state.IsWriting
  · rcases atMarker_or_isReady hkeeps hmode with hmarker | hready
    · exact markerStep_of_atMarker hmarker (hidle hmarker) call
    · rcases isReady_after hready call with hfinal | ⟨-, hfinal⟩
      · exact .behind hready hfinal (prefix_log_after call handle)
      · exact .left fun h => h.not_isReading hfinal
  · by_cases hturns : call.turnsToWriting = false
    · exact .left (not_isWriting_after hmode hturns)
    have hready := not_isReady_of_not_isWriting hmode
    refine HandleCall.of_outcome (MarkerStep handle) ?_
    rcases call with _ | _ | _ | _ | _ | _ | (_ | _ | _ | _ | _)
    case startWriting =>
      refine (outcome_startWriting hmode).mono ?_ ?_
      · rintro _ final ⟨hstate, hlog⟩
        exact .written hready (isReady_of_atRecord (by rw [hstate]; rfl)) (hlog ▸ List.prefix_rfl)
      · rintro _ final ⟨hstate, piece, hpiece, hlog⟩
        exact .attempted hready (by rw [hstate]; rfl) (by rw [hstate]; rfl) hpiece hlog
    case packer.initArchive => exact stepsMarker_initArchive hmode
    all_goals exact absurd rfl hturns

end Calls

/-! ## Runs -/

/-- What had been logged when the handle was last turned to writing, if a call turns it now at the
latest. -/
def Archive.enteredWith (before : List UInt8) (handle : Archive (Logged σ)) : List UInt8 :=
  match handle.state.mode with
  | .writing _ => before
  | _ => handle.stream.log

/-- A handle that is written to has been turned before. -/
theorem Archive.enteredWith_of_isWriting {before : List UInt8} {handle : Archive (Logged σ)}
    (h : handle.state.IsWriting) : handle.enteredWith before = before := by
  obtain ⟨place, hmode⟩ := h
  rw [enteredWith, hmode]

/-- A handle that is not written to would be turned with what is logged now. -/
theorem Archive.enteredWith_of_not_isWriting {before : List UInt8} {handle : Archive (Logged σ)}
    (h : ¬ handle.state.IsWriting) : handle.enteredWith before = handle.stream.log := by
  unfold enteredWith
  split
  next hmode => exact absurd ⟨_, hmode⟩ h
  next => rfl

/-- **A handle in use**, with what had been logged when it was last turned to writing: it has been made
on a stream, and calls of all layers were made on it that succeeded or failed, whatever the stream did,
and whatever the caller did to the stream between them. -/
inductive MarkedRun [ByteSource σ] [ByteSink σ] [Seekable σ] :
    List UInt8 → Archive (Logged σ) → Prop
  /-- A handle that is used for nothing yet. -/
  | ofStream (stream : Logged σ) (options : ArchiveOptions) :
    MarkedRun stream.log (.ofStream stream options)
  /-- A handle that reads. -/
  | reader (stream : Logged σ) : MarkedRun stream.log (.reader stream)
  /-- The caller has changed the stream. -/
  | replaced {before : List UInt8} {handle : Archive (Logged σ)} (h : MarkedRun before handle)
    (inner : σ) : MarkedRun before { handle with stream := { handle.stream with inner } }
  /-- A call has been made. -/
  | called {ι τ : Type} [ByteSource ι] [ByteSink τ] {before : List UInt8}
    {handle : Archive (Logged σ)} (h : MarkedRun before handle) (call : HandleCall ι τ) :
    MarkedRun (handle.enteredWith before) (call.after handle)

/-- **What has been written since** a handle was turned to writing: in front of the marker pieces of it,
and behind the marker the pieces, all of it, and what followed. -/
structure IsMarked (before : List UInt8) (handle : Archive (Logged σ)) : Prop where
  atMarker : handle.state.mode = .writing .atMarker → handle.state.packer = .idle ∧
    ∃ torn, IsTorn torn ∧ handle.stream.log = before ++ torn
  behind : IsReady handle →
    ∃ torn, IsTorn torn ∧ before ++ torn ++ Marker.bytes <+: handle.stream.log

/-- Where the marker is missing, pieces of it have been written since the handle was turned. -/
theorem IsMarked.exists_torn {before : List UInt8} {handle : Archive (Logged σ)}
    (h : IsMarked before handle) (hkeeps : handle.state.KeepsPending) (hready : ¬ IsReady handle) :
    ∃ torn, IsTorn torn ∧ handle.stream.log = handle.enteredWith before ++ torn := by
  by_cases hmode : handle.state.IsWriting
  · rw [enteredWith_of_isWriting hmode]
    exact (h.atMarker ((atMarker_or_isReady hkeeps hmode).resolve_right hready)).2
  · rw [enteredWith_of_not_isWriting hmode]
    exact ⟨[], isTorn_nil, (List.append_nil _).symm⟩

/-- **One step keeps the account** of the marker. -/
theorem MarkerStep.isMarked {before : List UInt8} {handle final : Archive (Logged σ)}
    (hstep : MarkerStep handle final) (hkeeps : handle.state.KeepsPending)
    (h : IsMarked before handle) : IsMarked (handle.enteredWith before) final := by
  cases hstep with
  | left hmode =>
    exact ⟨fun hfinal => absurd ⟨_, hfinal⟩ hmode, fun hfinal => absurd hfinal.isWriting hmode⟩
  | @attempted piece hready hfinal hpacker hpiece hlog =>
    obtain ⟨torn, htorn, hheld⟩ := h.exists_torn hkeeps hready
    refine ⟨fun _ => ⟨hpacker, torn ++ piece, htorn.add hpiece, ?_⟩,
      fun hfinal' => absurd hfinal hfinal'.mode_ne_atMarker⟩
    rw [hlog, hheld, List.append_assoc]
  | written hready hfinal hlog =>
    obtain ⟨torn, htorn, hheld⟩ := h.exists_torn hkeeps hready
    exact ⟨fun hmode => absurd hmode hfinal.mode_ne_atMarker, fun _ => ⟨torn, htorn, hheld ▸ hlog⟩⟩
  | behind hready hfinal hlog =>
    obtain ⟨torn, htorn, hheld⟩ := h.behind hready
    rw [enteredWith_of_isWriting hready.isWriting]
    exact ⟨fun hmode => absurd hmode hfinal.mode_ne_atMarker,
      fun _ => ⟨torn, htorn, hheld.trans hlog⟩⟩

section Runs

variable [ByteSource σ] [ByteSink σ] [Seekable σ] {before : List UInt8}
  {handle final : Archive (Logged σ)}

/-- A marked run is a run of a handle in use. -/
theorem MarkedRun.exists_inUse (h : MarkedRun before handle) : ∃ draft?, InUse draft? handle := by
  induction h with
  | ofStream stream options => exact ⟨_, .ofStream stream options⟩
  | reader stream => exact ⟨_, .reader stream⟩
  | replaced _ inner ih =>
    obtain ⟨draft?, hused⟩ := ih
    exact ⟨draft?, hused.replaced _⟩
  | called _ call ih =>
    obtain ⟨draft?, hused⟩ := ih
    exact hused.exists_after call

/-- Along a marked run the payload in writing is kept with its mode. -/
theorem MarkedRun.keepsPending (h : MarkedRun before handle) : handle.state.KeepsPending := by
  obtain ⟨draft?, hused⟩ := h.exists_inUse
  exact hused.isKept.keepsPending

/-- **Along a run** the log says whether the marker has been written. -/
theorem MarkedRun.isMarked (h : MarkedRun before handle) : IsMarked before handle := by
  induction h with
  | ofStream stream options =>
    refine ⟨nofun, ?_⟩
    rintro (hmode | ⟨pending, hopen⟩)
    · cases hmode
    · cases hopen.mode
  | reader stream =>
    refine ⟨nofun, ?_⟩
    rintro (hmode | ⟨pending, hopen⟩)
    · cases hmode
    · cases hopen.mode
  | replaced _ _ ih => exact ⟨ih.atMarker, fun hready => ih.behind (hready.of_state rfl)⟩
  | called hrun call ih =>
    have hstep := call.markerStep hrun.keepsPending fun hmode => (ih.atMarker hmode).1
    exact hstep.isMarked hrun.keepsPending ih

/-- **Turning a handle to writing** that succeeds leaves the writer behind the marker, and all bytes of
the marker, one after another, have been written since the handle was last turned, behind nothing but
pieces that earlier attempts have left. The exception is a handle that stood in front of the marker, where
an attempt to write that had failed: the call does nothing then, and only pieces have been written. -/
theorem MarkedRun.startWriting_eq_ok (h : MarkedRun before handle)
    (hrun : startWriting handle = .ok () final) :
    (handle.state.mode ≠ .writing .atMarker →
      IsReady final ∧ ∃ torn, IsTorn torn ∧
        handle.enteredWith before ++ torn ++ Marker.bytes <+: final.stream.log) ∧
    (handle.state.mode = .writing .atMarker →
      final = handle ∧ ∃ torn, IsTorn torn ∧ final.stream.log = before ++ torn) := by
  have hafter : (HandleCall.startWriting : HandleCall (List UInt8) BoundedSink).after handle = final := by
    refine HandleCall.of_outcome (fun behind => behind = final) ?_
    show Outcome _ _ (Archive.startWriting handle)
    rw [hrun]
    rfl
  have hmarked : IsMarked (handle.enteredWith before) final :=
    hafter ▸ (h.called (HandleCall.startWriting : HandleCall (List UInt8) BoundedSink)).isMarked
  rcases (effect_startWriting handle).of_ok hrun with ⟨rfl, hwriting⟩ | ⟨hnot, hturned⟩
  · refine ⟨fun hmode => ?_, fun hmode => ⟨rfl, (h.isMarked.atMarker hmode).2⟩⟩
    have hready := (atMarker_or_isReady h.keepsPending hwriting).resolve_left hmode
    exact ⟨hready, hmarked.behind hready⟩
  · have hready : IsReady final := isReady_of_atRecord (by rw [hturned]; rfl)
    exact ⟨fun _ => ⟨hready, hmarked.behind hready⟩, fun hmode => absurd ⟨_, hmode⟩ hnot⟩

end Runs

/-! ### A marker that takes two attempts -/

/-- A handle that could write three bytes of the marker when it was turned. -/
def tornStart : Archive (Logged FaultyStream) :=
  (HandleCall.startWriting : HandleCall (List UInt8) BoundedSink).after
    (.ofStream ⟨⟨{}, { writeFailAt? := some 3 }⟩, []⟩ {})

/-- The handle after the caller has cleared the stream. -/
def clearedStart : Archive (Logged FaultyStream) :=
  { tornStart with stream := { tornStart.stream with inner := ⟨tornStart.stream.inner.memory, {}⟩ } }

/-- The handle after the marker has been written at the second attempt. -/
def retriedStart : Archive (Logged FaultyStream) :=
  (HandleCall.writeMarker : HandleCall (List UInt8) BoundedSink).after clearedStart

/-- Behind the failure the handle stands in front of the marker. -/
theorem mode_clearedStart : clearedStart.state.mode = .writing .atMarker := by cbv

/-- The second attempt ends behind the marker. -/
theorem mode_retriedStart : retriedStart.state.mode = .writing .atRecord := by cbv

/-- Both attempts are one run. -/
theorem markedRun_retriedStart : MarkedRun [] retriedStart := by
  have hturned : MarkedRun [] tornStart :=
    (MarkedRun.ofStream (⟨⟨{}, { writeFailAt? := some 3 }⟩, []⟩ : Logged FaultyStream) {}).called
      (HandleCall.startWriting : HandleCall (List UInt8) BoundedSink)
  have hcleared : MarkedRun [] clearedStart := hturned.replaced _
  have hretried : MarkedRun (clearedStart.enteredWith []) retriedStart := hcleared.called _
  rwa [enteredWith_of_isWriting ⟨_, mode_clearedStart⟩] at hretried

/-- There turning to writing once more succeeds behind three torn bytes and the marker. -/
theorem MarkedRun.startWriting_eq_ok_retried : ∃ final, MarkedRun [] retriedStart ∧
    startWriting retriedStart = .ok () final ∧ IsReady final ∧
      ∃ torn, IsTorn torn ∧ [] ++ torn ++ Marker.bytes <+: final.stream.log := by
  have hrun : startWriting retriedStart = .ok () retriedStart := by
    rw [startWriting, bind_of_ok (state_apply _), mode_retriedStart]
    rfl
  have hne : retriedStart.state.mode ≠ .writing .atMarker := by
    rw [mode_retriedStart]
    decide
  have hmarked := (markedRun_retriedStart.startWriting_eq_ok hrun).1 hne
  rw [enteredWith_of_isWriting ⟨_, mode_retriedStart⟩] at hmarked
  exact ⟨_, markedRun_retriedStart, hrun, hmarked⟩

/-! ### A marker that is never written -/

/-- **A second attempt to turn a handle** whose stream has failed once succeeds without writing anything
and leaves the handle in front of the marker, and packing does not begin there. -/
theorem Archive.startWriting_unmarked : ∃ (error : ArchiveError) (failed : Archive FaultyStream),
    startWriting (Archive.ofStream (⟨{}, { writeFailAt? := some 0 }⟩ : FaultyStream) {})
        = .error error failed ∧
      startWriting (⟨⟨failed.stream.memory, {}⟩, failed.state⟩ : Archive FaultyStream)
        = .ok () ⟨⟨failed.stream.memory, {}⟩, failed.state⟩ ∧
      initArchive (⟨⟨failed.stream.memory, {}⟩, failed.state⟩ : Archive FaultyStream)
        = .error (.invalidState "write_record") ⟨⟨failed.stream.memory, {}⟩, failed.state⟩ ∧
      failed.state.mode = .writing .atMarker ∧ failed.stream.memory.bytes = #[] :=
  ⟨.write (.worded .other "write fault"), ⟨⟨{}, { writeFailAt? := some 0 }⟩, turned {} .atMarker⟩,
    by cbv, by cbv, by cbv, rfl, rfl⟩

end RecordArchive
