import RecordArchive.Proofs.Archive.Accounting
import RecordArchive.Proofs.Archive.PublicCalls

/-! # What the state of a handle in use says

A handle in use has been made on a stream, and calls of all layers were made on it that succeeded or
failed, whatever the stream did.

* `IsKept draft? state`: the metadata of an entry is known exactly where there is one, what sealing needs is
  kept exactly while a payload is being written, and it accounts for the draft. Every call keeps this
  (`HandleCall.keepsDraft`).
* `InUse draft? handle`: such a handle, with the record that was started last and the chunks that were
  accepted for its payload since.
* `InUse.represents`: what follows for the fields of the handle, and which failures cannot occur. -/

namespace RecordArchive

open Program Call Archive

variable {σ ι τ : Type}

/-! ## Accounts of drafts -/

namespace Draft

/-- Two chunks in a row are one chunk. -/
theorem payload_add_add (draft : Draft) (first second : List UInt8) :
    ((draft.add first).add second).payload = (draft.add (first ++ second)).payload := by
  have hflatten : ((draft.add first).add second).chunks.flatten
      = (draft.add (first ++ second)).chunks.flatten := by
    simp [add]
  rw [payload, payload, hflatten]
  rfl

/-- A chunk of no bytes adds nothing. -/
theorem payload_add_nil (draft : Draft) : (draft.add []).payload = draft.payload := by
  have hflatten : (draft.add []).chunks.flatten = draft.chunks.flatten := by simp [add]
  rw [payload, payload, hflatten]
  rfl

/-- The account depends on the record and on its payload. -/
theorem account_congr {first second : Draft} (hrecord : first.record = second.record)
    (hpayload : first.payload = second.payload) (offset? : Option Nat) :
    first.account offset? = second.account offset? := by
  rw [account, account, hrecord, hpayload]

/-- Whether a draft fits depends on its record and its payload only. -/
theorem Fits.congr {first second : Draft} (h : first.Fits) (hrecord : first.record = second.record)
    (hpayload : first.payload = second.payload) : second.Fits :=
  ⟨hrecord ▸ h.record, hrecord ▸ hpayload ▸ h.length⟩

/-- How a draft is kept depends on its record and its payload only. -/
theorem IsKeptAs.congr {first second : Draft} {offset? : Option Nat} {pending : PendingPayload}
    (h : first.IsKeptAs offset? pending) (hrecord : first.record = second.record)
    (hpayload : first.payload = second.payload) : second.IsKeptAs offset? pending where
  record := hrecord ▸ hpayload ▸ h.record
  account := account_congr hrecord hpayload offset? ▸ h.account

/-- **Chunks that a payload accepts** are accounted for like all of them at once. -/
theorem IsKeptAs.accepts {draft : Draft} (hfits : draft.Fits)
    (hsize : draft.record.hasAddedSize = true) {offset? : Option Nat} {chunks : List (List UInt8)}
    {pending final : PendingPayload} (hkept : draft.IsKeptAs offset? pending)
    (h : pending.Accepts chunks final) :
    (draft.add chunks.flatten).Fits ∧ (draft.add chunks.flatten).IsKeptAs offset? final := by
  induction h with
  | nil =>
    have hrecord : draft.record = (draft.add []).record := rfl
    have hpayload := draft.payload_add_nil.symm
    exact ⟨hfits.congr hrecord hpayload, hkept.congr hrecord hpayload⟩
  | @add chunks middle chunk _ hchunk ih =>
    obtain ⟨hmiddle, hkeptAs⟩ := ih
    have hpayload := draft.payload_add_add chunks.flatten chunk
    have hrecord : ((draft.add chunks.flatten).add chunk).record
        = (draft.add (chunks.flatten ++ chunk)).record := rfl
    rw [hkeptAs.fits chunk] at hchunk
    rw [List.flatten_append, List.flatten_singleton]
    exact ⟨(hmiddle.add hsize hchunk).congr hrecord hpayload,
      (hkeptAs.add chunk).congr hrecord hpayload⟩

end Draft

/-! ## The invariant -/

/-- **What every call keeps**: the metadata of an entry is known exactly where there is one, what sealing
needs is kept exactly while a payload is being written, and an open payload is that of the draft, with its
account. -/
structure IsKept (draft? : Option Draft) (state : HandleState) : Prop where
  knows : state.Knows
  keepsPending : state.KeepsPending
  payload : ∀ pending, state.IsOpen pending → ∃ draft offset?,
    draft? = some draft ∧ draft.Fits ∧ draft.record.hasAddedSize = true ∧
      draft.IsKeptAs offset? pending

/-- A step that opens no payload, and after which the handle keeps and knows what it did before. A payload
may have been described by an attempt to seal it. -/
structure HandleState.OpensNothing (first second : HandleState) : Prop where
  knows : first.Knows → second.Knows
  keepsPending : first.KeepsPending → second.KeepsPending
  payload : ∀ pending, second.IsOpen pending →
    ∃ kept, first.IsOpen kept ∧ (pending = kept ∨ pending = kept.described)

/-- A step that opens no payload keeps the draft. -/
theorem IsKept.of_opensNothing {draft? : Option Draft} {first second : HandleState}
    (h : IsKept draft? first) (hstep : first.OpensNothing second) : IsKept draft? second where
  knows := hstep.knows h.knows
  keepsPending := hstep.keepsPending h.keepsPending
  payload pending hopen := by
    obtain ⟨kept, hkept, hpending⟩ := hstep.payload pending hopen
    obtain ⟨draft, offset?, hdraft, hfits, hsize, haccount⟩ := h.payload kept hkept
    rcases hpending with rfl | rfl
    · exact ⟨draft, offset?, hdraft, hfits, hsize, haccount⟩
    · exact ⟨draft, offset?, hdraft, hfits, hsize, haccount.described hsize hfits⟩

namespace HandleState

/-- A handle that is used as before has no other payload open. -/
theorem Continues.opensNothing {first second : HandleState} (h : first.Continues second) :
    first.OpensNothing second where
  knows := h.knows
  keepsPending hkeeps := by
    rw [KeepsPending, ← Mode.use_eq_writing, h.use, h.pending?, Mode.use_eq_writing]
    exact hkeeps
  payload pending hopen := by
    refine ⟨pending, ⟨?_, h.pending?.symm.trans hopen.pending?⟩, .inl rfl⟩
    rw [← Mode.use_eq_writing, ← h.use, Mode.use_eq_writing]
    exact hopen.mode

/-- An attempt to seal a payload leaves it open, and what is kept of it described or not. -/
theorem Attempted.opensNothing {first second : HandleState} (h : first.Attempted second) :
    first.OpensNothing second where
  knows := h.knows
  keepsPending hkeeps := hkeeps.of_attempted h
  payload pending hopen := by
    rcases h with rfl | ⟨kept, hkept, rfl⟩
    · exact ⟨pending, hopen, .inl rfl⟩
    · exact ⟨kept, hkept, .inr (Option.some.inj hopen.pending?).symm⟩

/-- While it writes, a handle knows its entry where the packing has come to it. -/
theorem knows_of_writing {state : HandleState} (hmode : ∃ place, state.mode = .writing place) :
    state.Knows ↔ (state.currentFile?.isSome = true ↔
      state.packer = .fileData ∨ state.packer = .afterFileData) := by
  obtain ⟨place, hmode⟩ := hmode
  rw [Knows, IsAtEntry, hmode]
  simp

/-- A step of the packer to a place between two records. -/
theorem opensNothing_of_between {first second : HandleState}
    (hmode : second.mode = .writing .atRecord)
    (hpending : first.KeepsPending → second.pending? = none) (h : first.Knows →
      (second.currentFile?.isSome = true ↔
        second.packer = .fileData ∨ second.packer = .afterFileData)) :
    first.OpensNothing second where
  knows hknows := (knows_of_writing ⟨_, hmode⟩).mpr (h hknows)
  keepsPending hkeeps := keepsPending_of_none (hpending hkeeps) (by rw [hmode]; nofun)
  payload pending hopen := absurd ⟨pending, hopen⟩ (not_isOpen_of_atRecord hmode)

/-- Between two records nothing is kept of a payload. -/
theorem KeepsPending.pending?_writingAt {state : HandleState} (h : state.KeepsPending) :
    (state.writingAt .atRecord).pending? = none :=
  (h.writingAt .atRecord).pending?_eq_none nofun

/-- A writer that comes to a place between two records. -/
theorem opensNothing_writingAt {state : HandleState} {place : WriterState}
    (hmode : state.mode = .writing place) : state.OpensNothing (state.writingAt .atRecord) :=
  opensNothing_of_between rfl (fun hkeeps => hkeeps.pending?_writingAt)
    fun hknows => (knows_of_writing ⟨_, hmode⟩).mp hknows

end HandleState

namespace Archive

/-- Where a record can start the handle is written to. -/
theorem IsReady.exists_writing {handle : Archive σ} (h : IsReady handle) :
    ∃ place, handle.state.mode = .writing place := by
  rcases h with hmode | ⟨pending, hopen⟩
  · exact ⟨_, hmode⟩
  · exact ⟨_, hopen.mode⟩

/-- Sealing opens no payload, whether it succeeds or fails. -/
theorem IsSealed.opensNothing {handle : Archive σ} {state : HandleState}
    (h : IsSealed handle state) : handle.state.OpensNothing state := by
  rcases h with hattempted | ⟨⟨pending, hopen⟩, rfl⟩
  · exact hattempted.opensNothing
  · exact HandleState.opensNothing_writingAt hopen.mode

/-- A handle that is turned to writing knows no entry and keeps nothing of a payload. -/
theorem opensNothing_turned {first state : HandleState} {place : WriterState}
    (hplace : place = .atMarker ∨ place = .atRecord) : state.OpensNothing (turned first place) := by
  have hmode : (turned first place).mode ≠ .writing .atAddedData := by
    rcases hplace with rfl | rfl
    · nofun
    · nofun
  exact ⟨fun _ => (HandleState.knows_of_writing ⟨place, rfl⟩).mpr (by simp [turned]),
    fun _ => HandleState.keepsPending_of_none rfl hmode,
    fun pending hopen => absurd hopen.mode hmode⟩

/-- Turning a handle opens no payload. -/
theorem IsTurned.opensNothing {handle : Archive σ} {state : HandleState}
    (h : IsTurned handle state) : handle.state.OpensNothing state := by
  rcases h with hsealed | ⟨place, rfl, hplace⟩
  · exact hsealed.opensNothing
  · exact opensNothing_turned hplace

end Archive

/-- A record that has been started, with its payload open if it announces one. -/
theorem isKept_started {before state : HandleState} {record : Record} (hfits : record.Fits)
    (offset? : Option Nat) (hknows : state.Knows) (hkeeps : before.KeepsPending)
    (hmode : state.mode = (before.writingAt (record.fixed.placeBehind offset?)).mode)
    (hpending : state.pending? = (before.writingAt (record.fixed.placeBehind offset?)).pending?) :
    IsKept (some ⟨record, []⟩) state where
  knows := hknows
  keepsPending := by
    rw [HandleState.KeepsPending, hmode, hpending]
    exact hkeeps.writingAt _
  payload pending hopen := by
    have hopen' : (before.writingAt (record.fixed.placeBehind offset?)).IsOpen pending :=
      ⟨hmode ▸ hopen.mode, hpending ▸ hopen.pending?⟩
    by_cases hsize : record.fixed.hasAddedSize = true
    · rw [Record.placeBehind, if_pos hsize] at hopen'
      obtain rfl := hopen'.unique (before.isOpen_writingAt _)
      rw [← Draft.account_start]
      exact ⟨_, offset?, rfl, Draft.fits_start hfits, hsize, .of_account⟩
    · rw [Record.placeBehind, if_neg hsize] at hopen'
      cases hopen'.mode

/-- A payload that has accepted some chunks. -/
theorem IsKept.accepts {draft? : Option Draft} {first second : HandleState}
    {chunks : List (List UInt8)} (h : IsKept draft? first) (haccepts : first.Accepts chunks second) :
    IsKept (draft?.map (·.add chunks.flatten)) second := by
  rcases haccepts with ⟨rfl, rfl⟩ | ⟨pending, final, hopen, hchunks, rfl⟩
  · refine ⟨h.knows, h.keepsPending, fun pending hopen => ?_⟩
    obtain ⟨draft, offset?, rfl, hfits, hsize, hkept⟩ := h.payload pending hopen
    obtain ⟨hadded, haccount⟩ := hkept.accepts hfits hsize .nil
    exact ⟨_, offset?, rfl, hadded, hsize, haccount⟩
  · refine ⟨h.knows.writingAt hopen.mode _, h.keepsPending.writingAt _, fun other hother => ?_⟩
    obtain rfl := hother.unique (first.isOpen_writingAt final)
    obtain ⟨draft, offset?, rfl, hfits, hsize, hkept⟩ := h.payload pending hopen
    obtain ⟨hadded, haccount⟩ := hkept.accepts hfits hsize hchunks
    exact ⟨_, offset?, rfl, hadded, hsize, haccount⟩

/-! ## Steps -/

/-- The draft after a call of the writer that succeeded. -/
def WriterCall.latest (draft? : Option Draft) : WriterCall → Option Draft
  | start record => some ⟨record, []⟩
  | startStreamed record => some ⟨record, []⟩
  | whole _ _ => draft?
  | append chunk => draft?.map (·.add chunk)
  | finish => draft?
  | flush => draft?

/-- The part of a stream that copying it into the open content has counted, whether that succeeds or
not. -/
def Archive.copied [ByteSource ι] [ByteSink σ] (handle : Archive σ) (input : ι) : List UInt8 :=
  (ByteSource.offered handle.state.options.copySize input).take <|
    match insertFileData ((⟨input, 0⟩ : CopySource ι), handle) with
    | .ok _ final => final.1.total
    | .error _ final => final.1.total

/-- It is as long as copying tells. -/
theorem outcome_copied [ByteSource ι] [ByteSink σ] (handle : Archive σ) (input : ι) :
    Outcome (fun _ final => handle.copied input
        = (ByteSource.offered handle.state.options.copySize input).take final.1.total)
      (fun _ final => handle.copied input
        = (ByteSource.offered handle.state.options.copySize input).take final.1.total)
      (insertFileData ((⟨input, 0⟩ : CopySource ι), handle)) := by
  unfold Archive.copied
  cases insertFileData ((⟨input, 0⟩ : CopySource ι), handle) with
  | ok _ final => exact rfl
  | error _ final => exact rfl

/-- The draft after a call of the packer that succeeded. -/
def PackerCall.latest [ByteSource ι] [ByteSink σ] (handle : Archive σ) (draft? : Option Draft) :
    PackerCall ι → Option Draft
  | initArchive => draft?
  | beginFile info => info.toRecord.toOption.map fun header =>
    ⟨handle.state.options.requestCrc (info.announceContent header), []⟩
  | insertFileData input => draft?.map (·.add (handle.copied input))
  | endFile => draft?
  | addFile _ _ => draft?

/-- The draft after a call of the packer that failed: only copying may have added to it. -/
def PackerCall.latestFailed [ByteSource ι] [ByteSink σ] (handle : Archive σ)
    (draft? : Option Draft) : PackerCall ι → Option Draft
  | insertFileData input => draft?.map (·.add (handle.copied input))
  | _ => draft?

namespace HandleCall

variable [ByteSource ι] [ByteSink σ]

/-- The draft after a call that succeeded. -/
def latest (handle : Archive σ) (draft? : Option Draft) : HandleCall ι τ → Option Draft
  | writer call => call.latest draft?
  | packer call => call.latest handle draft?
  | _ => draft?

/-- The draft after a call that failed. -/
def latestFailed (handle : Archive σ) (draft? : Option Draft) : HandleCall ι τ → Option Draft
  | packer call => call.latestFailed handle draft?
  | _ => draft?

end HandleCall

/-- The outcome of a call that keeps the representation, with the drafts after a success and after a
failure. -/
def KeepsDraft (success? failure? : Option Draft)
    (result : EStateM.Result ArchiveError (Archive σ) Unit) : Prop :=
  Outcome (fun _ final => IsKept success? final.state) (fun _ final => IsKept failure? final.state)
    result

/-- A call that keeps the use of a handle keeps its draft. -/
theorem KeepsUse.keepsDraft {draft? : Option Draft} {handle : Archive σ}
    {result : EStateM.Result ArchiveError (Archive σ) Unit} (huse : KeepsUse handle result)
    (h : IsKept draft? handle.state) : KeepsDraft draft? draft? result :=
  huse.mono (fun _ _ hfinal => h.of_opensNothing hfinal.opensNothing)
    fun _ _ hfinal => h.of_opensNothing hfinal.1.opensNothing

/-- The packing has come behind the content of its entry. -/
theorem IsKept.behindContent {draft? : Option Draft} {state : HandleState} (h : IsKept draft? state)
    (hmode : ∃ place, state.mode = .writing place) (hpacker : state.packer = .fileData) :
    IsKept draft? { state with packer := .afterFileData } where
  knows := by
    have hknows := (HandleState.knows_of_writing hmode).mp h.knows
    have hmode' : ∃ place, ({ state with packer := .afterFileData } : HandleState).mode
        = .writing place := hmode
    rw [HandleState.knows_of_writing hmode']
    simpa [hpacker] using hknows
  keepsPending := h.keepsPending
  payload pending hopen := h.payload pending ⟨hopen.mode, hopen.pending?⟩

/-- Chunks that are accepted leave the packer and the use. -/
theorem HandleState.Accepts.frame {first second : HandleState} {chunks : List (List UInt8)}
    (h : first.Accepts chunks second) : second.packer = first.packer ∧
      ((∃ place, first.mode = .writing place) → ∃ place, second.mode = .writing place) := by
  rcases h with ⟨-, rfl⟩ | ⟨pending, final, -, -, rfl⟩
  · exact ⟨rfl, id⟩
  · exact ⟨rfl, fun _ => ⟨_, rfl⟩⟩

section Writing

variable [ByteSink σ] [Seekable σ]

/-- **A call of the writer** keeps the draft as it says. -/
theorem WriterCall.keepsDraft (call : WriterCall) {draft? : Option Draft} {handle : Archive σ}
    (h : IsKept draft? handle.state) :
    KeepsDraft (call.latest draft?) draft? (call.run handle) := by
  have hsealed (state : HandleState) (hstate : IsSealed handle state) : IsKept draft? state :=
    h.of_opensNothing hstate.opensNothing
  cases call with
  | start record =>
    refine (effect_writeRecord record handle).mono ?_ fun _ _ hfinal => hsealed _ hfinal.1
    rintro _ ⟨stream, _⟩ ⟨hready, hfits, offset?, rfl⟩
    obtain ⟨place, hmode⟩ := hready.exists_writing
    exact isKept_started hfits offset? (h.knows.writingAt hmode _) h.keepsPending rfl rfl
  | startStreamed record =>
    refine (effect_startStreamedRecord record handle).mono ?_ fun _ _ hfinal => hsealed _ hfinal.1
    rintro _ ⟨stream, _⟩ ⟨hready, hfits, hsize, offset?, rfl⟩
    obtain ⟨place, hmode⟩ := hready.exists_writing
    have hplace : record.fixed.placeBehind offset? = .atAddedData (.start record.fixed offset?) :=
      if_pos hsize
    rw [← hplace]
    exact isKept_started hfits offset? (h.knows.writingAt hmode _) h.keepsPending rfl rfl
  | whole record payload =>
    refine (effect_writeRecordWithAddedData record payload.bytes handle).mono ?_
      fun _ _ hfinal => hsealed _ hfinal.1
    rintro _ ⟨stream, _⟩ ⟨hready, rfl⟩
    obtain ⟨place, hmode⟩ := hready.exists_writing
    exact h.of_opensNothing (HandleState.opensNothing_writingAt hmode)
  | append chunk =>
    refine (effect_writeAddedData chunk handle).mono ?_ fun _ _ hfinal => hfinal.1 ▸ h
    rintro _ ⟨stream, _⟩ ⟨pending, hopen, hchunk, rfl⟩
    have haccepts : handle.state.Accepts [chunk] (handle.state.writingAt
        (.atAddedData (pending.append (pending.accept chunk)))) :=
      .inr ⟨pending, _, hopen, .add .nil hchunk, rfl⟩
    have hkept := h.accepts haccepts
    rw [List.flatten_singleton] at hkept
    exact hkept
  | finish =>
    refine (hasEffect_finishAddedData handle).mono ?_ fun _ _ hfinal => hsealed _ (.inl hfinal.1)
    rintro _ ⟨stream, _⟩ ⟨⟨pending, hopen⟩, rfl⟩
    exact h.of_opensNothing (HandleState.opensNothing_writingAt hopen.mode)
  | flush =>
    exact (effect_flushStream handle.stream handle.state).mono (fun _ _ hfinal => hfinal ▸ h)
      fun _ _ hfinal => hfinal.1 ▸ h

/-- **A call of the packer** keeps the draft as it says. -/
theorem PackerCall.keepsDraft [ByteSource ι] (call : PackerCall ι) {draft? : Option Draft}
    {handle : Archive σ} (h : IsKept draft? handle.state) :
    KeepsDraft (call.latest handle draft?) (call.latestFailed handle draft?) (call.run handle) := by
  have hsealed (state : HandleState) (hstate : IsSealed handle state) : IsKept draft? state :=
    h.of_opensNothing hstate.opensNothing
  cases call with
  | initArchive =>
    refine (effect_initArchive handle).mono ?_
      fun _ _ hfinal => h.of_opensNothing hfinal.1.opensNothing
    rintro _ ⟨stream, _⟩ (⟨hmode, hpacker, rfl⟩ | rfl)
    · refine h.of_opensNothing (HandleState.opensNothing_of_between rfl
        (fun hkeeps => hkeeps.pending?_writingAt) fun hknows => ?_)
      have hnone := (HandleState.knows_of_writing hmode).mp hknows
      rw [hpacker] at hnone
      simpa [HandleState.writingAt] using hnone
    · exact h.of_opensNothing
        (HandleState.opensNothing_of_between rfl (fun _ => rfl) fun _ => by simp [turned])
  | beginFile info =>
    refine (effect_beginFile info handle).mono ?_ fun _ _ hfinal => hsealed _ hfinal.1
    rintro _ ⟨stream, _⟩ ⟨header, hheader, hfits, offset?, rfl⟩
    have hlatest : (beginFile info : PackerCall ι).latest handle draft?
        = some ⟨handle.state.options.requestCrc (info.announceContent header), []⟩ := by
      rw [latest, hheader]
      rfl
    rw [hlatest]
    refine isKept_started hfits offset? ?_ h.keepsPending rfl rfl
    obtain ⟨_, _, hmoved⟩ := handle.state.writingAt_frame
      ((handle.state.options.requestCrc (info.announceContent header)).fixed.placeBehind offset?)
    rw [hmoved]
    exact (HandleState.knows_of_writing ⟨_, rfl⟩).mpr (by simp)
  | insertFileData input =>
    refine CallWith.outcome_withValue (((outcome_insertFileData input handle).and
      (outcome_copied handle input)).mono ?_ ?_)
    · rintro _ ⟨rest, stream, _⟩ ⟨⟨chunks, state, haccepts, hchunks, hmode, hpacker, rfl⟩, hbytes⟩
      have hkept := h.accepts haccepts
      rw [hchunks, ← hbytes] at hkept
      obtain ⟨hframe, hwriting⟩ := haccepts.frame
      exact hkept.behindContent (hwriting hmode) (hframe.trans hpacker)
    · rintro _ ⟨rest, final⟩ ⟨⟨⟨chunks, haccepts, hchunks⟩, -⟩, hbytes⟩
      have hkept := h.accepts haccepts
      rw [hchunks, ← hbytes] at hkept
      exact hkept
  | endFile =>
    refine (effect_endFile handle).mono ?_ fun _ _ hfinal => hsealed _ (.inl hfinal.1)
    rintro _ ⟨stream, _⟩ rfl
    exact h.of_opensNothing (HandleState.opensNothing_of_between rfl
      (fun hkeeps => hkeeps.pending?_writingAt) fun _ => by simp)
  | addFile info content =>
    refine (effect_addFile info content handle).mono ?_ fun _ _ hfinal => hsealed _ hfinal.1
    rintro _ ⟨stream, _⟩ ⟨hmode, hpacker, rfl⟩
    refine h.of_opensNothing (HandleState.opensNothing_of_between rfl
      (fun hkeeps => hkeeps.pending?_writingAt) fun hknows => ?_)
    have hnone := (HandleState.knows_of_writing hmode).mp hknows
    rcases List.mem_pair.mp hpacker with hplace | hplace
    · simpa [hplace, HandleState.writingAt] using hnone
    · simpa [hplace, HandleState.writingAt] using hnone

end Writing

section Handle

variable [ByteSource ι] [ByteSink τ] [ByteSource σ] [ByteSink σ] [Seekable σ]

/-- **Every call** keeps the representation, whether it succeeds or not. -/
theorem HandleCall.keepsDraft (call : HandleCall ι τ) {draft? : Option Draft} {handle : Archive σ}
    (h : IsKept draft? handle.state) :
    KeepsDraft (call.latest handle draft?) (call.latestFailed handle draft?) (call.run handle) := by
  cases call with
  | startReading =>
    refine (effect_startReading handle).mono ?_
      fun _ _ hfinal => h.of_opensNothing hfinal.1.opensNothing
    rintro _ ⟨stream, _⟩ (⟨rfl, -⟩ | ⟨state, hsealed, hmode, rfl⟩)
    · exact h
    · -- what was being written is complete, so nothing is kept of it
      have hkept := h.of_opensNothing hsealed.opensNothing
      have hnone : (turnedToReading state).pending? = none :=
        hkept.keepsPending.pending?_eq_none hmode
      refine ⟨HandleState.knows_of_reading rfl ?_, HandleState.keepsPending_of_none hnone nofun,
        fun pending hopen => nomatch hopen.mode⟩
      simp [turnedToReading]
  | startWriting =>
    refine (effect_startWriting handle).mono ?_ ?_
    · rintro _ ⟨stream, _⟩ (⟨rfl, -⟩ | ⟨-, rfl⟩)
      · exact h
      · exact h.of_opensNothing (opensNothing_turned (.inr rfl))
    · rintro _ ⟨stream, _⟩ ⟨-, rfl, -⟩
      exact h.of_opensNothing (opensNothing_turned (.inl rfl))
  | writeMarker =>
    refine (effect_writeMarker handle).mono ?_ fun _ _ hfinal => hfinal.1 ▸ h
    rintro _ ⟨stream, _⟩ ⟨hmode, rfl⟩
    exact h.of_opensNothing (HandleState.opensNothing_writingAt hmode)
  | reader call => exact (call.keepsUse handle).keepsDraft h
  | writer call => exact call.keepsDraft h
  | unpacker call => exact (call.keepsUse handle).keepsDraft h
  | packer call => exact call.keepsDraft h

end Handle

/-! ## Runs -/

/-- **A handle in use**, with the record that was started last and the chunks that were accepted for its
payload since: it has been made on a stream, and calls of all layers were made on it, whatever the
stream did, and whatever the caller did to the stream between them. -/
inductive InUse [ByteSource σ] [ByteSink σ] [Seekable σ] : Option Draft → Archive σ → Prop
  /-- A handle that is used for nothing yet. -/
  | ofStream (stream : σ) (options : ArchiveOptions) : InUse none (.ofStream stream options)
  /-- A handle that reads. -/
  | reader (stream : σ) : InUse none (.reader stream)
  /-- The caller has changed the stream. -/
  | replaced {draft? : Option Draft} {handle : Archive σ} (h : InUse draft? handle) (stream : σ) :
    InUse draft? { handle with stream }
  /-- A call succeeds. -/
  | returned {ι τ : Type} [ByteSource ι] [ByteSink τ] {draft? : Option Draft}
    {handle final : Archive σ} (h : InUse draft? handle) (call : HandleCall ι τ)
    (hrun : call.run handle = .ok () final) : InUse (call.latest handle draft?) final
  /-- A call fails. -/
  | failed {ι τ : Type} [ByteSource ι] [ByteSink τ] {draft? : Option Draft}
    {handle final : Archive σ} (h : InUse draft? handle) (call : HandleCall ι τ)
    {error : ArchiveError} (hrun : call.run handle = .error error final) :
    InUse (call.latestFailed handle draft?) final

section Runs

variable [ByteSource σ] [ByteSink σ] [Seekable σ]

/-- **In a run** the handle keeps the draft of the run. -/
theorem InUse.isKept {draft? : Option Draft} {handle : Archive σ} (h : InUse draft? handle) :
    IsKept draft? handle.state := by
  induction h with
  | ofStream stream options =>
    have hmode : (Archive.ofStream stream options).state.mode ≠ .writing .atAddedData := by
      simp [Archive.ofStream]
    refine ⟨?_, HandleState.keepsPending_of_none rfl hmode,
      fun _ hopen => absurd hopen.mode hmode⟩
    simp [HandleState.Knows, HandleState.IsAtEntry, Archive.ofStream]
  | reader stream =>
    have hmode : (Archive.reader stream).state.mode ≠ .writing .atAddedData := by
      simp [Archive.reader]
    refine ⟨?_, HandleState.keepsPending_of_none rfl hmode,
      fun _ hopen => absurd hopen.mode hmode⟩
    simp [HandleState.Knows, HandleState.IsAtEntry, Archive.reader]
  | replaced _ _ ih => exact ih
  | returned _ call hrun ih => exact (call.keepsDraft ih).of_ok hrun
  | failed _ call hrun ih => exact (call.keepsDraft ih).of_error hrun

/-- **What the fields of a handle say**, and which failures they exclude. -/
structure Represents (draft? : Option Draft) (handle : Archive σ) : Prop where
  /-- There is a pending payload exactly while one is written. -/
  pending : handle.pending?.isSome = true ↔ handle.state.mode = .writing .atAddedData
  /-- Metadata is known exactly inside an entry or behind its content. -/
  currentFile : handle.state.currentFile?.isSome = true ↔
    (∃ place, handle.state.mode = .reading place) ∧
        (handle.state.unpacker = .fileData ∨ handle.state.unpacker = .afterFileData) ∨
      (∃ place, handle.state.mode = .writing place) ∧
        (handle.state.packer = .fileData ∨ handle.state.packer = .afterFileData)
  /-- The record of a pending payload has a size field, and what was written keeps to it. -/
  bounds : ∀ pending, handle.pending? = some pending → pending.record.hasAddedSize = true ∧
    (0 < pending.declaredSize → pending.written ≤ pending.declaredSize) ∧
    pending.written ≤ pending.record.sizeWidth.maxValue
  /-- Number and checksum are those of the bytes that were accepted for the record started last. The
  record is the one that was started, or what an attempt to seal has made of it, which describes a front
  part of these bytes. -/
  account : ∀ pending, handle.pending? = some pending → ∃ draft, draft? = some draft ∧
    pending.written = draft.payload.length ∧ pending.hasCrc = draft.record.hasAddedCrc ∧
    (pending.crc = if pending.hasCrc then crc32c 0 draft.payload else 0) ∧
    (pending.record = draft.record.fixed ∨
      ∃ front, front <+: draft.payload ∧ pending.record = draft.record.describing front)
  /-- Inside a payload what sealing needs is never missing. -/
  kept : handle.state.mode = .writing .atAddedData →
    ∀ name, ∃ pending, expectPending name handle = .ok pending handle
  /-- A payload is sealed unless the stream fails or there is none. -/
  finish : ∀ error final, finishAddedData handle = .error error final →
    (∃ cause, error = .write cause) ∨
      handle.state.mode ≠ .writing .atAddedData ∧ ∃ name, error = .invalidState name
  /-- Inside a payload a chunk is never out of order. -/
  append : handle.state.mode = .writing .atAddedData →
    ∀ chunk name final, writeAddedData chunk handle ≠ .error (.invalidState name) final
  /-- Inside an entry that is read, or behind its content, asking for its metadata succeeds. -/
  info : (∃ place, handle.state.mode = .reading place) →
    (handle.state.unpacker = .fileData ∨ handle.state.unpacker = .afterFileData) →
    ∃ info, handle.state.currentFile? = some info ∧ currentFileInfo handle = .ok info handle

omit [ByteSource σ] in
/-- A payload whose account is that of a draft is sealed unless the stream fails. -/
theorem finishAddedData_eq_error {draft : Draft} (hfits : draft.Fits) {offset? : Option Nat}
    {handle final : Archive σ} {pending : PendingPayload} (hopen : handle.state.IsOpen pending)
    (hkept : draft.IsKeptAs offset? pending) {error : ArchiveError}
    (hrun : finishAddedData handle = .error error final) : ∃ cause, error = .write cause := by
  obtain ⟨-, ⟨hnone, -⟩ | ⟨found, hfound, hcause | hfix⟩⟩ :=
    (effect_finishAddedData handle).of_error hrun
  · exact absurd ⟨pending, hopen⟩ hnone
  · exact hcause
  · -- The record that sealing writes fits its fields.
    obtain rfl := hopen.unique hfound
    have hsealed : pending.sealedRecord.fix = .ok pending.sealedRecord.fixed :=
      Record.fix_eq_ok.mpr ⟨hkept.sealedRecord_fits hfits, rfl⟩
    exact nomatch hfix.symm.trans hsealed

omit [ByteSink σ] [Seekable σ] in
/-- Metadata that is known is given. -/
theorem currentFileInfo_of_knows {handle : Archive σ} (hknows : handle.state.Knows)
    (hmode : ∃ place, handle.state.mode = .reading place)
    (hplace : handle.state.unpacker = .fileData ∨ handle.state.unpacker = .afterFileData) :
    ∃ info, handle.state.currentFile? = some info ∧ currentFileInfo handle = .ok info handle := by
  obtain ⟨info, hinfo⟩ := Option.isSome_iff_exists.mp (hknows.mpr (.inl ⟨hmode, hplace⟩))
  obtain ⟨place, hmode⟩ := hmode
  have hexpect : expectReading "get_current_file_info" handle = .ok () handle := by
    rw [expectReading, bind_of_ok (state_apply handle), hmode]
    rfl
  have hknown : knownFile handle = .ok info handle := by
    rw [knownFile, bind_of_ok (state_apply handle), hinfo]
    rfl
  refine ⟨info, hinfo, ?_⟩
  rw [currentFileInfo, bind_of_ok hexpect, bind_of_ok (state_apply handle)]
  rcases hplace with hplace | hplace
  · rw [hplace]
    exact hknown
  · rw [hplace]
    exact hknown

/-- **Every handle in use represents** the draft of the record that was started last. -/
theorem InUse.represents {draft? : Option Draft} {handle : Archive σ} (h : InUse draft? handle) :
    Represents draft? handle := by
  have hkept := h.isKept
  have hopen (pending : PendingPayload) (hpending : handle.pending? = some pending) :
      handle.state.IsOpen pending :=
    ⟨hkept.keepsPending.mp (Option.isSome_iff_exists.mpr ⟨pending, hpending⟩), hpending⟩
  refine ⟨hkept.keepsPending, hkept.knows, fun pending hpending => ?_, fun pending hpending => ?_,
    fun hmode name => ?_, fun error final hrun => ?_, fun hmode chunk name final hrun => ?_,
    currentFileInfo_of_knows hkept.knows⟩
  · obtain ⟨draft, offset?, -, hfits, hsize, haccount⟩ := hkept.payload pending (hopen pending hpending)
    have hwritten : pending.written = draft.payload.length := by rw [haccount.account]; rfl
    have hannounced : pending.declaredSize = draft.record.addedSize.toNat := by
      rw [haccount.account]
      rfl
    have hwidth := haccount.sizeWidth
    refine ⟨?_, fun hdeclared => ?_, ?_⟩
    · rw [Record.hasAddedSize, hwidth]
      exact hsize
    · -- The payload has been cut to the announced size.
      rw [hannounced] at hdeclared
      have hcut : draft.payload = draft.chunks.flatten.take draft.record.addedSize.toNat :=
        if_pos hdeclared
      rw [hwritten, hannounced, hcut]
      exact List.length_take_le _ _
    · rw [hwritten, hwidth]
      exact hfits.length
  · obtain ⟨draft, offset?, rfl, -, -, haccount⟩ := hkept.payload pending (hopen pending hpending)
    refine ⟨draft, rfl, ?_, ?_, ?_, haccount.record⟩
    all_goals
      rw [haccount.account]
      rfl
  · obtain ⟨pending, hpending⟩ := hkept.keepsPending.exists_isOpen hmode
    exact ⟨pending, expectPending_of_isOpen hpending name⟩
  · by_cases hmode : handle.state.mode = .writing .atAddedData
    · obtain ⟨pending, hpending⟩ := hkept.keepsPending.exists_isOpen hmode
      obtain ⟨draft, offset?, -, hfits, -, haccount⟩ := hkept.payload pending hpending
      exact .inl (finishAddedData_eq_error hfits hpending haccount hrun)
    · have hexpect := expectPending_of_not_isOpen (HandleState.not_isOpen_of_mode_ne hmode)
        "finish_added_data"
      rw [finishAddedData, bind_of_error hexpect] at hrun
      cases hrun
      exact .inr ⟨hmode, _, rfl⟩
  · have hfinal := (effect_writeAddedData chunk handle).of_error hrun
    exact (hfinal.2 trivial).2 (hkept.keepsPending.exists_isOpen hmode)

end Runs

/-! ### A handle on a stream with little room -/

/-- A call of the writer, beside streams that nothing is copied to or from. -/
def writerCall (call : WriterCall) : HandleCall (List UInt8) BoundedSink := .writer call

/-- The writer inside a payload of which two bytes have been written. -/
def filledCramped : Recording FaultyStream := insideCramped.perform (.append [1, 2])

/-- The same writer, whose stream can no longer be moved behind the two bytes. -/
def hinderedCramped : Archive FaultyStream :=
  ⟨⟨filledCramped.handle.stream.memory, { refusedSeeks := [18] }⟩, filledCramped.handle.state⟩

/-- The writer after an attempt to seal the two bytes there. -/
def describedCramped : Archive FaultyStream :=
  ((⟨hinderedCramped, []⟩ : Recording FaultyStream).perform .finish).handle

/-- The seal fails when the record has been written, on the way back to the end of the payload. -/
theorem run_finish_hindered : WriterCall.run .finish hinderedCramped
    = .error (.write (.worded .other "seek fault")) describedCramped := by
  cbv

/-- The handle has been turned to writing, a call has been refused before the record was started, and the
payload could not be sealed. -/
theorem inUse_cramped : InUse (some ⟨unsized, [[1, 2]]⟩) describedCramped := by
  have hturn : (HandleCall.startWriting : HandleCall (List UInt8) BoundedSink).run
      (.ofStream ⟨{}, { writeFailAt? := some 18 }⟩ {}) = .ok () cramped.handle := by cbv
  have hrefused : (writerCall (.append [3])).run cramped.handle
      = .error (.invalidState "write_added_data") cramped.handle :=
    bind_of_error (expectPending_of_not_isOpen (HandleState.not_isOpen_of_atRecord rfl) _)
  have hfill : (writerCall (.append [1, 2])).run insideCramped.handle
      = .ok () filledCramped.handle := by cbv
  have hturned := ((InUse.ofStream _ _).returned _ hturn).failed _ hrefused
  have hfilled := (hturned.returned (writerCall (.start unsized)) run_start_cramped).returned _ hfill
  exact (hfilled.replaced hinderedCramped.stream).failed (writerCall .finish) run_finish_hindered

/-- The two bytes that were accepted are what the handle accounts for, and the failed seal has left the
record that describes them. -/
theorem InUse.represents_cramped : ∃ pending,
    InUse (some ⟨unsized, [[1, 2]]⟩) describedCramped ∧
      Represents (some ⟨unsized, [[1, 2]]⟩) describedCramped ∧
      describedCramped.pending? = some pending ∧ pending.written = 2 ∧
      pending.record = unsized.describing [1, 2] :=
  ⟨((⟨unsized, [[1, 2]]⟩ : Draft).account (some 6)).described, inUse_cramped,
    inUse_cramped.represents, by cbv, by cbv, by cbv⟩

end RecordArchive
