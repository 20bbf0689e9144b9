import RecordArchive.Proofs.Archive.Phases
import RecordArchive.Proofs.Archive.RoundTrip

/-! # Whose payload is written

The packer notes that it stands in the content of an entry, and the writer which payload is open. Calls
of the packer and calls of the writer may be made in any order, and those of the writer do not ask the
packer.

* `OpenEntry`: the entry that was begun last, with the payload that was opened for it.
* `PendingPayload.CarriesOn`: what chunks that were accepted, and attempts to seal that have failed, make of
  a payload.
* `HandleCall.entryAfter`: a call of the record layer, or one that turns the handle, may end that payload
  although the packer stays in the content.
* `EntryRun begun? handle`: a handle in use, with the entry whose payload no such call has ended.
* `EntryRun.ownsPayload`: then **the open payload is that of the entry**, what is copied into the entry
  goes to it, and ending the entry seals it.
* `EntryRun.exists_strayed`: behind such a call the packer writes to another record. -/

namespace RecordArchive

open Program Call Archive

variable {σ ι τ : Type}

/-! ## Chunks in a row -/

/-- Chunks leave the record as it is. -/
theorem PendingPayload.Accepts.record {first second : PendingPayload} {chunks : List (List UInt8)}
    (h : first.Accepts chunks second) : second.record = first.record := by
  induction h with
  | nil => rfl
  | add _ _ ih => exact ih

/-- **A payload that is carried on**: chunks are accepted for it, and attempts to seal it, which have
failed, assign to its record what was written. -/
inductive PendingPayload.CarriesOn (pending : PendingPayload) :
    List (List UInt8) → PendingPayload → Prop
  /-- Nothing happens. -/
  | nil : CarriesOn pending [] pending
  /-- One more chunk, which fits. -/
  | add {chunks : List (List UInt8)} {middle : PendingPayload} {chunk : List UInt8}
    (h : CarriesOn pending chunks middle) (hchunk : middle.fits chunk = true) :
    CarriesOn pending (chunks ++ [chunk]) (middle.append (middle.accept chunk))
  /-- One more attempt to seal it. -/
  | attempted {chunks : List (List UInt8)} {middle : PendingPayload}
    (h : CarriesOn pending chunks middle) : CarriesOn pending chunks middle.described

namespace PendingPayload

/-- An attempt to seal a payload changes size and checksums of its record alone. -/
theorem described_frame (pending : PendingPayload) :
    pending.described.record.kind = pending.record.kind ∧
      pending.described.record.flags = pending.record.flags ∧
      pending.described.record.data = pending.record.data ∧
      pending.described = { pending with record := pending.described.record } := by
  cases hfix : pending.sealedRecord.fix with
  | error error =>
    rw [described, hfix]
    exact ⟨rfl, rfl, rfl, rfl⟩
  | ok record =>
    rw [described_of_fits (Record.fix_eq_ok.mp hfix).1]
    exact ⟨rfl, rfl, rfl, rfl⟩

namespace CarriesOn

variable {first second third : PendingPayload} {chunks more : List (List UInt8)}

/-- More chunks are accepted. -/
theorem accepts (h : first.CarriesOn chunks second) (hmore : second.Accepts more third) :
    first.CarriesOn (chunks ++ more) third := by
  induction hmore with
  | nil => rwa [List.append_nil]
  | add _ hchunk ih =>
    rw [← List.append_assoc]
    exact ih.add hchunk

/-- The record keeps what it says of the entry, and the position. -/
theorem frame (h : first.CarriesOn chunks second) : second.record.kind = first.record.kind ∧
    second.record.flags = first.record.flags ∧ second.record.data = first.record.data ∧
    second.offset? = first.offset? := by
  induction h with
  | nil => exact ⟨rfl, rfl, rfl, rfl⟩
  | add _ _ ih => exact ih
  | @attempted _ middle _ ih =>
    obtain ⟨hkind, hflags, hdata, hrest⟩ := middle.described_frame
    rw [hkind, hflags, hdata]
    exact ⟨ih.1, ih.2.1, ih.2.2.1, (congrArg PendingPayload.offset? hrest).trans ih.2.2.2⟩

/-- **Attempts to seal change the record alone**: the rest is what accepting the chunks makes of it. -/
theorem exists_accepts (h : first.CarriesOn chunks second) :
    ∃ accepted, first.Accepts chunks accepted ∧ second = { accepted with record := second.record } := by
  induction h with
  | nil => exact ⟨first, .nil, rfl⟩
  | @add chunks middle chunk hmiddle hchunk ih =>
    obtain ⟨accepted, haccepts, hrest⟩ := ih
    have hwidth : middle.record.sizeWidth = accepted.record.sizeWidth := by
      rw [haccepts.record]
      exact congrArg SizeWidth.ofFlags hmiddle.frame.2.1
    have hfits : middle.fits chunk = accepted.fits chunk := by
      rw [fits, hwidth, hrest]
      rfl
    refine ⟨_, haccepts.add (hfits ▸ hchunk), ?_⟩
    generalize middle.record = record at hrest ⊢
    subst hrest
    rfl
  | @attempted chunks middle _ ih =>
    obtain ⟨accepted, haccepts, hrest⟩ := ih
    refine ⟨accepted, haccepts, ?_⟩
    rw [middle.described_frame.2.2.2, hrest]

end CarriesOn

end PendingPayload

/-! ## The entry that is open -/

/-- An entry whose content has been opened. -/
structure OpenEntry where
  info : EntryInfo
  /-- The options of the handle. -/
  options : ArchiveOptions
  /-- The position of its file header, if the stream could tell. -/
  offset? : Option Nat

/-- The payload of an entry as it was opened, behind the file header with the metadata. -/
def OpenEntry.opened (entry : OpenEntry) : PendingPayload :=
  .start (openingRecord entry.options entry.info).fixed entry.offset?

/-- Inside the content of an entry, or behind it, as far as the packer knows. -/
def HandleState.IsInContent (state : HandleState) : Prop :=
  state.IsWriting ∧ (state.packer = .fileData ∨ state.packer = .afterFileData)

/-- The calls that may end a payload without asking the packer. -/
def HandleCall.mayEndPayload : HandleCall ι τ → Bool
  | startReading => true
  | writer (.start _) => true
  | writer (.startStreamed _) => true
  | writer (.whole _ _) => true
  | writer .finish => true
  | _ => false

/-- The payload in front has been left: what is kept is neither what was kept of it nor that as an attempt
to seal it describes it. -/
def Archive.LeavesPayload (handle final : Archive σ) : Prop :=
  final.pending? ≠ handle.pending? ∧
    final.pending? ≠ handle.pending?.map PendingPayload.described

instance (handle final : Archive σ) : Decidable (handle.LeavesPayload final) :=
  inferInstanceAs (Decidable (_ ∧ _))

/-- A record of another kind does not go on with the payload in front. -/
theorem Archive.leavesPayload_of_kind_ne {handle final : Archive σ} {pending next : PendingPayload}
    (hopen : handle.state.IsOpen pending) (hnext : final.state.IsOpen next)
    (hkind : next.record.kind ≠ pending.record.kind) : handle.LeavesPayload final := by
  have hkept : handle.pending? = some pending := hopen.pending?
  have hfinal : final.pending? = some next := hnext.pending?
  rw [LeavesPayload, hkept, hfinal]
  refine ⟨fun h => hkind ?_, fun h => hkind ?_⟩
  · rw [Option.some.inj h]
  · rw [Option.some.inj h]
    exact pending.described_frame.1

/-- **The entry whose payload is open after a call**: the one that the call has begun; none if the call
has ended it, or if a call of the record layer, or one that turns the handle, has left its payload;
otherwise the same as before. -/
def HandleCall.entryAfter [ByteSource ι] [ByteSink τ] [ByteSource σ] [ByteSink σ] [Seekable σ]
    (handle : Archive σ) (begun? : Option OpenEntry) (call : HandleCall ι τ) : Option OpenEntry :=
  match call, call.run handle with
  | packer (.beginFile info), .ok _ final =>
    some ⟨info, handle.state.options, final.pending?.bind PendingPayload.offset?⟩
  | packer .endFile, .ok _ _ => none
  | call, _ =>
    if call.mayEndPayload ∧ handle.LeavesPayload (call.after handle) then none else begun?

/-- **The open payload is that of the entry**, carried on since, and the packer knows the entry. -/
def HoldsEntry (begun? : Option OpenEntry) (state : HandleState) : Prop :=
  ∀ entry, begun? = some entry → state.IsInContent →
    state.currentFile? = some entry.info ∧ ∃ chunks pending, entry.opened.CarriesOn chunks pending ∧
      state.IsOpen pending

/-- Nothing is claimed where no entry has begun. -/
theorem HoldsEntry.none (state : HandleState) : HoldsEntry none state := nofun

/-- Nothing is claimed outside of content. -/
theorem HoldsEntry.of_not_isInContent {begun? : Option OpenEntry} {state : HandleState}
    (h : ¬ state.IsInContent) : HoldsEntry begun? state := fun _ _ hin => absurd hin h

/-- A call in the content of an entry that has not left the payload. -/
theorem HoldsEntry.of_not_leavesPayload {begun? : Option OpenEntry} {handle final : Archive σ}
    (h : HoldsEntry begun? handle.state) (hin : handle.state.IsInContent)
    (hpending : ¬ handle.LeavesPayload final) (hkeeps : final.state.KeepsPending)
    (hfile : final.state.currentFile? = handle.state.currentFile?) :
    HoldsEntry begun? final.state := by
  intro entry hentry _
  obtain ⟨hknown, chunks, pending, hcarries, hopen⟩ := h entry hentry hin
  have hkept : handle.pending? = some pending := hopen.pending?
  have hisOpen {kept : PendingPayload} (hfinal : final.pending? = some kept) :
      final.state.IsOpen kept :=
    ⟨hkeeps.mp (Option.isSome_iff_exists.mpr ⟨kept, hfinal⟩), hfinal⟩
  refine ⟨hfile.trans hknown, chunks, ?_⟩
  by_cases hsame : final.pending? = handle.pending?
  · exact ⟨pending, hcarries, hisOpen (hsame.trans hkept)⟩
  · have hdescribed := not_not.mp fun hother => hpending ⟨hsame, hother⟩
    rw [hkept] at hdescribed
    exact ⟨pending.described, hcarries.attempted, hisOpen hdescribed⟩

/-- An attempt to seal the payload describes it. -/
theorem HoldsEntry.of_attempted {begun? : Option OpenEntry} {first second : HandleState}
    (h : HoldsEntry begun? first) (hattempted : first.Attempted second) :
    HoldsEntry begun? second := by
  rcases hattempted with rfl | ⟨pending, hpending, rfl⟩
  · exact h
  · intro entry hentry hin
    obtain ⟨hknown, chunks, found, hcarries, hopen⟩ := h entry hentry hin
    obtain rfl := hopen.unique hpending
    exact ⟨hknown, chunks, _, hcarries.attempted, hopen.mode, rfl⟩

/-- More chunks are accepted. -/
theorem HoldsEntry.accepts {begun? : Option OpenEntry} {first second : HandleState}
    {more : List (List UInt8)} (h : HoldsEntry begun? first) (hin : first.IsInContent)
    (hmore : first.Accepts more second) : HoldsEntry begun? second := by
  intro entry hentry _
  obtain ⟨hknown, chunks, pending, hcarries, hopen⟩ := h entry hentry hin
  rcases hmore with ⟨rfl, rfl⟩ | ⟨opened, accepted, hopened, hchunks, rfl⟩
  · exact ⟨hknown, chunks, pending, hcarries, hopen⟩
  · obtain rfl := hopen.unique hopened
    exact ⟨hknown, chunks ++ more, accepted, hcarries.accepts hchunks, first.isOpen_writingAt _⟩

/-- Packing that has not begun, or stands between two entries, is outside of content. -/
theorem HandleState.not_isInContent_of_packer {state : HandleState}
    (h : state.packer = .idle ∨ state.packer = .fileHeader) : ¬ state.IsInContent := by
  rintro ⟨-, hpacker⟩
  rcases h with h | h
  · simp [h] at hpacker
  · simp [h] at hpacker

/-! ## One call -/

section Sealed

variable {handle : Archive σ} {state : HandleState}

/-- An attempt to seal leaves the packer and its file. -/
theorem HandleState.Attempted.keepsPacker {first second : HandleState} (h : first.Attempted second) :
    second.packer = first.packer ∧ second.currentFile? = first.currentFile? := by
  obtain ⟨pending?, rfl⟩ := h.exists_pending?
  exact ⟨rfl, rfl⟩

/-- Writing a record leaves the packing where it is. -/
theorem HandleState.writingAt_keepsPacker (state : HandleState) (place : WriterPlace) :
    (state.writingAt place).packer = state.packer ∧
      (state.writingAt place).currentFile? = state.currentFile? := by
  obtain ⟨mode, pending?, hmoved⟩ := state.writingAt_frame place
  rw [hmoved]
  exact ⟨rfl, rfl⟩

/-- Sealing leaves the packer and its file, whether it succeeds or fails. -/
theorem Archive.IsSealed.keepsPacker (h : IsSealed handle state) :
    state.packer = handle.state.packer ∧ state.currentFile? = handle.state.currentFile? := by
  rcases h with hattempted | ⟨-, rfl⟩
  · exact hattempted.keepsPacker
  · exact handle.state.writingAt_keepsPacker _

/-- An attempt to seal leads into no content. -/
theorem HandleState.Attempted.not_isInContent {first second : HandleState}
    (h : first.Attempted second) (hin : ¬ first.IsInContent) : ¬ second.IsInContent := by
  obtain ⟨pending?, rfl⟩ := h.exists_pending?
  exact hin

/-- Sealing leads into no content. -/
theorem Archive.IsSealed.not_isInContent (h : IsSealed handle state)
    (hin : ¬ handle.state.IsInContent) : ¬ state.IsInContent := by
  rcases h with hattempted | ⟨⟨pending, hopen⟩, rfl⟩
  · exact hattempted.not_isInContent hin
  · exact fun hstate => hin ⟨⟨_, hopen.mode⟩, hstate.2⟩

end Sealed

section Calls

variable [ByteSink σ] [Seekable σ] {handle : Archive σ}

/-- What writes records does not tell the packer. -/
theorem WriterCall.keepsPacker (call : WriterCall) (handle : Archive σ) :
    Outcome (fun _ final => final.state.packer = handle.state.packer ∧
        final.state.currentFile? = handle.state.currentFile?)
      (fun _ final => final.state.packer = handle.state.packer ∧
        final.state.currentFile? = handle.state.currentFile?) (call.run handle) := by
  have hsame {state : HandleState} (h : state = handle.state) :
      state.packer = handle.state.packer ∧ state.currentFile? = handle.state.currentFile? := by
    rw [h]
    exact ⟨rfl, rfl⟩
  have hplaced {state : HandleState} {place : WriterPlace} (h : state = handle.state.writingAt place) :
      state.packer = handle.state.packer ∧ state.currentFile? = handle.state.currentFile? := by
    rw [h]
    exact handle.state.writingAt_keepsPacker place
  cases call with
  | start record =>
    refine (effect_writeRecord record handle).mono ?_ fun _ _ h => h.1.keepsPacker
    exact fun _ _ ⟨_, _, _, hstate⟩ => hplaced hstate
  | startStreamed record =>
    refine (effect_startStreamedRecord record handle).mono ?_ fun _ _ h => h.1.keepsPacker
    exact fun _ _ ⟨_, _, _, _, hstate⟩ => hplaced hstate
  | whole record payload =>
    exact (effect_writeRecordWithAddedData record payload.bytes handle).mono
      (fun _ _ h => hplaced h.2) fun _ _ h => h.1.keepsPacker
  | append chunk =>
    refine (effect_writeAddedData chunk handle).mono ?_ fun _ _ h => hsame h.1
    exact fun _ _ ⟨_, _, _, hstate⟩ => hplaced hstate
  | finish =>
    exact (hasEffect_finishAddedData handle).mono (fun _ _ h => hplaced h.2)
      fun _ _ h => h.1.keepsPacker
  | flush =>
    exact (effect_flushStream handle.stream handle.state).mono (fun _ _ h => hsame h)
      fun _ _ h => hsame h.1

/-- No entry begins inside the content of another one. -/
theorem PackerCall.declines_of_isInContent [ByteSource ι] (hin : handle.state.IsInContent)
    {call : PackerCall ι} (hinsert : ∀ input, call ≠ .insertFileData input) (hend : call ≠ .endFile) :
    handle.Declines call.run := by
  obtain ⟨⟨place, hmode⟩, hpacker⟩ := hin
  have hexpect (name : String) : handle.Declines (expectPacker [.idle, .fileHeader] name) := by
    refine .bind_of_ok (state_apply handle) ?_
    rw [hmode]
    exact ⟨_, require_of_not (by rcases hpacker with h | h <;> simp [h]) _ _⟩
  cases call with
  | initArchive =>
    have hfresh : handle.Declines (expectFresh "init_archive") := by
      refine .bind_of_ok (state_apply handle) ?_
      rw [hmode]
      exact ⟨_, require_of_not (by rcases hpacker with h | h <;> simp [h]) _ _⟩
    exact hfresh.bind
  | beginFile info => exact (hexpect _).bind
  | insertFileData input => exact absurd rfl (hinsert input)
  | endFile => exact absurd rfl hend
  | addFile info content => exact (hexpect _).bind

/-- What packs entries stays outside of content unless it begins an entry. -/
theorem PackerCall.not_isInContent [ByteSource ι] (hin : ¬ handle.state.IsInContent)
    (call : PackerCall ι) :
    Outcome (fun _ final => (∀ info, call ≠ .beginFile info) → ¬ final.state.IsInContent)
      (fun _ final => ¬ final.state.IsInContent) (call.run handle) := by
  cases call with
  | initArchive =>
    refine (effect_initArchive handle).mono ?_ ?_
    · rintro _ final (⟨-, -, hstate⟩ | hstate)
      all_goals exact fun _ => HandleState.not_isInContent_of_packer (.inr (by rw [hstate]))
    · rintro _ final ⟨hsealed | ⟨place, hstate, -⟩, -⟩
      · exact hsealed.not_isInContent hin
      · exact HandleState.not_isInContent_of_packer (.inl (by rw [hstate]; rfl))
  | beginFile info =>
    exact (effect_beginFile info handle).mono (fun _ _ _ h => absurd rfl (h info))
      fun _ _ h => h.1.not_isInContent hin
  | insertFileData input =>
    refine CallWith.outcome_withValue ((outcome_insertFileData input handle).mono ?_ ?_)
    · rintro _ ⟨rest, final⟩ ⟨chunks, state, -, -, hmode, hpacker, -⟩
      exact absurd ⟨hmode, .inl hpacker⟩ hin
    · rintro _ ⟨rest, final⟩ ⟨⟨chunks, haccepts, -⟩, -⟩
      rcases haccepts with ⟨-, hstate⟩ | ⟨pending, accepted, hopen, -, hstate⟩
      · exact fun h => hin (hstate ▸ h)
      · exact fun h => hin ⟨⟨_, hopen.mode⟩, by rw [show final.state = _ from hstate] at h; exact h.2⟩
  | endFile =>
    refine (effect_endFile handle).mono (fun _ _ h _ => ?_) fun _ _ h => h.1.not_isInContent hin
    exact HandleState.not_isInContent_of_packer (.inr (by rw [h]))
  | addFile info content =>
    refine (effect_addFile info content handle).mono (fun _ _ h _ => ?_)
      fun _ _ h => h.1.not_isInContent hin
    exact HandleState.not_isInContent_of_packer (.inr (by rw [h.2.2]))

/-- A call that begins an entry opens its payload. -/
theorem holdsEntry_beginFile {info : EntryInfo} {final : Archive σ}
    (hrun : Archive.beginFile info handle = .ok () final) :
    HoldsEntry (some ⟨info, handle.state.options, final.pending?.bind PendingPayload.offset?⟩)
      final.state := by
  obtain ⟨header, hheader, -, offset?, hstate⟩ := (effect_beginFile info handle).of_ok hrun
  obtain ⟨-, -, rfl⟩ := EntryInfo.toRecord_eq_ok.mp hheader
  have hsize := (openingRecord_spec handle.state.options info).2.2.2.1
  have hplace : (openingRecord handle.state.options info).fixed.placeBehind offset?
      = .atAddedData (.start (openingRecord handle.state.options info).fixed offset?) := if_pos hsize
  rw [← openingRecord, hplace] at hstate
  have hopen : final.state.IsOpen (.start (openingRecord handle.state.options info).fixed offset?) :=
    ⟨by rw [hstate]; rfl, by rw [hstate]; rfl⟩
  have hkept : final.pending? = _ := hopen.pending?
  rintro entry hentry -
  cases hentry
  refine ⟨by rw [hstate], [], _, ?_, hopen⟩
  rw [hkept]
  exact .nil

/-- In the content of an entry a call of the packer that does not end it adds to its payload, if it
does anything. -/
theorem PackerCall.holdsEntry [ByteSource ι] {call : PackerCall ι} {begun? : Option OpenEntry}
    (h : HoldsEntry begun? handle.state) (hin : handle.state.IsInContent) (hend : call ≠ .endFile) :
    Outcome (fun _ final => HoldsEntry begun? final.state)
      (fun _ final => HoldsEntry begun? final.state) (call.run handle) := by
  by_cases hinsert : ∃ input, call = .insertFileData input
  · obtain ⟨input, rfl⟩ := hinsert
    refine CallWith.outcome_withValue ((outcome_insertFileData input handle).mono ?_ ?_)
    · rintro _ ⟨rest, final⟩ ⟨chunks, state, haccepts, -, -, hpacker, hstate⟩
      have hkept := h.accepts hin haccepts
      rintro entry hentry -
      have hstart : state.IsInContent := by
        refine ⟨?_, .inl (haccepts.frame.1.trans hpacker)⟩
        exact haccepts.frame.2 hin.1
      obtain ⟨hknown, chunks, pending, hcarries, hopen⟩ := hkept entry hentry hstart
      rw [show final.state = _ from hstate]
      exact ⟨hknown, chunks, pending, hcarries, hopen.mode, hopen.pending?⟩
    · rintro _ ⟨rest, final⟩ ⟨⟨chunks, haccepts, -⟩, -⟩
      exact h.accepts hin haccepts
  · obtain ⟨error, hdeclined⟩ := PackerCall.declines_of_isInContent hin
      (fun input hcall => hinsert ⟨input, hcall⟩) hend
    rw [hdeclined]
    exact h

variable [ByteSource ι] [ByteSink τ] [ByteSource σ]

/-- **A call outside of content** that begins no entry stays outside. -/
theorem HandleCall.not_isInContent_after (hin : ¬ handle.state.IsInContent) {call : HandleCall ι τ}
    (hbegin : ∀ info, call ≠ .packer (.beginFile info)) :
    ¬ (call.after handle).state.IsInContent := by
  have hkeeps {result : EStateM.Result ArchiveError (Archive σ) Unit} (h : KeepsUse handle result)
      (hreading : handle.state.IsWriting → ∃ error, result = .error error handle) :
      Outcome (fun _ final => ¬ final.state.IsInContent) (fun _ final => ¬ final.state.IsInContent)
        result := by
    by_cases hmode : handle.state.IsWriting
    · obtain ⟨error, rfl⟩ := hreading hmode
      exact hin
    · have huse (final : Archive σ) (h : handle.state.Continues final.state) :
          ¬ final.state.IsInContent := by
        rintro ⟨hwriting, -⟩
        rw [HandleState.IsWriting, ← Mode.exists_use_eq_writing, h.use,
          Mode.exists_use_eq_writing] at hwriting
        exact hmode hwriting
      exact h.mono (fun _ final h => huse final h) fun _ final h => huse final h.1
  refine HandleCall.of_outcome (fun final => ¬ final.state.IsInContent) ?_
  cases call with
  | startReading =>
    refine (effect_startReading handle).mono ?_ fun _ final h => h.1.not_isInContent hin
    rintro _ final (⟨rfl, -⟩ | ⟨state, -, -, hturned⟩)
    · exact hin
    · exact fun h => h.1.not_isReading (isReading_of_turnedToReading hturned)
  | startWriting =>
    refine (effect_startWriting handle).mono ?_ fun _ _ h =>
      HandleState.not_isInContent_of_packer (.inl (by rw [h.2.1]; rfl))
    rintro _ final (⟨rfl, -⟩ | ⟨-, hstate⟩)
    · exact hin
    · exact HandleState.not_isInContent_of_packer (.inl (by rw [hstate]; rfl))
  | writeMarker =>
    refine (effect_writeMarker handle).mono (fun _ final h h' => ?_) fun _ final h h' => ?_
    · exact hin ⟨⟨_, h.1⟩, by rw [h.2] at h'; exact h'.2⟩
    · exact hin (h.1 ▸ h')
  | reader call =>
    exact hkeeps (call.keepsUse handle) fun hmode => call.declines_of_not_isReading hmode.not_isReading
  | writer call =>
    by_cases hmode : handle.state.IsWriting
    · refine (call.keepsPacker handle).mono (fun _ _ h h' => ?_) fun _ _ h h' => ?_
      all_goals exact hin ⟨hmode, h.1 ▸ h'.2⟩
    · refine (WriterCall.state_of_not_isWriting hmode call).mono (fun _ _ h h' => ?_) fun _ _ h h' => ?_
      all_goals exact hin (h ▸ h')
  | unpacker call =>
    exact hkeeps (call.keepsUse handle) fun hmode => call.declines_of_not_isReading hmode.not_isReading
  | packer call =>
    refine (PackerCall.not_isInContent hin call).mono (fun _ _ h => ?_) fun _ _ h => h
    exact h fun info hinfo => hbegin info (hinfo ▸ rfl)

/-- The entry that has begun is the one that was asked for, where its record was put. -/
theorem HandleCall.entryAfter_of_begun {info : EntryInfo} {final : Archive σ}
    (h : (packer (.beginFile info) : HandleCall ι τ).run handle = .ok () final)
    (begun? : Option OpenEntry) :
    (packer (.beginFile info) : HandleCall ι τ).entryAfter handle begun?
      = some ⟨info, handle.state.options, final.pending?.bind PendingPayload.offset?⟩ := by
  unfold entryAfter
  rw [h]

/-- A call that may end the payload ends the entry just where it does. -/
theorem HandleCall.entryAfter_of_mayEndPayload {call : HandleCall ι τ}
    (hcall : call.mayEndPayload = true) (begun? : Option OpenEntry) :
    call.entryAfter handle begun?
      = if handle.LeavesPayload (call.after handle) then none else begun? := by
  unfold entryAfter
  split
  next => cases hcall
  next => cases hcall
  next => simp only [hcall, true_and]

/-- Every other call leaves the entry. -/
theorem HandleCall.entryAfter_of_other {call : HandleCall ι τ} (hcall : call.mayEndPayload = false)
    (hbegin : ∀ info, call ≠ .packer (.beginFile info)) (hend : call ≠ .packer .endFile)
    (begun? : Option OpenEntry) : call.entryAfter handle begun? = begun? := by
  unfold entryAfter
  split
  next info _ _ _ => exact absurd rfl (hbegin info)
  next => exact absurd rfl hend
  next => simp [hcall]

/-- In the content of an entry, what may end its payload forgets the entry if it does so. -/
theorem HandleCall.holdsEntry_of_mayEndPayload {call : HandleCall ι τ}
    (hcall : call.mayEndPayload = true) {begun? : Option OpenEntry}
    (h : HoldsEntry begun? handle.state) (hin : handle.state.IsInContent)
    (hkeeps : (call.after handle).state.KeepsPending)
    (hfile : (call.after handle).state.IsInContent →
      (call.after handle).state.currentFile? = handle.state.currentFile?) :
    HoldsEntry (call.entryAfter handle begun?) (call.after handle).state := by
  rw [entryAfter_of_mayEndPayload hcall]
  split
  next => exact .none _
  next hpending =>
    by_cases hafter : (call.after handle).state.IsInContent
    · exact h.of_not_leavesPayload hin hpending hkeeps (hfile hafter)
    · exact .of_not_isInContent hafter

/-- In content, what may end the payload does not change which entry that is of. -/
theorem HandleCall.currentFile?_of_mayEndPayload {call : HandleCall ι τ}
    (hcall : call.mayEndPayload = true) (hin : handle.state.IsInContent)
    (hafter : (call.after handle).state.IsInContent) :
    (call.after handle).state.currentFile? = handle.state.currentFile? := by
  refine HandleCall.of_outcome (fun final => final.state.IsInContent →
    final.state.currentFile? = handle.state.currentFile?) ?_ hafter
  cases call with
  | startReading =>
    refine (effect_startReading handle).mono ?_ fun _ _ h _ => h.1.keepsPacker.2
    rintro _ final (⟨rfl, -⟩ | ⟨state, -, -, hturned⟩)
    · exact fun _ => rfl
    · exact fun h => absurd (isReading_of_turnedToReading hturned) h.1.not_isReading
  | writer call =>
    exact (call.keepsPacker handle).mono (fun _ _ h _ => h.2) fun _ _ h _ => h.2
  | _ => cases hcall

/-- An entry that begins opens its payload, and one that cannot begin leaves the payload that is open. -/
theorem HandleCall.holdsEntry_of_beginFile (info : EntryInfo) {begun? : Option OpenEntry}
    (h : HoldsEntry begun? handle.state) :
    HoldsEntry ((packer (.beginFile info) : HandleCall ι τ).entryAfter handle begun?)
      ((packer (.beginFile info) : HandleCall ι τ).after handle).state := by
  unfold after entryAfter
  cases hrun : (packer (.beginFile info) : HandleCall ι τ).run handle with
  | ok value final => exact holdsEntry_beginFile hrun
  | error error final =>
    simp only [mayEndPayload, Bool.false_eq_true, false_and, if_false]
    by_cases hin : handle.state.IsInContent
    · have hdeclines : handle.Declines (PackerCall.beginFile info : PackerCall ι).run :=
        PackerCall.declines_of_isInContent hin nofun nofun
      obtain ⟨error', hdeclined⟩ := hdeclines
      cases hdeclined.symm.trans hrun
      exact h
    · refine .of_not_isInContent ?_
      exact ((effect_beginFile info handle).of_error hrun).1.not_isInContent hin

/-- An entry that ends has no open payload, and one that cannot end keeps what it has. -/
theorem HandleCall.holdsEntry_of_endFile {begun? : Option OpenEntry}
    (h : HoldsEntry begun? handle.state) :
    HoldsEntry ((packer .endFile : HandleCall ι τ).entryAfter handle begun?)
      ((packer .endFile : HandleCall ι τ).after handle).state := by
  unfold after entryAfter
  cases hrun : (packer .endFile : HandleCall ι τ).run handle with
  | ok value final => exact .none _
  | error error final =>
    simp only [mayEndPayload, Bool.false_eq_true, false_and, if_false]
    exact h.of_attempted ((effect_endFile handle).of_error hrun).1

/-- In the content of an entry, a call that cannot end its payload leaves that to it. -/
theorem HandleCall.holdsEntry_of_other {call : HandleCall ι τ} (hcall : call.mayEndPayload = false)
    (hend : call ≠ .packer .endFile) {begun? : Option OpenEntry}
    (h : HoldsEntry begun? handle.state) (hin : handle.state.IsInContent) :
    HoldsEntry begun? (call.after handle).state := by
  have hreading : ¬ handle.state.IsReading := hin.1.not_isReading
  have hsame (final : Archive σ) (hstate : final.state = handle.state) :
      HoldsEntry begun? final.state := hstate ▸ h
  refine HandleCall.of_outcome (fun final => HoldsEntry begun? final.state) ?_
  cases call with
  | startReading => cases hcall
  | startWriting =>
    refine (effect_startWriting handle).mono ?_ fun _ _ h => absurd hin.1 h.1
    rintro _ final (⟨rfl, -⟩ | ⟨hnot, -⟩)
    · exact h
    · exact absurd hin.1 hnot
  | writeMarker =>
    refine (effect_writeMarker handle).mono (fun _ final hfinal => ?_) fun _ final h => hsame final h.1
    -- Inside a payload the marker has been written.
    intro entry hentry _
    obtain ⟨-, chunks, pending, -, hopen⟩ := h entry hentry hin
    cases hfinal.1.symm.trans hopen.mode
  | reader call =>
    obtain ⟨error, hdeclined⟩ := call.declines_of_not_isReading hreading
    rw [run, hdeclined]
    exact h
  | unpacker call =>
    obtain ⟨error, hdeclined⟩ := call.declines_of_not_isReading hreading
    rw [run, hdeclined]
    exact h
  | writer call =>
    cases call with
    | append chunk =>
      refine (effect_writeAddedData chunk handle).mono ?_ fun _ final h => hsame final h.1
      rintro _ final ⟨pending, hopen, hchunk, hstate⟩
      exact h.accepts hin (.inr ⟨pending, _, hopen, .add .nil hchunk, hstate⟩)
    | flush =>
      exact (effect_flushStream handle.stream handle.state).mono (fun _ final h => hsame final h)
        fun _ final h => hsame final h.1
    | _ => cases hcall
  | packer call => exact call.holdsEntry h hin fun hcall => hend (hcall ▸ rfl)

/-- **One call** leaves the open payload to the entry. -/
theorem HandleCall.holdsEntry (call : HandleCall ι τ) {begun? : Option OpenEntry}
    (h : HoldsEntry begun? handle.state) (hkeeps : (call.after handle).state.KeepsPending) :
    HoldsEntry (call.entryAfter handle begun?) (call.after handle).state := by
  by_cases hbegin : ∃ info, call = .packer (.beginFile info)
  · obtain ⟨info, rfl⟩ := hbegin
    exact holdsEntry_of_beginFile info h
  have hbegin' (info : EntryInfo) : call ≠ .packer (.beginFile info) :=
    fun hcall => hbegin ⟨info, hcall⟩
  by_cases hin : handle.state.IsInContent
  case neg => exact .of_not_isInContent (not_isInContent_after hin hbegin')
  by_cases hmay : call.mayEndPayload = true
  · exact holdsEntry_of_mayEndPayload hmay h hin hkeeps (currentFile?_of_mayEndPayload hmay hin)
  by_cases hend : call = .packer .endFile
  · subst hend
    exact holdsEntry_of_endFile h
  rw [entryAfter_of_other (Bool.eq_false_iff.mpr hmay) hbegin' hend]
  exact holdsEntry_of_other (Bool.eq_false_iff.mpr hmay) hend h hin

end Calls

/-! ## Runs -/

/-- **A handle in use**, with the entry whose payload is open: it has been made on a stream, and calls of
all layers were made on it, whatever the stream did, and whatever the caller did to the stream between
them. -/
inductive EntryRun [ByteSource σ] [ByteSink σ] [Seekable σ] : Option OpenEntry → Archive σ → Prop
  /-- A handle that is used for nothing yet. -/
  | ofStream (stream : σ) (options : ArchiveOptions) : EntryRun none (.ofStream stream options)
  /-- A handle that reads. -/
  | reader (stream : σ) : EntryRun none (.reader stream)
  /-- The caller has changed the stream. -/
  | replaced {begun? : Option OpenEntry} {handle : Archive σ} (h : EntryRun begun? handle)
    (stream : σ) : EntryRun begun? { handle with stream }
  /-- A call has been made, with or without success. -/
  | called {ι τ : Type} [ByteSource ι] [ByteSink τ] {begun? : Option OpenEntry} {handle : Archive σ}
    (h : EntryRun begun? handle) (call : HandleCall ι τ) :
    EntryRun (call.entryAfter handle begun?) (call.after handle)

/-- A run with an entry is a run of a handle in use. -/
theorem EntryRun.exists_inUse [ByteSource σ] [ByteSink σ] [Seekable σ] {begun? : Option OpenEntry}
    {handle : Archive σ} (h : EntryRun begun? handle) : ∃ draft?, InUse draft? handle := by
  induction h with
  | ofStream stream options => exact ⟨_, .ofStream stream options⟩
  | reader stream => exact ⟨_, .reader stream⟩
  | replaced _ stream ih =>
    obtain ⟨draft?, hused⟩ := ih
    exact ⟨draft?, hused.replaced stream⟩
  | called _ call ih =>
    obtain ⟨draft?, hused⟩ := ih
    exact hused.exists_after call

/-- **Along a run** the handle in content holds the entry that has begun. -/
theorem EntryRun.holdsEntry [ByteSource σ] [ByteSink σ] [Seekable σ] {begun? : Option OpenEntry}
    {handle : Archive σ} (h : EntryRun begun? handle) : HoldsEntry begun? handle.state := by
  induction h with
  | ofStream => exact .none _
  | reader => exact .none _
  | replaced _ _ ih => exact ih
  | called hrun call ih =>
    obtain ⟨draft?, hused⟩ := hrun.exists_inUse
    obtain ⟨latest?, hafter⟩ := hused.exists_after call
    exact call.holdsEntry ih hafter.isKept.keepsPending

/-- Seals a payload as the content of an entry. -/
def Archive.sealEntry [ByteSink σ] [Seekable σ] (pending : PendingPayload) : Call σ Unit := do
  if pending.isExact ∧ !pending.hasCrc then pure () else sealHeader pending
  update fun state =>
    { state with
      mode := .writing .atRecord
      pending? := none
      currentFile? := none
      packer := .fileHeader }

/-- Behind the content of an entry the payload that is open is sealed. -/
theorem Archive.endFile_eq_sealEntry [ByteSink σ] [Seekable σ] {handle : Archive σ}
    {pending : PendingPayload} (hopen : handle.state.IsOpen pending)
    (hpacker : handle.state.packer = .afterFileData) :
    endFile handle = sealEntry pending handle := by
  have hexpect : expectPacker [.afterFileData] "end_file" handle = .ok () handle := by
    rw [expectPacker, bind_of_ok (state_apply handle), hopen.mode]
    exact require_of (by simp [hpacker]) _ _
  rw [endFile, bind_of_ok hexpect, finishAddedData, bind_apply,
    bind_of_ok (expectPending_of_isOpen hopen _), sealEntry]
  by_cases hexact : pending.isExact ∧ !pending.hasCrc
  · rw [if_pos hexact, if_pos hexact]
    rfl
  · rw [if_neg hexact, if_neg hexact, bind_apply, bind_apply]
    cases sealHeader pending handle with
    | ok value final => rfl
    | error error final => rfl

/-- A copy has added chunks to a payload which are, in a row, the front part of the stream that has been
counted. -/
def Archive.CopiesInto [ByteSource ι] (handle : Archive σ) (pending : PendingPayload) (input : ι)
    (final : CopySource ι × Archive σ) : Prop :=
  ∃ chunks accepted, pending.Accepts chunks accepted ∧
    chunks.flatten
      = (ByteSource.offered handle.state.options.copySize input).take final.1.total ∧
    final.2.state.IsOpen accepted

/-- **The payload of an entry** is the one that is open. -/
structure OwnsPayload [ByteSink σ] [Seekable σ] (entry : OpenEntry) (handle : Archive σ)
    (pending : PendingPayload) : Prop where
  /-- The packer knows the entry. -/
  currentFile : handle.state.currentFile? = some entry.info
  /-- The writer stands inside the payload. -/
  isOpen : handle.state.IsOpen pending
  /-- It is the payload of the file header with the metadata of the entry. -/
  header : pending.record.kind = .fileHeader ∧ pending.record.data = entry.info.toBytes
  /-- Its position is the one that beginning the entry has noted. -/
  offset? : pending.offset? = entry.offset?
  /-- Nothing but chunks that fit was added since, and only attempts to seal these have changed the
  record. -/
  carriesOn : ∃ chunks accepted, entry.opened.CarriesOn chunks pending ∧
    entry.opened.Accepts chunks accepted ∧ pending = { accepted with record := pending.record }
  /-- What is copied into the entry goes to this payload, whether the copy succeeds or not. -/
  insert : ∀ {ι : Type} [ByteSource ι] (input : ι),
    Outcome (fun _ final => handle.CopiesInto pending input final)
      (fun _ final => handle.CopiesInto pending input final)
      (insertFileData ((⟨input, 0⟩ : CopySource ι), handle))
  /-- Ending the entry seals this payload. -/
  seals : handle.state.packer = .afterFileData → endFile handle = sealEntry pending handle

/-- **File data lands in its own entry**: whenever a handle is written to inside the content of an entry,
or behind it, and no call of the record layer and none that turns the handle has ended the payload since
the entry was begun, then the open payload is that of the entry. -/
theorem EntryRun.ownsPayload [ByteSource σ] [ByteSink σ] [Seekable σ] {entry : OpenEntry}
    {handle : Archive σ} (h : EntryRun (some entry) handle) (hin : handle.state.IsInContent) :
    ∃ pending, OwnsPayload entry handle pending := by
  obtain ⟨hfile, chunks, pending, hcarries, hopen⟩ := h.holdsEntry entry rfl hin
  obtain ⟨hkind, hdata, -, -, -⟩ := openingRecord_spec entry.options entry.info
  obtain ⟨hkept, -, hmetadata, hoffset⟩ := hcarries.frame
  obtain ⟨taken, haccepts, hrest⟩ := hcarries.exists_accepts
  refine ⟨pending, hfile, hopen, ⟨hkept.trans hkind, hmetadata.trans hdata⟩, hoffset,
    ⟨chunks, taken, hcarries, haccepts, hrest⟩, fun input => ?_, endFile_eq_sealEntry hopen⟩
  · have hcopies {more : List (List UInt8)} {state : HandleState} (hmore : handle.state.Accepts more state) :
        ∃ accepted, pending.Accepts more accepted ∧ state.IsOpen accepted := by
      rcases hmore with ⟨rfl, rfl⟩ | ⟨opened, accepted, hopened, hchunks, rfl⟩
      · exact ⟨pending, .nil, hopen⟩
      · obtain rfl := hopen.unique hopened
        exact ⟨accepted, hchunks, handle.state.isOpen_writingAt _⟩
    refine (outcome_insertFileData input handle).mono ?_ ?_
    · rintro _ ⟨rest, final⟩ ⟨more, state, hmore, hbytes, -, -, hstate⟩
      obtain ⟨accepted, hchunks, hplace⟩ := hcopies hmore
      have hfinal : final.state = { state with packer := .afterFileData } := hstate
      exact ⟨more, accepted, hchunks, hbytes, hfinal ▸ ⟨hplace.mode, hplace.pending?⟩⟩
    · rintro _ ⟨rest, final⟩ ⟨⟨more, hmore, hbytes⟩, -⟩
      obtain ⟨accepted, hchunks, hplace⟩ := hcopies hmore
      exact ⟨more, accepted, hchunks, hbytes, hplace⟩

/-! ### An entry that was begun -/

/-- An archive in memory that has no entry yet. -/
def emptyArchive : Archive MemoryStream :=
  betweenRecords {} (Marker.bytes ++ ArchiveHeader.current.record.fixed.toBytes)
    { packer := .fileHeader }

/-- The payload of its first entry, of which nothing was written. -/
def begunDraft : Draft := ⟨openingRecord {} (.regular "a"), []⟩

/-- The file header of the entry can be written. -/
theorem fits_begunDraft : begunDraft.Fits :=
  ⟨⟨fun _ => Nat.zero_le _, by decide +kernel⟩, Nat.zero_le _⟩

/-- The archive inside the content of that entry. -/
def archiveInside (draft : Draft) : Archive MemoryStream :=
  insidePayload {} (Marker.bytes ++ ArchiveHeader.current.record.fixed.toBytes) draft
    { packer := .fileData, currentFile? := some (.regular "a") }

/-- Behind the start of the entry the handle is in its content. -/
theorem isInContent_archiveInside (draft : Draft) : (archiveInside draft).state.IsInContent :=
  ⟨⟨_, rfl⟩, .inl rfl⟩

/-- The entry that was begun. -/
def begunEntry : OpenEntry := ⟨.regular "a", {}, some 14⟩

/-- Opening the archive and beginning the entry are a run. -/
theorem entryRun_begun : EntryRun (some begunEntry) (archiveInside begunDraft) := by
  have hinit : HandleCall.run (.packer .initArchive : HandleCall (List UInt8) BoundedSink)
      (Archive.ofStream ({} : MemoryStream) {}) = .ok () emptyArchive := initArchive_ofStream {} {}
  have hbegin : HandleCall.run (.packer (.beginFile (.regular "a")) :
      HandleCall (List UInt8) BoundedSink) emptyArchive = .ok () (archiveInside begunDraft) :=
    beginFile_eq_ok.mpr ⟨by decide, ⟨by decide, ⟨fun _ => Nat.zero_le _, by decide +kernel⟩⟩,
      fits_begunDraft.record, rfl⟩
  have hempty := (EntryRun.ofStream ({} : MemoryStream) {}).called
    (.packer .initArchive : HandleCall (List UInt8) BoundedSink)
  rw [HandleCall.after_of_ok hinit] at hempty
  have hbegun := hempty.called (.packer (.beginFile (.regular "a")) : HandleCall (List UInt8) BoundedSink)
  rw [HandleCall.after_of_ok hbegin, HandleCall.entryAfter_of_begun hbegin] at hbegun
  exact hbegun

/-- A chunk that is added by the record layer lands in the entry as well. -/
theorem EntryRun.ownsPayload_appended : ∃ pending,
    EntryRun (some begunEntry) (archiveInside (begunDraft.add [1, 2])) ∧
      (archiveInside (begunDraft.add [1, 2])).state.IsInContent ∧
      OwnsPayload begunEntry (archiveInside (begunDraft.add [1, 2])) pending := by
  have happend : HandleCall.run (.writer (.append [1, 2]) : HandleCall (List UInt8) BoundedSink)
      (archiveInside begunDraft) = .ok () (archiveInside (begunDraft.add [1, 2])) :=
    (writeAddedData_insidePayload [1, 2]).trans (if_pos (by decide +kernel))
  have hrun := entryRun_begun.called (.writer (.append [1, 2]) : HandleCall (List UInt8) BoundedSink)
  have hsame : HandleCall.entryAfter (archiveInside begunDraft) (some begunEntry)
      (.writer (.append [1, 2]) : HandleCall (List UInt8) BoundedSink) = some begunEntry := rfl
  rw [HandleCall.after_of_ok happend, hsame] at hrun
  obtain ⟨pending, howns⟩ := hrun.ownsPayload (isInContent_archiveInside _)
  exact ⟨pending, hrun, isInContent_archiveInside _, howns⟩

/-! ### A record that takes the place of the entry -/

/-- A fragment whose size is noted behind its payload. -/
def strayFragment : Record := { kind := .dataFragment, flags := RecordFlags.narrowSize }

/-- **A record that is started inside the content of an entry** ends its payload, and the packer goes on
to write to that record. -/
theorem EntryRun.exists_strayed : ∃ handle : Archive MemoryStream, ∃ pending,
    EntryRun none handle ∧ handle.state.IsInContent ∧
      handle.state.currentFile? = some (.regular "a") ∧
      handle.state.IsOpen pending ∧ pending.record.kind = .dataFragment := by
  have hready : readyForRecord "write_record" (archiveInside begunDraft) = .ok () _ :=
    readyForRecord_insidePayload fits_begunDraft rfl _
  have hstart : HandleCall.run (.writer (.start strayFragment) : HandleCall (List UInt8) BoundedSink)
      (archiveInside begunDraft) = .ok () (insidePayload _ _ ⟨strayFragment, []⟩ _) :=
    CallWith.withValue_of_ok (writeRecord_of_ready hready ⟨fun _ => Nat.zero_le _, by decide +kernel⟩)
  have hrun := entryRun_begun.called
    (.writer (.start strayFragment) : HandleCall (List UInt8) BoundedSink)
  rw [HandleCall.entryAfter_of_mayEndPayload rfl, HandleCall.after_of_ok hstart, if_pos ?ended] at hrun
  case ended =>
    have hinside : (archiveInside begunDraft).state.IsOpen (begunDraft.account (some _)) :=
      isOpen_insidePayload
    have hkind : RecordKind.dataFragment ≠ RecordKind.fileHeader := nofun
    exact leavesPayload_of_kind_ne hinside isOpen_insidePayload hkind
  exact ⟨_, _, hrun, ⟨⟨_, rfl⟩, .inl rfl⟩, rfl, isOpen_insidePayload, rfl⟩

end RecordArchive
