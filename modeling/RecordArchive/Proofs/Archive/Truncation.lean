import RecordArchive.Proofs.Archive.Extraction
import RecordArchive.Proofs.Archive.FrontRecord

/-! # Entries that are cut off

A stream may end anywhere. Where it ends between two records a reader finds a boundary, even if the
second record should continue an entry; everywhere else it finds that something is missing.

* `IsCut segments bytes error`: the records in a row are cut behind these bytes, and the error says
  whether that is in front of a record or inside one.
* `Archive.readRecord_of_isCut`: a reader in front of the records finds the error or takes the first
  one of them.
* `CutOff error handle`: the cut is ahead of a handle inside an entry. Taking payload, entering
  records and skipping keep this, or find the error.
* `Archive.unpackEntry_of_isCut`, `Archive.skipFile_of_isCut`: extracting and skipping an entry that is
  cut off find the error. -/

namespace RecordArchive

open Program Call

variable {σ τ : Type}

/-! ## Records that are cut off -/

/-- **A cut through records in a row**, behind these bytes: in front of a record or inside one. -/
inductive IsCut : List Segment → List UInt8 → ArchiveError → Prop
  /-- In front of the first record. -/
  | boundary (segment : Segment) (later : List Segment) : IsCut (segment :: later) [] .eof
  /-- Inside the first record. -/
  | record {segment : Segment} {front back : List UInt8} (later : List Segment)
      (hbytes : segment.record.toBytes = front ++ back) (hfront : front ≠ []) (hback : back ≠ []) :
      IsCut (segment :: later) front .prematureEof
  /-- Inside its payload, or behind the record if it has a payload. -/
  | payload {segment : Segment} {front : List UInt8} (later : List Segment)
      (hshort : front.length < segment.payload.length) :
      IsCut (segment :: later) (segment.record.toBytes ++ front) .prematureEof
  /-- Behind the first record and its payload. -/
  | behind {later : List Segment} {bytes : List UInt8} {error : ArchiveError} (segment : Segment)
      (h : IsCut later bytes error) : IsCut (segment :: later) (segment.toBytes ++ bytes) error

/-- What is left of the cut behind a record: it goes through the payload or the later records. -/
def IsCutBehind (segment : Segment) (later : List Segment) (rest : List UInt8)
    (error : ArchiveError) : Prop :=
  rest.length < segment.payload.length ∧ error = .prematureEof ∨
    ∃ bytes, rest = segment.payload ++ bytes ∧ IsCut later bytes error

namespace Archive

/-- **A reader in front of records that are cut off** finds the cut, or takes the first record and has
the cut behind it. -/
theorem readRecord_of_isCut {segment : Segment} {later : List Segment} {bytes : List UInt8}
    {error : ArchiveError} (h : IsCut (segment :: later) bytes error)
    (hnormal : segment.record.IsNormal) {state : HandleState}
    (hmode : state.mode = .reading .atRecordHeader) :
    Outcome (fun record final => record = segment.record ∧ ∃ rest,
        final = ⟨rest, state.behind segment.record⟩ ∧ IsCutBehind segment later rest error)
      (fun found _ => found = error) (readRecord ⟨bytes, state⟩) := by
  have htaken (rest : List UInt8) : readRecord ⟨segment.record.toBytes ++ rest, state⟩
      = .ok segment.record ⟨rest, state.behind segment.record⟩ :=
    readRecord_eq_ok.mpr ⟨hmode, hnormal, rest, rfl, rfl⟩
  cases h with
  | boundary =>
    rw [readRecord_nil hmode]
    exact rfl
  | record _ hbytes hfront hback =>
    rw [readRecord_of_endsInside hmode hfront (hnormal.endsInside hbytes hback)]
    exact rfl
  | payload _ hshort =>
    rw [htaken]
    exact ⟨rfl, _, rfl, .inl ⟨hshort, rfl⟩⟩
  | @behind _ bytes _ _ hlater =>
    rw [Segment.toBytes, List.append_assoc, htaken]
    exact ⟨rfl, _, rfl, .inr ⟨bytes, rfl, hlater⟩⟩

end Archive

/-! ## Content that is cut off -/

/-- **The cut that is ahead** of a handle inside an entry: it goes through the current payload, or it
lies behind that, in the records that continue the entry. -/
inductive CutOff (error : ArchiveError) : Archive (List UInt8) → Prop
  /-- Through the current payload. -/
  | payload {bytes : List UInt8} {state : HandleState} (hmode : state.mode = .reading .atAddedData)
      (hshort : bytes.length < state.incoming.remaining) (herror : error = .prematureEof) :
    CutOff error ⟨bytes, state⟩
  /-- In the records that continue the entry. -/
  | later {current bytes : List UInt8} {later : List Segment} {state : HandleState}
      (hcurrent : IsCurrent state.mode state.incoming current)
      (hlater : IsContinuation state.entry.continued later) (hcut : IsCut later bytes error) :
    CutOff error ⟨current ++ bytes, state⟩

/-- Behind a record that belongs to the entry the cut is ahead. -/
theorem cutOff_behind {segment : Segment} {later : List Segment} {rest : List UInt8}
    {error : ArchiveError} (h : IsCutBehind segment later rest error) (hsound : segment.IsSound)
    {state : HandleState} (hmode : state.mode = (state.behind segment.record).mode)
    (hincoming : state.incoming = .ofRecord segment.record)
    (hlater : IsContinuation state.entry.continued later) : CutOff error ⟨rest, state⟩ := by
  rcases h with ⟨hshort, herror⟩ | ⟨bytes, rfl, hcut⟩
  · -- There is a payload, so the record announces one.
    have hsize : segment.record.hasAddedSize = true := by
      refine Decidable.byContradiction fun habsent => ?_
      rw [hsound.payload_eq_nil habsent] at hshort
      exact absurd hshort (Nat.not_lt_zero _)
    rw [HandleState.mode_behind, if_pos hsize] at hmode
    refine .payload hmode ?_ herror
    rw [hincoming, IncomingPayload.remaining_ofRecord hsize, ← hsound.length_eq]
    exact hshort
  · exact .later ((isCurrent_iff_isSound hsound.normal hmode hincoming).mpr hsound) hlater hcut

/-! ### Reading content -/

open Archive

/-- **Taking payload** keeps the cut ahead, or finds it. -/
theorem CutOff.outcome_takePayload {count : Nat} (hcount : 0 < count) {error : ArchiveError}
    {handle : Archive (List UInt8)} (h : CutOff error handle) :
    Outcome (fun taken final => CutOff error final ∧
        (taken = [] → final.state.mode = .reading .atRecordHeader))
      (fun found _ => found = error) (takePayload count handle) := by
  cases h with
  | @payload bytes state hmode hshort herror =>
    rw [takePayload, bind_of_ok (state_apply _), if_pos hmode]
    refine (outcome_readAddedData_of_short count hmode hshort).mono ?_ fun _ _ h => h.trans herror.symm
    rintro taken final ⟨htaken, hinside, hrest⟩
    refine ⟨.payload hinside hrest herror, ?_⟩
    -- Something is asked for and something is left, so some bytes come back.
    rintro rfl
    rcases transferLength_eq_zero.mp htaken.symm with hzero | hzero
    · omega
    · omega
  | @later current bytes later state hcurrent hlater hcut =>
    obtain ⟨taken, more, final, rfl, htake, hmore, hbetween⟩ :=
      takePayload_of_isCurrent hcount hcurrent bytes
    rw [← (takePayload_frame htake).2.1] at hlater
    rw [htake]
    exact ⟨.later hmore hlater hcut, hbetween⟩

/-- **Entering the next record** keeps the cut ahead, or finds it. -/
theorem CutOff.outcome_readFragment {error : ArchiveError} {handle : Archive (List UInt8)}
    (h : CutOff error handle) (hmode : handle.state.mode = .reading .atRecordHeader) :
    handle.state.entry.continued = true ∧
      Outcome (fun _ final => CutOff error final) (fun found _ => found = error)
        (readFragment handle) := by
  cases h with
  | payload hinside => exact absurd (hinside.symm.trans hmode) (by decide)
  | @later current bytes later state hcurrent hlater hcut =>
    rcases hcurrent with ⟨hinside, -, -⟩ | ⟨-, rfl⟩
    · exact absurd (hinside.symm.trans hmode) (by decide)
    -- There is a record in which or in front of which the cut is, so the entry goes on.
    generalize hcontinued : state.entry.continued = continued at hlater
    cases hlater with
    | last => cases hcut
    | @more segment later hkind hvalid hsound hlater =>
      refine ⟨rfl, Outcome.bind ((readRecord_of_isCut hcut hsound.normal hmode).mono ?_ ?_)⟩
      · rintro _ _ ⟨rfl, rest, rfl, hbehind⟩
        refine Outcome.bind (outcome_require (fun _ => ?_) fun h => absurd hkind h)
        refine Outcome.bind (outcome_require (fun _ => ?_) fun h => absurd hvalid h)
        exact cutOff_behind hbehind hsound rfl rfl hlater
      · exact fun _ _ h => h

/-- The cut stays ahead while content is counted. -/
theorem CutOff.consume {error : ArchiveError} {bytes : List UInt8} {state : HandleState}
    (h : CutOff error ⟨bytes, state⟩) (taken : List UInt8) :
    CutOff error ⟨bytes, { state with entry := state.entry.consume taken }⟩ := by
  cases h with
  | payload hmode hshort herror => exact .payload hmode hshort herror
  | later hcurrent hlater hcut => exact .later hcurrent hlater hcut

/-- **A round of reading content** keeps the cut ahead, or finds it. -/
theorem CutOff.outcome_readRound {count : Nat} (hcount : 0 < count) {error : ArchiveError}
    {handle : Archive (List UInt8)} (h : CutOff error handle) :
    Outcome (fun round final => CutOff error final ∧ round ≠ some [])
      (fun found _ => found = error) (readRound count handle) := by
  refine Outcome.bind ((h.outcome_takePayload hcount).mono ?_ fun _ _ h => h)
  rintro taken ⟨bytes, state⟩ ⟨hcut, hbetween⟩
  rw [bind_of_ok (state_apply _)]
  by_cases hne : taken ≠ []
  · rw [if_pos hne]
    exact ⟨hcut.consume taken, fun h => hne (Option.some.inj h)⟩
  · obtain ⟨hcontinued, hfragment⟩ :=
      hcut.outcome_readFragment (hbetween (Decidable.not_not.mp hne))
    rw [if_neg hne, if_pos hcontinued]
    exact Outcome.bind (hfragment.mono (fun _ _ hfinal => ⟨hfinal, nofun⟩) fun _ _ h => h)

/-- The cut is ahead of a handle inside an entry. -/
structure IsCutAhead (error : ArchiveError) (handle : Archive (List UInt8)) : Prop where
  cut : CutOff error handle
  inside : handle.state.IsInsideEntry

/-- **Reading content** gives some of it, or finds the cut. -/
theorem IsCutAhead.outcome_readFileData {count : Nat} (hcount : 0 < count) {error : ArchiveError}
    {handle : Archive (List UInt8)} (h : IsCutAhead error handle) :
    Outcome (fun taken final => taken ≠ [] ∧ IsCutAhead error final) (fun found _ => found = error)
      (readFileData count handle) := by
  rw [readFileData_of_isInside hcount h.inside]
  refine Outcome.repeatUntil (IsCutAhead error) (fun start hstart => ?_) h
  have hround := hstart.cut.outcome_readRound hcount
  cases hrun : readRound count start with
  | error found final => exact hround.of_error hrun
  | ok round final =>
    obtain ⟨hcut, hne⟩ := hround.of_ok hrun
    cases round with
    | none => exact ⟨hcut, isInside_of_readRound hstart.inside hrun⟩
    | some taken =>
      have htaken : taken ≠ [] := fun h => hne (congrArg some h)
      exact ⟨htaken, hcut, (isAfter_of_readRound hcount hstart.inside hrun).inside htaken⟩

/-- **Extracting** copies some of the content and finds the cut. -/
theorem IsCutAhead.exists_extractRounds {count : Nat} (hcount : 0 < count) {error : ArchiveError}
    {handle : Archive (List UInt8)} (h : IsCutAhead error handle) (copy : CopySink (List UInt8)) :
    ∃ final, repeatUntil (extractRound count) copyBudget (extractRound_spends count) (copy, handle)
      = .error error final := by
  have houtcome : Outcome (fun _ _ => False) (fun found _ => found = error)
      (repeatUntil (extractRound count) copyBudget (extractRound_spends count) (copy, handle)) := by
    refine Outcome.repeatUntil (fun start => IsCutAhead error start.2) (fun start hstart => ?_) h
    obtain ⟨⟨held, total⟩, start⟩ := start
    refine Outcome.bind (outcome_lift ((hstart.outcome_readFileData hcount).mono ?_
      fun _ _ h => h))
    rintro taken final ⟨hne, hfinal⟩
    rw [if_neg hne, bind_of_ok (onValue_deliver_list taken held total final)]
    exact hfinal
  cases hrun : repeatUntil (extractRound count) copyBudget (extractRound_spends count)
    (copy, handle) with
  | ok _ final => exact (houtcome.of_ok hrun).elim
  | error found final =>
    obtain rfl : found = error := houtcome.of_error hrun
    exact ⟨final, rfl⟩

/-! ### Skipping content -/

namespace Archive

/-- The unread part of a payload is left, whatever lies behind it. -/
theorem leavePayload_of_isCurrent {current : List UInt8} {state : HandleState}
    (hcurrent : IsCurrent state.mode state.incoming current) (rest : List UInt8) : ∃ final,
      leavePayload ⟨current ++ rest, state⟩ = .ok () ⟨rest, final⟩ ∧
        final.mode = .reading .atRecordHeader ∧ final.entry = state.entry := by
  rw [leavePayload, bind_of_ok (state_apply _)]
  rcases hcurrent with ⟨hmode, hlength, -⟩ | ⟨hmode, rfl⟩
  · rw [if_pos hmode]
    exact ⟨state.skipped,
      (skipRecord_eq_ok_of_atAddedData hmode).mpr ⟨current, rest, hlength, rfl, rfl⟩, rfl, rfl⟩
  · rw [if_neg (by dsimp only; rw [hmode]; decide)]
    exact ⟨state, rfl, hmode, rfl⟩

/-- **A round of skipping** keeps what lies behind the entry, and comes to it at the end. -/
theorem outcome_skipRound {rest : List UInt8} {handle : Archive (List UInt8)}
    (h : ∃ content, Remaining content rest handle) :
    Outcome (fun round final => round.elim (∃ content, Remaining content rest final)
        fun _ => final.stream = rest ∧ final.state.mode = .reading .atRecordHeader)
      (fun _ _ => False) (skipRound handle) := by
  obtain ⟨content, hremaining⟩ := h
  obtain ⟨bytes, state⟩ := handle
  obtain ⟨current, later, rfl, rfl, hcurrent, hlater⟩ := hremaining
  obtain ⟨middle, hleave, hmode, hentry⟩ :=
    leavePayload_of_isCurrent hcurrent (segmentBytes later ++ rest)
  rw [← hentry] at hlater
  have hmiddle : Remaining (contentOf later) rest ⟨segmentBytes later ++ rest, middle⟩ :=
    ⟨[], later, rfl, rfl, .between hmode rfl, hlater⟩
  rw [List.append_assoc, skipRound, bind_of_ok hleave, bind_of_ok (state_apply _)]
  by_cases hcontinued : middle.entry.continued = true
  · obtain ⟨record, final, hrun, hfinal⟩ :=
      (remaining_iff_readFragment hmode hcontinued).mp hmiddle
    rw [if_pos hcontinued, bind_of_ok hrun]
    exact ⟨_, hfinal⟩
  · have hend := (remaining_iff_of_not_continued hmode (Bool.not_eq_true _ ▸ hcontinued)).mp hmiddle
    rw [if_neg hcontinued]
    exact ⟨hend.2, hmode⟩

/-- Between two entries skipping starts behind the next file header. -/
theorem beginSkip_of_readRecord {stream rest : σ} [ByteSource σ] {state : HandleState}
    (hstate : state.IsBetweenEntries) {record : Record}
    (hrun : readRecord ⟨stream, state⟩ = .ok record ⟨rest, state.behind record⟩)
    (hkind : record.kind = .fileHeader) (hvalid : record.isValid = true) :
    beginSkip ⟨stream, state⟩ = .ok () ⟨rest, state.continuedBy record⟩ := by
  have hrequire : require (record.kind = .fileHeader ∧ record.isValid)
      (.invalidData .misplacedFileHeader) (⟨rest, state.behind record⟩ : Archive σ)
        = .ok () ⟨rest, state.behind record⟩ := require_eq_ok.mpr ⟨⟨hkind, hvalid⟩, rfl⟩
  rw [beginSkip, bind_of_ok (state_apply _)]
  simp only [hstate.unpacker]
  rw [bind_of_ok hrun, bind_of_ok hrequire]
  rfl

/-- The rounds of skipping end where the entry ends. -/
theorem skipRounds_of_remaining {rest : List UInt8} {handle : Archive (List UInt8)}
    (h : ∃ content, Remaining content rest handle) : ∃ final,
      (repeatUntil skipRound readBudget skipRound_spends >>= fun _ => finishEntry) handle
        = .ok () ⟨rest, final⟩ ∧ final.IsBetweenEntries := by
  have hrounds : Outcome (fun _ final => final.stream = rest ∧
      final.state.mode = .reading .atRecordHeader) (fun _ _ => False)
      (repeatUntil skipRound readBudget skipRound_spends handle) :=
    Outcome.repeatUntil _ (fun _ hmiddle => outcome_skipRound hmiddle) h
  cases hrun : repeatUntil skipRound readBudget skipRound_spends handle with
  | error _ final => exact (hrounds.of_error hrun).elim
  | ok _ final =>
    obtain ⟨stream, behind⟩ := final
    obtain ⟨rfl, hmode⟩ := hrounds.of_ok hrun
    exact ⟨_, bind_of_ok hrun, hmode, rfl⟩

/-- **An entry is skipped** with all its records. -/
theorem skipFile_of_isEntry {info : EntryInfo} {first : Segment} {later : List Segment}
    (hentry : IsEntry info first later) (rest : List UInt8) {state : HandleState}
    (hstate : state.IsBetweenEntries) : ∃ final,
      skipFile ⟨segmentBytes (first :: later) ++ rest, state⟩ = .ok () ⟨rest, final⟩ ∧
        final.IsBetweenEntries := by
  obtain ⟨hheader, hsound, hlater, -⟩ := isEntry_iff.mp hentry
  obtain ⟨hvalid, hkind, -⟩ := ofRecord_eq_ok.mp hheader
  have hexpect : expectReading "skip_file" ⟨segmentBytes (first :: later) ++ rest, state⟩
      = .ok () ⟨segmentBytes (first :: later) ++ rest, state⟩ :=
    expectReading_eq_ok.mpr ⟨⟨_, hstate.mode⟩, rfl⟩
  have hrecord : readRecord ⟨segmentBytes (first :: later) ++ rest, state⟩
      = .ok first.record ⟨first.payload ++ segmentBytes later ++ rest,
        state.behind first.record⟩ := by
    refine readRecord_eq_ok.mpr ⟨hstate.mode, hsound.normal, _, ?_, rfl⟩
    rw [segmentBytes_cons, Segment.toBytes]
    simp only [List.append_assoc]
  have hopened : ∃ content, Remaining content rest
      ⟨first.payload ++ segmentBytes later ++ rest, state.continuedBy first.record⟩ :=
    ⟨_, (remaining_behind hsound.normal rfl rfl).mpr
      ⟨first.payload, later, hsound, rfl, rfl, hlater⟩⟩
  rw [skipFile, bind_of_ok hexpect,
    bind_of_ok (beginSkip_of_readRecord hstate hrecord hkind hvalid)]
  exact skipRounds_of_remaining hopened

/-- **The rest of an entry is skipped** once its metadata has been read. -/
theorem skipFile_of_isEntered {rest : List UInt8} {handle : Archive (List UInt8)}
    (hreading : ∃ place, handle.state.mode = .reading place)
    (hunpacker : handle.state.unpacker = .fileData ∨ handle.state.unpacker = .afterFileData)
    (h : ∃ content, Remaining content rest handle) : ∃ final,
      skipFile handle = .ok () ⟨rest, final⟩ ∧ final.IsBetweenEntries := by
  have hexpect : expectReading "skip_file" handle = .ok () handle :=
    expectReading_eq_ok.mpr ⟨hreading, rfl⟩
  have hbegin : beginSkip handle = .ok () handle := by
    rw [beginSkip, bind_of_ok (state_apply handle)]
    rcases hunpacker with hinside | hbehind
    · rw [hinside]
      rfl
    · rw [hbehind]
      rfl
  rw [skipFile, bind_of_ok hexpect, bind_of_ok hbegin]
  exact skipRounds_of_remaining h

end Archive

/-- Leaving a payload keeps the cut ahead, in the records that continue the entry, or finds it. -/
theorem CutOff.outcome_leavePayload {error : ArchiveError} {handle : Archive (List UInt8)}
    (h : CutOff error handle) :
    Outcome (fun _ final => CutOff error final ∧ final.state.mode = .reading .atRecordHeader)
      (fun found _ => found = error) (leavePayload handle) := by
  cases h with
  | @payload bytes state hmode hshort herror =>
    rw [leavePayload, bind_of_ok (state_apply _), if_pos hmode,
      skipRecord_of_short_rest hmode hshort]
    exact herror.symm
  | @later current bytes later state hcurrent hlater hcut =>
    obtain ⟨final, hrun, hmode, hentry⟩ := leavePayload_of_isCurrent hcurrent bytes
    rw [← hentry] at hlater
    rw [hrun]
    have hfinal : CutOff error ⟨[] ++ bytes, final⟩ := .later (.between hmode rfl) hlater hcut
    exact ⟨hfinal, hmode⟩

/-- **A round of skipping** keeps the cut ahead, or finds it. -/
theorem CutOff.outcome_skipRound {error : ArchiveError} {handle : Archive (List UInt8)}
    (h : CutOff error handle) :
    Outcome (fun round final => round.elim (CutOff error final) fun _ => False)
      (fun found _ => found = error) (skipRound handle) := by
  refine Outcome.bind (h.outcome_leavePayload.mono ?_ fun _ _ h => h)
  rintro _ middle ⟨hcut, hmode⟩
  obtain ⟨hcontinued, hfragment⟩ := hcut.outcome_readFragment hmode
  rw [bind_of_ok (state_apply _), if_pos hcontinued]
  exact Outcome.bind (hfragment.mono (fun _ _ hfinal => hfinal) fun _ _ h => h)

/-! ## Entries that are cut off -/

namespace Archive

section Calls

variable [ByteSource σ] [ByteSink τ]

/-- Reads the metadata of the next entry and extracts its content. -/
def unpackEntry : CallWith (CopySink τ) σ EntryInfo := do
  let info ← Call.lift currentFileInfo
  extract
  pure info

end Calls

/-- A failure for which there is just one error. -/
theorem exists_error_of_outcome {ε ρ α : Type} {error : ε} {result : EStateM.Result ε ρ α}
    (h : Outcome (fun _ _ => False) (fun found _ => found = error) result) :
    ∃ final, result = .error error final := by
  cases hrun : result with
  | ok _ final => exact (h.of_ok hrun).elim
  | error found final =>
    obtain rfl : found = error := h.of_error hrun
    exact ⟨final, rfl⟩

section Cut

variable {info : EntryInfo} {first : Segment} {later : List Segment} {bytes : List UInt8}
  {error : ArchiveError} {state : HandleState}

/-- Reading the metadata of an entry that is cut off finds the cut, or has it ahead. -/
theorem outcome_currentFileInfo_of_isCut (hentry : IsEntry info first later)
    (hcut : IsCut (first :: later) bytes error) (hstate : state.IsBetweenEntries) :
    Outcome (fun _ final => IsCutAhead error final) (fun found _ => found = error)
      (currentFileInfo ⟨bytes, state⟩) := by
  obtain ⟨hheader, hsound, hlater, -⟩ := isEntry_iff.mp hentry
  rw [currentFileInfo_of_isBetween hstate]
  refine Outcome.bind ((readRecord_of_isCut hcut hsound.normal hstate.mode).mono ?_ fun _ _ h => h)
  rintro _ _ ⟨rfl, rest, rfl, hbehind⟩
  refine Outcome.bind (outcome_ofResult (fun found _ => ?_) fun found hfound =>
    nomatch hheader.symm.trans hfound)
  exact ⟨cutOff_behind hbehind hsound rfl rfl hlater, state.mode_behind_or first.record, rfl⟩

/-- **Unpacking an entry that is cut off** finds the cut. -/
theorem unpackEntry_of_isCut (hentry : IsEntry info first later)
    (hcut : IsCut (first :: later) bytes error) (hstate : state.IsBetweenEntries)
    (copy : CopySink (List UInt8)) :
    ∃ final, unpackEntry (copy, ⟨bytes, state⟩) = .error error final := by
  refine exists_error_of_outcome (Outcome.bind (outcome_lift
    ((outcome_currentFileInfo_of_isCut hentry hcut hstate).mono ?_ fun _ _ h => h)))
  intro found opened hahead
  have hbegin : Call.lift beginExtract (copy, opened) = .ok () (copy, opened) :=
    lift_eq_ok.mpr ⟨_, beginExtract_of_isInside hahead.inside, rfl⟩
  have hoptions : (Call.lift Call.state : CallWith (CopySink (List UInt8)) _ _) (copy, opened)
      = .ok opened.state (copy, opened) := rfl
  have hcount : 0 < opened.state.options.copySize := Nat.le_max_right _ 1
  obtain ⟨final, hrun⟩ := hahead.exists_extractRounds hcount copy
  have hextract : extract (copy, opened) = .error error final := by
    rw [extract, bind_of_ok hbegin, bind_of_ok hoptions, bind_of_error hrun]
  rw [bind_of_error hextract]
  exact rfl

/-- **Skipping an entry that is cut off** finds the cut. -/
theorem skipFile_of_isCut (hentry : IsEntry info first later)
    (hcut : IsCut (first :: later) bytes error) (hstate : state.IsBetweenEntries) :
    ∃ final, skipFile ⟨bytes, state⟩ = .error error final := by
  obtain ⟨hheader, hsound, hlater, -⟩ := isEntry_iff.mp hentry
  obtain ⟨hvalid, hkind, -⟩ := ofRecord_eq_ok.mp hheader
  have hexpect : expectReading "skip_file" ⟨bytes, state⟩ = .ok () ⟨bytes, state⟩ :=
    expectReading_eq_ok.mpr ⟨⟨_, hstate.mode⟩, rfl⟩
  have hrecord := readRecord_of_isCut hcut hsound.normal hstate.mode
  rw [skipFile, bind_of_ok hexpect]
  cases hrun : readRecord ⟨bytes, state⟩ with
  | error found final =>
    obtain rfl : found = error := hrecord.of_error hrun
    have hskip : beginSkip ⟨bytes, state⟩ = .error found final := by
      rw [beginSkip, bind_of_ok (state_apply _)]
      simp only [hstate.unpacker]
      exact bind_of_error hrun
    exact ⟨final, bind_of_error hskip⟩
  | ok record final =>
    obtain ⟨rfl, rest, rfl, hbehind⟩ := hrecord.of_ok hrun
    have hopened : CutOff error ⟨rest, state.continuedBy first.record⟩ :=
      cutOff_behind hbehind hsound rfl rfl hlater
    rw [bind_of_ok (beginSkip_of_readRecord hstate hrun hkind hvalid)]
    refine exists_error_of_outcome (Outcome.bind (Outcome.repeatUntil (CutOff error)
      (fun _ hmiddle => ?_) hopened))
    exact hmiddle.outcome_skipRound.mono (fun round _ hround => by cases round <;> exact hround)
      fun _ _ h => h

end Cut

end Archive

end RecordArchive
