import RecordArchive.Proofs.Archive.Extraction
import RecordArchive.Proofs.Outcome

/-! # Content that contradicts its metadata

Length and checksum of the content are compared with the metadata of the entry where the content
ends, and nowhere before. So when records are sound and only the metadata is wrong about them, the
extraction fails, and all the content has been delivered by then.

* `Contradicting content error handle` says that just this content is ahead and will be refused with
  this error. Every round of reading keeps it, up to what it gives.
* `extract_of_contradiction`: so it is on every infallible stream and with every infallible sink, in
  transfers of any length. -/

namespace RecordArchive

open Program Call

variable {σ τ : Type}

/-- **The content that is ahead is refused** with this error, by the metadata of the entry. -/
structure Contradicting (content : List UInt8) (error : ArchiveError)
    (handle : Archive (List UInt8)) : Prop where
  inside : handle.state.IsInsideEntry
  remaining : ∃ rest, Remaining content rest handle
  refused : ∃ info, handle.state.currentFile? = some info ∧
    info.verify (handle.state.entry.consume content) = .error error

namespace Archive

variable {content : List UInt8} {error : ArchiveError}

/-! ## Reading -/

/-- The comparison at the end of the content fails as the metadata says. -/
theorem verifyEntry_of_error {stream : σ} {state : HandleState} {info : EntryInfo}
    (hfile : state.currentFile? = some info) (h : info.verify state.entry = .error error) :
    verifyEntry ⟨stream, state⟩ = .error error ⟨stream, state⟩ := by
  rw [verifyEntry, bind_of_ok (state_apply _)]
  simp only [hfile]
  rw [h]
  rfl

/-- **A round of reading** gives some of the content or enters the next record; where nothing is left
of the content it fails with the error. -/
theorem outcome_readRound_of_contradicting {count : Nat} (hcount : 0 < count)
    {start : Archive (List UInt8)} (h : Contradicting content error start) :
    Outcome
      (fun round final => round.elim (Contradicting content error final) fun taken =>
        taken ≠ [] ∧ ∃ more, content = taken ++ more ∧ Contradicting more error final)
      (fun found _ => found = error ∧ content = []) (readRound count start) := by
  obtain ⟨bytes, state⟩ := start
  obtain ⟨hinside, ⟨rest, hremaining⟩, info, hfile, hverify⟩ := h
  obtain ⟨taken, ⟨behind, middle⟩, htake, hbetween, more, rfl, hmore⟩ :=
    (remaining_iff_takePayload hcount).mp hremaining
  obtain ⟨hunpacker, hentry, hsame⟩ := takePayload_frame htake
  have hmiddle : middle.IsInsideEntry :=
    ⟨(mode_of_takePayload hcount hinside.mode htake).1, hunpacker.trans hinside.unpacker⟩
  have hknown : middle.currentFile? = some info := hsame.trans hfile
  rw [← show middle.entry = state.entry from hentry, EntryProgress.consume_append] at hverify
  by_cases hne : taken ≠ []
  · -- Some bytes are given; they count for the verdict as if they were still ahead.
    have hround := readRound_eq_ok.mpr ⟨taken, behind, middle, htake, .inl ⟨hne, rfl, rfl⟩⟩
    rw [hround]
    exact ⟨hne, more, rfl, ⟨hmiddle.mode, hmiddle.unpacker⟩, ⟨rest, hmore⟩, info, hknown, hverify⟩
  · obtain rfl : taken = [] := Decidable.not_not.mp hne
    rw [EntryProgress.consume_nil] at hverify
    by_cases hcontinued : middle.entry.continued = true
    · -- The next record is entered, which the comparison does not look at.
      obtain ⟨record, final, hfragment, hfinal⟩ :=
        (remaining_iff_readFragment (hbetween rfl) hcontinued).mp hmore
      have hround := readRound_eq_ok.mpr ⟨[], behind, middle, htake,
        .inr (.inl ⟨rfl, hcontinued, rfl, record, hfragment⟩)⟩
      rw [hround]
      obtain ⟨-, -, -, -, _, -, rfl⟩ := readFragment_eq_ok.mp hfragment
      exact ⟨⟨middle.mode_behind_or record, hmiddle.unpacker⟩, ⟨rest, hfinal⟩, info, hknown, hverify⟩
    · -- The content is at its end, and the comparison fails.
      obtain ⟨rfl, rfl⟩ := (remaining_iff_of_not_continued (hbetween rfl)
        (Bool.not_eq_true _ ▸ hcontinued)).mp hmore
      rw [EntryProgress.consume_nil] at hverify
      rw [readRound, bind_of_ok htake, bind_of_ok (state_apply _), if_neg (fun h => h rfl),
        if_neg hcontinued, bind_of_error (verifyEntry_of_error hknown hverify)]
      exact ⟨rfl, rfl⟩

/-- **Reading** gives some of the content, and fails where nothing is left of it. -/
theorem outcome_readFileData_of_contradicting {count : Nat} (hcount : 0 < count)
    {start : Archive (List UInt8)} (h : Contradicting content error start) :
    Outcome
      (fun taken final => taken ≠ [] ∧ ∃ more, content = taken ++ more ∧
        Contradicting more error final)
      (fun found _ => found = error ∧ content = []) (readFileData count start) := by
  rw [readFileData_of_isInside hcount h.inside]
  exact Outcome.repeatUntil (Contradicting content error)
    (fun _ hstate => outcome_readRound_of_contradicting hcount hstate) h

/-! ## Extracting -/

/-- What the sink holds and what is ahead of the handle make up the content. -/
def Delivering (content : List UInt8) (total : Nat) (error : ArchiveError)
    (state : CopySink (List UInt8) × Archive (List UInt8)) : Prop :=
  ∃ more, state.1.stream ++ more = content ∧ state.1.total + more.length = total ∧
    Contradicting more error state.2

/-- **A round of extracting** asks for another one, or fails and leaves all the content in the
sink. -/
theorem outcome_extractRound_of_delivering {count total : Nat} (hcount : 0 < count)
    {start : CopySink (List UInt8) × Archive (List UInt8)}
    (h : Delivering content total error start) :
    Outcome (fun round final => round = none ∧ Delivering content total error final)
      (fun found final => found = error ∧ final.1 = ⟨content, total⟩)
      (extractRound count start) := by
  obtain ⟨⟨held, size⟩, handle⟩ := start
  obtain ⟨ahead, rfl, rfl, hahead⟩ := h
  refine Outcome.bind (outcome_lift
    ((outcome_readFileData_of_contradicting hcount hahead).mono ?_ ?_))
  · rintro taken final ⟨hne, more, rfl, hmore⟩
    rw [if_neg hne, bind_of_ok (onValue_deliver_list taken held size final)]
    refine ⟨rfl, more, List.append_assoc _ _ _, ?_, hmore⟩
    rw [List.length_append, Nat.add_assoc]
  · rintro found final ⟨rfl, rfl⟩
    exact ⟨rfl, by rw [List.append_nil]; rfl⟩

/-- The metadata in front of the records is read, and refuses what they hold. -/
theorem exists_contradicting {info : EntryInfo} {first : Segment} {later : List Segment}
    (rest : List UInt8) {state : HandleState} (hstate : state.IsBetweenEntries)
    (hheader : EntryInfo.ofRecord first.record = .ok info) (hsound : first.IsSound)
    (hlater : IsContinuation first.record.isContinued later)
    (hverify : info.verify (EntryProgress.consume {} (contentOf (first :: later))) = .error error) :
    ∃ opened, currentFileInfo ⟨segmentBytes (first :: later) ++ rest, state⟩ = .ok info opened ∧
      Contradicting (contentOf (first :: later)) error opened := by
  have hbytes : segmentBytes (first :: later) ++ rest
      = first.record.toBytes ++ (first.payload ++ segmentBytes later ++ rest) := by
    rw [segmentBytes_cons, Segment.toBytes]
    simp only [List.append_assoc]
  have hahead : Remaining (contentOf (first :: later)) rest
      ⟨first.payload ++ segmentBytes later ++ rest, state.entered first.record info⟩ :=
    (remaining_behind hsound.normal rfl rfl).mpr ⟨_, later, hsound, rfl, rfl, hlater⟩
  refine ⟨⟨first.payload ++ segmentBytes later ++ rest, state.entered first.record info⟩, ?_,
    ⟨state.mode_behind_or first.record, rfl⟩, ⟨rest, hahead⟩, info, rfl, hverify⟩
  rw [currentFileInfo_of_isBetween hstate]
  exact readFileHeader_eq_ok.mpr ⟨hstate.mode, first.record, _, hsound.normal, hheader, hbytes, rfl⟩

/-- From a list of bytes all the content is delivered, and then the extraction fails. -/
theorem extract_list_of_contradiction {info : EntryInfo} {first : Segment} {later : List Segment}
    (rest held : List UInt8) (total : Nat) {state : HandleState} (hstate : state.IsBetweenEntries)
    (hheader : EntryInfo.ofRecord first.record = .ok info) (hsound : first.IsSound)
    (hlater : IsContinuation first.record.isContinued later)
    (hverify : info.verify (EntryProgress.consume {} (contentOf (first :: later))) = .error error) :
    ∃ handle, extract ((⟨held, total⟩ : CopySink (List UInt8)),
        ⟨segmentBytes (first :: later) ++ rest, state⟩)
      = .error error (⟨held ++ contentOf (first :: later),
          total + (contentOf (first :: later)).length⟩, handle) := by
  obtain ⟨opened, hinfo, hahead⟩ := exists_contradicting rest hstate hheader hsound hlater hverify
  have hbegin := (beginExtract_eq_ok hstate).mpr ⟨info, hinfo⟩
  have hoptions : (Call.lift Call.state : CallWith (CopySink (List UInt8)) (List UInt8) HandleState)
      (⟨held, total⟩, opened) = .ok opened.state (⟨held, total⟩, opened) := rfl
  -- no round succeeds without asking for another one, so the repetition ends with a failure
  have hloop : Outcome (fun _ _ => False)
      (fun found final => found = error ∧ final.1 = ⟨held ++ contentOf (first :: later),
        total + (contentOf (first :: later)).length⟩)
      (repeatUntil (extractRound opened.state.options.copySize) copyBudget (extractRound_spends _)
        ((⟨held, total⟩ : CopySink (List UInt8)), opened)) := by
    refine Outcome.repeatUntil (Delivering _ _ error) (fun _ hround =>
      (outcome_extractRound_of_delivering (Nat.le_max_right _ 1) hround).mono ?_ fun _ _ h => h)
      ⟨_, rfl, rfl, hahead⟩
    rintro _ final ⟨rfl, hnext⟩
    exact hnext
  rw [extract, bind_of_ok (lift_eq_ok.mpr ⟨opened, hbegin, rfl⟩), bind_of_ok hoptions]
  cases hrun : repeatUntil (extractRound opened.state.options.copySize) copyBudget
      (extractRound_spends _) ((⟨held, total⟩ : CopySink (List UInt8)), opened) with
  | ok value final => exact (hloop.of_ok hrun).elim
  | error found final =>
    obtain ⟨rfl, hcopy⟩ := hloop.of_error hrun
    refine ⟨final.2, ?_⟩
    rw [bind_of_error hrun, ← hcopy]

/-- **All the content is delivered before it is refused.** On a stream that goes on with the records
of an entry, except that the metadata contradicts the content, the extraction fails with the error of
the comparison, and the sink holds the content behind what it held. -/
theorem extract_of_contradiction [ByteSource σ] [ByteSink τ] {holds : τ → List UInt8 → Prop}
    (hsink : IsCollector holds) {sink : τ} {held : List UInt8} (hheld : holds sink held)
    {stream : σ} {state : HandleState} (hstate : state.IsBetweenEntries) {info : EntryInfo}
    {first : Segment} {later : List Segment} {rest : List UInt8}
    (hstream : Yields stream (segmentBytes (first :: later) ++ rest))
    (hheader : EntryInfo.ofRecord first.record = .ok info) (hsound : first.IsSound)
    (hlater : IsContinuation first.record.isContinued later)
    (hverify : info.verify (EntryProgress.consume {} (contentOf (first :: later))) = .error error) :
    ∃ (copy : CopySink τ) (final : Archive σ),
      extract ((⟨sink, 0⟩ : CopySink τ), ⟨stream, state⟩) = .error error (copy, final) ∧
        holds copy.stream (held ++ contentOf (first :: later)) ∧
        copy.total = (contentOf (first :: later)).length := by
  obtain ⟨handle, hlist⟩ :=
    extract_list_of_contradiction rest held 0 hstate hheader hsound hlater hverify
  -- the stream does what the list does, and the sink ends with what the list of bytes holds
  have hresult := simulates_extract Yields.isDelivery.readsAlike hsink
    (⟨sink, 0⟩, ⟨stream, state⟩) (⟨held, 0⟩, ⟨_, state⟩) ⟨⟨hheld, rfl⟩, hstream, rfl⟩
  rw [hlist] at hresult
  obtain ⟨⟨copy, final⟩, hrun, ⟨hcopy, htotal⟩, -⟩ := hresult.exists_error
  exact ⟨copy, final, hrun, hcopy, htotal.trans (Nat.zero_add _)⟩

end Archive

end RecordArchive
