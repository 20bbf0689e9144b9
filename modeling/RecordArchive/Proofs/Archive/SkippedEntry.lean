import RecordArchive.Proofs.Archive.Frames
import RecordArchive.Proofs.Archive.OpenedArchive
import RecordArchive.Proofs.Archive.Progress
import RecordArchive.Proofs.Archive.Provenance
import RecordArchive.Proofs.Archive.Walk

/-! # Skipping an entry and extracting it

An entry is skipped record by record, whatever their payloads hold; extracting it goes through the
content and compares checksums and lengths. Nothing is assumed of the bytes, and the handle may stand
at any point of an entry that successful calls lead to.

* `HandleState.IsAlongEntry`: in front of an entry, inside its content, or behind that.
  `UnpackerCall.isAlongEntry_run`: calls that succeed lead to such points.
* `Archive.skipFile_of_extract`: **where an entry can be extracted it can be skipped**, and both end in
  the same place.
* `Archive.EntryWalk`, `Archive.collectEntries_of_entryWalk`: a listing finds the entries that whoever
  extracts or skips them finds.
* `Archive.skipFile_lands_with_extract`: so it is on every infallible stream and with every infallible
  sink. -/

namespace RecordArchive

open Program Call

variable {σ τ ρ : Type}

/-! ## Points of an entry -/

namespace HandleState

/-- Reading, with nothing read yet. -/
structure IsFresh (state : HandleState) : Prop where
  mode : state.mode = .reading .atMarker
  unpacker : state.unpacker = .validatingFormat

/-- **A point of an entry**: in front of it, inside its content, or behind that. -/
inductive IsAlongEntry (state : HandleState) : Prop
  | before (h : state.IsBetweenEntries)
  | inside (h : state.IsInsideEntry)
  /-- Behind the content there is no further record of the entry. -/
  | behind (h : state.IsBehindEntry) (hlast : state.entry.continued = false)

/-- Between two entries, with nothing known of either. -/
structure IsSettled (state : HandleState) : Prop where
  mode : state.mode = .reading .atRecordHeader
  unpacker : state.unpacker = .fileHeader
  entry : state.entry = {}
  currentFile? : state.currentFile? = none

variable {state : HandleState}

/-- At an entry the archive header has been read. -/
theorem IsAlongEntry.unpacker_ne (h : state.IsAlongEntry) : state.unpacker ≠ .validatingFormat := by
  cases h with
  | before h => rw [h.unpacker]; decide
  | inside h => rw [h.unpacker]; decide
  | behind h _ => rw [h.unpacker]; decide

/-- At every point along an entry the reader stands between two records or in a payload. -/
theorem IsAlongEntry.isPlaced (h : state.IsAlongEntry) : state.IsPlaced := by
  cases h with
  | before h => exact .inr h.mode
  | inside h => exact h.mode
  | behind h _ => exact .inr h.mode

/-- A settled handle is between two entries. -/
theorem IsSettled.isBetweenEntries (h : state.IsSettled) : state.IsBetweenEntries :=
  ⟨h.mode, h.unpacker⟩

/-- Where an entry is left, only the progress through the last payload can differ. -/
theorem IsSettled.eq_of_setup {other : HandleState} (h : state.IsSettled) (h' : other.IsSettled)
    (hsetup : state.setup = other.setup) : state = { other with incoming := state.incoming } := by
  obtain ⟨mode, options, incoming, pending?, unpacker, packer, entry, currentFile?⟩ := state
  obtain ⟨rfl, rfl, rfl, rfl⟩ := h
  obtain ⟨mode', options', incoming', pending?', unpacker', packer', entry', currentFile?'⟩ := other
  obtain ⟨rfl, rfl, rfl, rfl⟩ := h'
  obtain ⟨rfl, rfl, rfl⟩ := Setup.mk.inj hsetup
  rfl

end HandleState

namespace Archive

/-! ## One call -/

/-- **Reading content** stays at the entry, and comes to the end of the content where there is room but
nothing to give. -/
theorem isAlongEntry_readFileData {count : Nat} {start final : Archive (List UInt8)}
    {taken : List UInt8} (hstart : start.state.IsAlongEntry)
    (hrun : readFileData count start = .ok taken final) :
    final.state.IsAlongEntry ∧ (0 < count → taken = [] → final.state.IsBehindEntry) := by
  cases hstart with
  | before h =>
    -- the metadata has to come first
    have hexpect : expectReading "read_file_data" start = .ok () start :=
      expectReading_eq_ok.mpr ⟨⟨_, h.mode⟩, rfl⟩
    rw [readFileData, bind_of_ok hexpect, bind_of_ok (state_apply start), h.unpacker] at hrun
    cases hrun
  | inside h =>
    rcases Nat.eq_zero_or_pos count with rfl | hcount
    · rw [readFileData_zero h] at hrun
      cases hrun
      exact ⟨.inside h, fun hcount => absurd hcount (Nat.lt_irrefl 0)⟩
    · have hafter := isAfter_of_readFileData hcount h hrun
      refine ⟨?_, fun _ hnil => hafter.behind hnil⟩
      by_cases hnil : taken = []
      · subst hnil
        exact .behind (hafter.behind rfl) (continued_of_readFileData hcount h hrun)
      · exact .inside (hafter.inside hnil)
  | behind h hlast =>
    rw [readFileData_behind count h] at hrun
    cases hrun
    exact ⟨.behind h hlast, fun _ _ => h⟩

/-- **Extracting** ends between two entries. -/
theorem isSettled_of_extract [ByteSink τ] {handle : Archive (List UInt8)}
    (hstart : handle.state.IsAlongEntry) {copy : CopySink τ}
    {final : CopySink τ × Archive (List UInt8)} (hrun : extract (copy, handle) = .ok () final) :
    final.2.state.IsSettled := by
  have houtcome : Outcome (fun _ final => final.2.state.IsSettled) (fun _ _ => True)
      (extract (copy, handle)) := by
    apply outcome_extract (fun start => start.2.state.IsAlongEntry) hstart
    case hsame => exact fun _ => trivial
    case hinfo =>
      intro hunpacker
      refine (effect_currentFileInfo handle).mono ?_ fun _ _ _ => trivial
      exact fun _ _ hfinal => .inside (hfinal.2 hunpacker)
    case hround =>
      -- Each round stays at the entry. The last one is given nothing although it has room for it, so it
      -- is behind the content, and from there the entry is left.
      intro _ count copied start hcount hkept
      refine Outcome.bind (outcome_lift ((Outcome.self _).mono ?_ fun _ _ _ => trivial))
      intro taken rest hread
      obtain ⟨hrest, hbehind⟩ := isAlongEntry_readFileData hkept hread
      split
      next hnil => exact ⟨(hbehind hcount hnil).mode, rfl, rfl, rfl⟩
      next =>
        refine Outcome.bind (CallWith.outcome_onValue ?_)
        exact .of_forall (fun _ _ => hrest) (fun _ _ => trivial) _
  exact houtcome.of_ok hrun

/-- **Skipping** ends between two entries. -/
theorem isSettled_of_skipFile [ByteSource σ] {handle final : Archive σ}
    (hstart : handle.state.IsAlongEntry) (hrun : skipFile handle = .ok () final) :
    final.state.IsSettled := by
  have houtcome : Outcome (fun _ final => final.state.IsSettled) (fun _ _ => True)
      (skipFile handle) := by
    refine Outcome.bind ((outcome_expectReading _ handle).mono ?_ fun _ _ _ => trivial)
    rintro _ _ ⟨rfl, -⟩
    refine Outcome.bind ((effect_beginSkip _).mono ?_ fun _ _ _ => trivial)
    rintro _ opened ⟨-, horder⟩
    have hplaced : opened.state.IsPlaced := by
      rcases horder with rfl | hplaced
      · exact hstart.isPlaced
      · exact hplaced
    -- Skipping verifies nothing, so its rounds need to know no more than the place of the reader.
    refine Outcome.bind (Outcome.repeatUntil (fun middle => middle.state.IsPlaced) ?_ hplaced)
    intro middle hmiddle
    refine (progress_skipRound hmiddle).mono ?_ fun _ _ _ => trivial
    intro round final hround
    cases round with
    | none => exact hround
    | some _ => exact ⟨hround, rfl, rfl, rfl⟩
  exact houtcome.of_ok hrun

/-! ## The entry ahead -/

/-- **What can be extracted can be skipped**, on a list: from each point of an entry both end in front
of the same bytes. -/
theorem skipFile_of_extract {handle final : Archive (List UInt8)}
    (hstart : handle.state.IsAlongEntry) {copy copied : CopySink (List UInt8)}
    (hrun : extract (copy, handle) = .ok () (copied, final)) :
    ∃ skipped, skipFile handle = .ok () skipped ∧ skipped.stream = final.stream := by
  obtain ⟨bytes, state⟩ := handle
  cases hstart with
  | before h =>
    -- the bytes start with an entry, so all of its records can be skipped
    obtain ⟨rest, left⟩ := final
    obtain ⟨content, rfl⟩ := (isBetween_of_extract h hrun).2
    obtain ⟨info, first, later, hentry, rfl, -⟩ := (isEntry_iff_extract h).mpr ⟨left, hrun⟩
    obtain ⟨skipped, hskip, -⟩ := skipFile_of_isEntry hentry rest h
    exact ⟨_, hskip, rfl⟩
  | inside h =>
    obtain ⟨skipped, hskip, -⟩ := skipFile_of_isEntered h.exists_reading (.inl h.unpacker)
      (exists_remaining_of_extract h hrun)
    exact ⟨_, hskip, rfl⟩
  | behind h hlast =>
    have hnothing : Remaining [] bytes ⟨bytes, state⟩ :=
      (remaining_iff_of_not_continued h.mode hlast).mpr ⟨rfl, rfl⟩
    obtain ⟨skipped, hskip, -⟩ :=
      skipFile_of_isEntered ⟨_, h.mode⟩ (.inr h.unpacker) ⟨[], hnothing⟩
    exact ⟨_, hskip, (stream_of_extract_behind h hrun).symm⟩

/-- The same place in an archive: in front of the same bytes, and in the same state up to the progress
through the last payload. -/
structure LandsWith [ByteSource σ] (first second : Archive σ) : Prop where
  stream : ∃ rest, Yields first.stream rest ∧ Yields second.stream rest
  state : first.state = { second.state with incoming := first.state.incoming }

/-! ## Runs of calls -/

/-- **A point that successful calls lead to**, with any sinks for what they copy. -/
inductive Reached (ρ : Type) [ByteSource σ] [ByteSink ρ] (start : Archive σ) : Archive σ → Prop
  /-- No call. -/
  | refl : Reached ρ start start
  /-- A call succeeds. -/
  | step {middle final : Archive σ} {call : UnpackerCall ρ} (h : Reached ρ start middle)
    (hrun : call.run middle = .ok () final) : Reached ρ start final

end Archive

open Archive

/-- **A call that succeeds** leads to a point of an entry, from there or from the start. -/
theorem UnpackerCall.isAlongEntry_run [ByteSink ρ] (call : UnpackerCall ρ)
    {handle final : Archive (List UInt8)}
    (hstart : handle.state.IsFresh ∨ handle.state.IsAlongEntry)
    (hrun : call.run handle = .ok () final) : final.state.IsAlongEntry := by
  rcases hstart with hfresh | halong
  · -- only the archive header can be read, and then the first entry is next
    have hrefuses := refusesEntries_of_validatingFormat hfresh.unpacker
    cases call with
    | readArchiveHeader =>
      obtain ⟨bytes, state⟩ := handle
      obtain ⟨header, _, hheader, hpure⟩ := bind_eq_ok.mp hrun
      obtain ⟨-, rfl⟩ := pure_eq_ok.mp hpure
      obtain ⟨_, _, -, rfl⟩ := (readArchiveHeader_eq_ok hfresh.mode hfresh.unpacker).mp hheader
      exact .before ⟨rfl, rfl⟩
    | currentFileInfo =>
      rw [run, bind_of_error hrefuses.currentFileInfo] at hrun
      cases hrun
    | readFileData count =>
      rw [run, bind_of_error (hrefuses.readFileData count)] at hrun
      cases hrun
    | extract sink =>
      rw [run, CallWith.withValue_of_error (hrefuses.extract _)] at hrun
      cases hrun
    | skipFile =>
      rw [run, hrefuses.skipFile] at hrun
      cases hrun
  · cases call with
    | readArchiveHeader =>
      -- the archive header has been read
      obtain ⟨header, _, hheader, -⟩ := bind_eq_ok.mp hrun
      obtain ⟨_, _, hexpect, hnext⟩ := bind_eq_ok.mp hheader
      obtain ⟨-, rfl⟩ := expectReading_eq_ok.mp hexpect
      rw [bind_of_ok (state_apply handle)] at hnext
      obtain ⟨_, _, hrequire, -⟩ := bind_eq_ok.mp hnext
      exact absurd (require_eq_ok.mp hrequire).1 halong.unpacker_ne
    | currentFileInfo =>
      obtain ⟨info, _, hinfo, hpure⟩ := bind_eq_ok.mp hrun
      obtain ⟨-, rfl⟩ := pure_eq_ok.mp hpure
      have houtcome : Outcome (fun _ final => final.state.IsAlongEntry) (fun _ _ => True)
          (Archive.currentFileInfo handle) := by
        apply outcome_currentFileInfo
        · exact fun _ => halong
        · exact fun _ => trivial
        · intro _ _
          refine (effect_readFileHeader handle).mono ?_ fun _ _ _ => trivial
          exact fun _ _ hfinal => .inside hfinal.2.2.1
      exact houtcome.of_ok hinfo
    | readFileData count =>
      obtain ⟨taken, _, hread, hpure⟩ := bind_eq_ok.mp hrun
      obtain ⟨-, rfl⟩ := pure_eq_ok.mp hpure
      exact (isAlongEntry_readFileData halong hread).1
    | extract sink =>
      obtain ⟨copied, hextract⟩ := CallWith.withValue_eq_ok.mp hrun
      exact .before (isSettled_of_extract halong hextract).isBetweenEntries
    | skipFile => exact .before (isSettled_of_skipFile halong hrun).isBetweenEntries

/-- **A call of the unpacker** does the same on streams that are read alike. -/
theorem UnpackerCall.simulates_run {σ' : Type} [ByteSource σ] [ByteSource σ'] [ByteSink ρ]
    {streams : σ → σ' → Prop} (h : ReadsAlike streams) (call : UnpackerCall ρ) :
    Simulates (Related streams) call.run call.run := by
  cases call with
  | readArchiveHeader => exact (simulates_readArchiveHeader h).bind fun _ => .pure ()
  | currentFileInfo => exact (simulates_currentFileInfo h).bind fun _ => .pure ()
  | readFileData count => exact (simulates_readFileData h count).bind fun _ => .pure ()
  | extract sink => exact CallWith.simulates_withValue _ (simulates_extractTo h fun _ => .refl _)
  | skipFile => exact simulates_skipFile h

namespace Archive

/-- **Successful calls lead along entries**, on any infallible stream. -/
theorem Reached.exists_rest [ByteSource σ] [ByteSink ρ] {start handle : Archive σ}
    (h : Reached ρ start handle) (hfresh : start.state.IsFresh) {bytes : List UInt8}
    (hstream : Yields start.stream bytes) : ∃ rest, Yields handle.stream rest ∧
      (handle.state.IsFresh ∨ handle.state.IsAlongEntry) := by
  induction h with
  | refl => exact ⟨bytes, hstream, .inl hfresh⟩
  | @step middle final call h hrun ih =>
    obtain ⟨rest, hrest, hmiddle⟩ := ih
    obtain ⟨left, hlist, hleft⟩ := exists_ok_list_of_yields
      (call.simulates_run Yields.isDelivery.readsAlike) hrest hrun
    exact ⟨left, hleft, .inr (call.isAlongEntry_run hmiddle hlist)⟩

/-! ## Walks -/

/-- **An entry is left** by whoever has read its metadata: its content is extracted to an infallible
sink, or it is skipped. -/
inductive LeavesEntry [ByteSource σ] [ByteSink τ] (holds : τ → List UInt8 → Prop)
    (opened behind : Archive σ) : Prop
  | extract {copy copied : CopySink τ} {held : List UInt8} (hheld : holds copy.stream held)
    (hrun : extract (copy, opened) = .ok () (copied, behind))
  | skip (hrun : skipFile opened = .ok () behind)

/-- **A walk along entries** to the end of the archive: the metadata of the next entry is read, and then
the entry is left in one of both ways. -/
inductive EntryWalk [ByteSource σ] [ByteSink τ] (holds : τ → List UInt8 → Prop) :
    List EntryInfo → Archive σ → Archive σ → Prop
  | nil {handle final : Archive σ} (hnext : nextEntry handle = .ok none final) :
    EntryWalk holds [] handle final
  | cons {info : EntryInfo} {infos : List EntryInfo} {handle opened behind final : Archive σ}
    (hnext : nextEntry handle = .ok (some info) opened) (hleave : LeavesEntry holds opened behind)
    (hmore : EntryWalk holds infos behind final) : EntryWalk holds (info :: infos) handle final

section Lists

variable {handle opened behind final : Archive (List UInt8)}

/-- An entry that is left can be skipped, which leads to the same place. -/
theorem LeavesEntry.skipFile_eq_ok (h : LeavesEntry Eq opened behind)
    (hopened : opened.state.IsAlongEntry) : ∃ incoming,
      skipFile opened = .ok () ⟨behind.stream, { behind.state with incoming }⟩ := by
  cases h with
  | skip hrun => exact ⟨_, hrun⟩
  | @extract copy copied _ _ hrun =>
    obtain ⟨skipped, hskip, hstream⟩ := skipFile_of_extract hopened hrun
    -- skipping and extracting have started on one handle
    have hsetup : skipped.setup = behind.setup := by
      have hextracted : behind.setup = opened.setup := (keeps_extract (copy, opened)).of_ok hrun
      have hskipped : skipped.setup = opened.setup := (keeps_skipFile opened).of_ok hskip
      rw [hskipped, hextracted]
    have hstate := (isSettled_of_skipFile hopened hskip).eq_of_setup
      (isSettled_of_extract hopened hrun) hsetup
    refine ⟨skipped.state.incoming, ?_⟩
    rw [← hstate, ← hstream]
    exact hskip

/-- A listing ends where there is no further entry. -/
theorem collectEntry_of_end (hnext : nextEntry handle = .ok none final) (found : Array EntryInfo) :
    collectEntry (found, handle) = .ok (some ()) (found, final) := by
  have hlift : Call.lift nextEntry (found, handle) = .ok none (found, final) :=
    lift_eq_ok.mpr ⟨final, hnext, rfl⟩
  rw [collectEntry, bind_of_ok hlift]
  rfl

/-- A round of a listing notes an entry and skips it. -/
theorem collectEntry_of_nextEntry {info : EntryInfo} {skipped : Archive (List UInt8)}
    (hnext : nextEntry handle = .ok (some info) opened) (hskip : skipFile opened = .ok () skipped)
    (found : Array EntryInfo) :
    collectEntry (found, handle) = .ok none (found.push info, skipped) := by
  have hlift : Call.lift nextEntry (found, handle) = .ok (some info) (found, opened) :=
    lift_eq_ok.mpr ⟨opened, hnext, rfl⟩
  have hcollect : CallWith.onValue (collect info) (found, opened) = .ok () (found.push info, opened) :=
    rfl
  have hleave : Call.lift skipFile (found.push info, opened) = .ok () (found.push info, skipped) :=
    lift_eq_ok.mpr ⟨skipped, hskip, rfl⟩
  rw [collectEntry, bind_of_ok hlift]
  show (CallWith.onValue (collect info) >>= fun _ => _) (found, opened) = _
  rw [bind_of_ok hcollect, bind_of_ok hleave]
  rfl

/-- **A listing finds what a walk finds**, on a list: it goes through the same entries to the same
place, whatever was left of the last payload in front of it. -/
theorem collectEntries_of_entryWalk {infos : List EntryInfo} (h : EntryWalk Eq infos handle final)
    (incoming : IncomingPayload) (found : Array EntryInfo) : ∃ left,
      collectEntries (found, ⟨handle.stream, { handle.state with incoming }⟩)
        = .ok () (found ++ infos.toArray, ⟨final.stream, { final.state with incoming := left }⟩) := by
  induction h generalizing incoming found with
  | @nil handle final hnext =>
    obtain ⟨bytes, state⟩ := handle
    obtain ⟨hstate, rfl, rfl⟩ := nextEntry_eq_none.mp hnext
    have hend : nextEntry (⟨[], { state with incoming }⟩ : Archive (List UInt8))
        = .ok none ⟨[], { state with incoming }⟩ :=
      nextEntry_eq_none.mpr ⟨⟨hstate.mode, hstate.unpacker⟩, rfl, rfl⟩
    refine ⟨incoming, ?_⟩
    rw [collectEntries, repeatUntil_apply, collectEntry_of_end hend]
    simp
  | @cons info infos handle opened behind final hnext hleave _ ih =>
    obtain ⟨bytes, state⟩ := handle
    obtain ⟨hstate, record, rest, hnormal, hinfo, rfl, rfl⟩ := nextEntry_eq_some.mp hnext
    -- the metadata is read into the same state, whatever was left before
    have hother : nextEntry ⟨record.toBytes ++ rest, { state with incoming }⟩
        = .ok (some info) ⟨rest, state.entered record info⟩ :=
      nextEntry_eq_some.mpr ⟨⟨hstate.mode, hstate.unpacker⟩, record, rest, hnormal, hinfo, rfl, rfl⟩
    have hopened : (state.entered record info).IsAlongEntry :=
      .inside ⟨state.mode_behind_or record, rfl⟩
    obtain ⟨left, hskip⟩ := hleave.skipFile_eq_ok hopened
    obtain ⟨last, hmore⟩ := ih left (found.push info)
    have hfound : found.push info ++ infos.toArray = found ++ (info :: infos).toArray := by simp
    refine ⟨last, ?_⟩
    rw [collectEntries, repeatUntil_apply, collectEntry_of_nextEntry hother hskip, ← hfound]
    exact hmore

end Lists

section Streams

variable [ByteSource σ] [ByteSink τ] {holds : τ → List UInt8 → Prop}

/-- A walk on an infallible stream is one on the list of the bytes. -/
theorem EntryWalk.exists_list (hsink : IsCollector holds) {infos : List EntryInfo}
    {handle final : Archive σ} (h : EntryWalk holds infos handle final) {bytes : List UInt8}
    (hstream : Yields handle.stream bytes) : ∃ rest, Yields final.stream rest ∧
      EntryWalk Eq infos ⟨bytes, handle.state⟩ ⟨rest, final.state⟩ := by
  have hnextEntry : Simulates (Related (Yields : σ → List UInt8 → Prop)) nextEntry nextEntry :=
    simulates_nextEntry Yields.isDelivery.readsAlike
  induction h generalizing bytes with
  | nil hnext =>
    obtain ⟨rest, hlist, hrest⟩ := exists_ok_list_of_yields hnextEntry hstream hnext
    exact ⟨rest, hrest, .nil hlist⟩
  | @cons info infos handle opened behind final hnext hleave _ ih =>
    obtain ⟨ahead, hlist, hahead⟩ := exists_ok_list_of_yields hnextEntry hstream hnext
    obtain ⟨left, hleft, hleave⟩ : ∃ left, Yields behind.stream left ∧
        LeavesEntry Eq (⟨ahead, opened.state⟩ : Archive (List UInt8)) ⟨left, behind.state⟩ := by
      cases hleave with
      | extract hheld hrun =>
        obtain ⟨kept, left, hrun, hleft⟩ := exists_extract_list hsink hheld hahead hrun
        exact ⟨left, hleft, .extract rfl hrun⟩
      | skip hrun =>
        obtain ⟨left, hrun, hleft⟩ := exists_ok_list_of_yields
          (simulates_skipFile Yields.isDelivery.readsAlike) hahead hrun
        exact ⟨left, hleft, .skip hrun⟩
    obtain ⟨rest, hrest, hmore⟩ := ih hleft
    exact ⟨rest, hrest, .cons hlist hleave hmore⟩

/-- **Skipping an entry lands where extracting it does.** Let successful calls on an infallible stream,
whatever it holds, lead to a handle: in front of an entry, behind its metadata, inside its content, or
behind that.

* If the entry can be extracted to an infallible sink, it can be skipped. Both end in front of the same
  bytes, between two entries, with nothing known of either; their states differ in nothing but the
  progress through the last payload.
* If somebody walks from there to the end of the archive and extracts or skips each entry, a listing
  finds the same entries and ends in the same place. -/
theorem skipFile_lands_with_extract [ByteSink ρ] (hsink : IsCollector holds)
    {start handle : Archive σ} (hfresh : start.state.IsFresh) {bytes : List UInt8}
    (hstream : Yields start.stream bytes) (hreached : Reached ρ start handle) :
    (∀ (copy copied : CopySink τ) (held : List UInt8) (extracted : Archive σ),
      holds copy.stream held → extract (copy, handle) = .ok () (copied, extracted) →
      ∃ skipped, skipFile handle = .ok () skipped ∧ LandsWith extracted skipped ∧
        extracted.state.IsSettled ∧ skipped.state.IsSettled) ∧
    ∀ (infos : List EntryInfo) (final : Archive σ), EntryWalk holds infos handle final →
      ∀ found : Array EntryInfo, ∃ listed,
        collectEntries (found, handle) = .ok () (found ++ infos.toArray, listed) ∧
        LandsWith final listed := by
  obtain ⟨ahead, hahead, hpoint⟩ := hreached.exists_rest hfresh hstream
  constructor
  · intro copy copied held extracted hheld hrun
    -- In front of the archive header there is nothing to extract.
    have halong : handle.state.IsAlongEntry := by
      refine hpoint.resolve_left fun hclosed => ?_
      rw [(refusesEntries_of_validatingFormat hclosed.unpacker).extract copy] at hrun
      cases hrun
    obtain ⟨kept, rest, hlist, hrest⟩ := exists_extract_list hsink hheld hahead hrun
    obtain ⟨⟨rest, left⟩, hskip, rfl⟩ := skipFile_of_extract halong hlist
    obtain ⟨skipped, hskip, hskipped⟩ := exists_ok_of_yields
      (simulates_skipFile Yields.isDelivery.readsAlike) hahead hskip
    have hextracted : extracted.state.IsSettled := isSettled_of_extract halong hlist
    have hsettled := isSettled_of_skipFile halong hskip
    -- Neither of the two calls touches the rest of the state.
    have hsetup : extracted.setup = handle.setup := (keeps_extract (copy, handle)).of_ok hrun
    have hsetup' := (keeps_skipFile handle).of_ok hskip
    exact ⟨_, hskip, ⟨⟨rest, hrest, hskipped⟩,
      hextracted.eq_of_setup hsettled (hsetup.trans hsetup'.symm)⟩, hextracted, hsettled⟩
  · intro infos final hwalk found
    obtain ⟨rest, hrest, hlist⟩ := hwalk.exists_list hsink hahead
    obtain ⟨left, hcollect⟩ := collectEntries_of_entryWalk hlist handle.state.incoming found
    have hresult := simulates_collectEntries Yields.isDelivery.readsAlike (found, handle)
      (found, ⟨ahead, handle.state⟩) ⟨rfl, hahead, rfl⟩
    rw [show collectEntries (found, (⟨ahead, handle.state⟩ : Archive (List UInt8))) = _
      from hcollect] at hresult
    obtain ⟨⟨_, listed⟩, hrun, rfl, hlisted, hstate⟩ := hresult.exists_ok
    refine ⟨listed, hrun, ⟨rest, hrest, hlisted⟩, ?_⟩
    rw [hstate]

end Streams

/-- An entry in two records, of which the first byte has been read: what is left of it is extracted and
skipped. A listing finds it. -/
theorem skipFile_lands_with_extract_parted :
    let start := reader (Marker.bytes
      ++ (ArchiveHeader.current.record.fixed.toBytes ++ segmentBytes parted.segments))
    (∃ opened taken handle copied extracted skipped, Reached BoundedSink start opened ∧
      readFileData 1 opened = .ok taken handle ∧ taken ≠ [] ∧
      extract ((⟨[], 0⟩ : CopySink (List UInt8)), handle) = .ok () (copied, extracted) ∧
      skipFile handle = .ok () skipped ∧ LandsWith extracted skipped) ∧
    ∃ between listed, Reached BoundedSink start between ∧
      collectEntries (#[], between) = .ok () (#[.regular "a"], listed) := by
  intro start
  have hfresh : start.state.IsFresh := ⟨rfl, rfl⟩
  have hstream : Yields start.stream start.stream := ⟨_, isDelivery_eq, rfl⟩
  -- the calls that lead into the entry
  obtain ⟨between, hheader, hbetween⟩ := readArchiveHeader_of_marker (by decide : ¬ _ <:+: [])
    (segmentBytes parted.segments) hfresh.mode hfresh.unpacker
  have hfirst : (UnpackerCall.readArchiveHeader : UnpackerCall BoundedSink).run start
      = .ok () ⟨segmentBytes parted.segments, between⟩ := bind_of_ok hheader
  obtain ⟨opened, hinfo, hpending⟩ := (isEntry_iff_currentFileInfo hbetween).mp
    ⟨parted.first, parted.later, parted.isEntry, (List.append_nil _).symm, rfl⟩
  have hopened := isInside_of_currentFileInfo hbetween hinfo
  have hsecond : (UnpackerCall.currentFileInfo : UnpackerCall BoundedSink).run
      ⟨segmentBytes parted.segments, between⟩ = .ok () opened := bind_of_ok hinfo
  obtain ⟨taken, handle, hread, hgiven⟩ :=
    (pending_iff_readFileData (by decide : 0 < 1) hopened).mp hpending
  have hthird : (UnpackerCall.readFileData 1 : UnpackerCall BoundedSink).run opened
      = .ok () handle := bind_of_ok hread
  constructor
  · rcases hgiven with ⟨hne, more, -, hmore⟩ | ⟨-, hnothing, -⟩
    · have hinside := (isAfter_of_readFileData (by decide) hopened hread).inside hne
      obtain ⟨copied, behind, hextract⟩ := exists_extract_of_pending hinside hmore ⟨[], 0⟩
      obtain ⟨hskips, -⟩ := skipFile_lands_with_extract isCollector_eq hfresh hstream
        (((Reached.refl.step hfirst).step hsecond).step hthird)
      obtain ⟨skipped, hskip, hlands, -⟩ := hskips _ _ _ _ rfl hextract
      exact ⟨opened, taken, handle, copied, _, skipped, (Reached.refl.step hfirst).step hsecond,
        hread, hne, hextract, hskip, hlands⟩
    · exact absurd (show ([1, 2] : List UInt8) = [] from hnothing) (by decide)
  · have hnext : nextEntry ⟨segmentBytes parted.segments, between⟩
        = .ok (some (.regular "a")) opened := by
      rw [nextEntry_of_isBetween hbetween]
      exact unlessEof_eq_some.mpr hinfo
    obtain ⟨copied, behind, hextract⟩ := exists_extract_of_pending hopened hpending ⟨[], 0⟩
    have hend := (isSettled_of_extract (.inside hopened) hextract).isBetweenEntries
    have hwalk := EntryWalk.cons hnext (.extract rfl hextract)
      (.nil (nextEntry_eq_none.mpr ⟨hend, rfl, rfl⟩))
    obtain ⟨-, hlists⟩ := skipFile_lands_with_extract isCollector_eq hfresh hstream
      (Reached.refl.step hfirst)
    obtain ⟨listed, hlisted, -⟩ := hlists _ _ hwalk #[]
    exact ⟨_, listed, Reached.refl.step hfirst, hlisted⟩

end Archive

end RecordArchive
