import RecordArchive.Proofs.Archive.Provenance
import RecordArchive.Proofs.Archive.Sealing
import RecordArchive.Proofs.Archive.Truncation

/-! # Archives that are cut off

An archive may have been cut at any byte behind its header. `FailsBehind` says what a caller gets who
goes through what is left, extracting or skipping entry after entry as they like: the entries that lie
wholly in front of the cut, and then an error.

* `cutError segments cut`: the error, which says whether records have been cut between two of them.
* `isCut_take`: the bytes in front of a cut are those of records that are cut with this error.
* `Archive.failsBehind_cut`: so it is for every archive, every cut and every walk.
* `Archive.eof_inside_entry`: between two records of one entry the error is that of a clean end. -/

namespace RecordArchive

open Program Call

variable {σ τ ρ : Type}

/-! ## Where an archive is cut -/

/-- The records of an entry. -/
structure EntryRecords where
  info : EntryInfo
  first : Segment
  later : List Segment
  isEntry : IsEntry info first later

namespace EntryRecords

/-- The file header and the fragments, with their payloads. -/
def segments (entry : EntryRecords) : List Segment := entry.first :: entry.later

/-- The bytes of the entry. -/
def toBytes (entry : EntryRecords) : List UInt8 := segmentBytes entry.segments

/-- The metadata and the content. -/
def value (entry : EntryRecords) : EntryInfo × List UInt8 := (entry.info, contentOf entry.segments)

end EntryRecords

/-- The records of entries in a row. -/
def recordsOf (entries : List EntryRecords) : List Segment := entries.flatMap EntryRecords.segments

/-- The records of the first entry come first. -/
@[simp] theorem recordsOf_cons (entry : EntryRecords) (more : List EntryRecords) :
    recordsOf (entry :: more) = entry.segments ++ recordsOf more := rfl

/-- The entries that lie wholly in front of a cut. -/
def wholeBefore (cut : Nat) : List EntryRecords → List EntryRecords
  | [] => []
  | entry :: more =>
    if entry.toBytes.length ≤ cut then entry :: wholeBefore (cut - entry.toBytes.length) more else []

/-- The cut falls behind a record and its payload, or in front of all records. -/
def IsRecordEnd (segments : List Segment) (cut : Nat) : Prop :=
  ∃ front, front <+: segments ∧ (segmentBytes front).length = cut

/-- The error that a reader finds where records in a row are cut. -/
def cutError : List Segment → Nat → ArchiveError
  | [], _ => .eof
  | segment :: later, cut =>
    if cut < segment.toBytes.length then if cut = 0 then .eof else .prematureEof
    else cutError later (cut - segment.toBytes.length)

/-- No record is empty. -/
theorem Segment.length_toBytes_pos (segment : Segment) : 0 < segment.toBytes.length := by
  rw [toBytes, List.length_append]
  have := List.length_pos_iff.mpr segment.record.toBytes_ne_nil
  omega

/-- A record ends at the start, or behind the first one. -/
theorem isRecordEnd_cons {segment : Segment} {later : List Segment} {cut : Nat} :
    IsRecordEnd (segment :: later) cut ↔ cut = 0 ∨ segment.toBytes.length ≤ cut ∧
      IsRecordEnd later (cut - segment.toBytes.length) := by
  constructor
  · rintro ⟨front, hfront, rfl⟩
    rcases List.prefix_cons_iff.mp hfront with rfl | ⟨front, rfl, hlater⟩
    · exact .inl rfl
    · refine .inr ⟨?_, front, hlater, ?_⟩
      all_goals
        rw [segmentBytes_cons, List.length_append]
        omega
  · rintro (rfl | ⟨hle, front, hlater, hlength⟩)
    · exact ⟨[], List.nil_prefix, rfl⟩
    · refine ⟨segment :: front, List.prefix_cons_iff.mpr (.inr ⟨front, rfl, hlater⟩), ?_⟩
      rw [segmentBytes_cons, List.length_append]
      omega

/-- **The error says where the cut falls**: it is that of a clean end where a record ends. -/
theorem cutError_spec {segments : List Segment} {cut : Nat}
    (hcut : cut ≤ (segmentBytes segments).length) :
    (cutError segments cut = .eof ↔ IsRecordEnd segments cut) ∧
      (cutError segments cut = .prematureEof ↔ ¬ IsRecordEnd segments cut) := by
  induction segments generalizing cut with
  | nil =>
    have hend : IsRecordEnd [] cut := ⟨[], List.nil_prefix, (Nat.le_zero.mp hcut).symm⟩
    simp [cutError, hend]
  | cons segment later ih =>
    have hpos := segment.length_toBytes_pos
    rw [segmentBytes_cons, List.length_append] at hcut
    rw [isRecordEnd_cons, cutError]
    by_cases hlt : cut < segment.toBytes.length
    · have hnot : ¬ segment.toBytes.length ≤ cut := by omega
      rw [if_pos hlt]
      by_cases hzero : cut = 0
      · simp [hzero]
      · simp [hzero, hnot]
    · have hle : segment.toBytes.length ≤ cut := by omega
      have hzero : cut ≠ 0 := by omega
      rw [if_neg hlt]
      simpa [hzero, hle] using ih (by omega)

/-- The error where the cut falls into the first of some records. -/
theorem cutError_append_of_lt {front back : List Segment} {cut : Nat}
    (hcut : cut < (segmentBytes front).length) :
    cutError (front ++ back) cut = cutError front cut := by
  induction front generalizing cut with
  | nil => exact absurd hcut (Nat.not_lt_zero _)
  | cons segment later ih =>
    rw [segmentBytes_cons, List.length_append] at hcut
    rw [List.cons_append, cutError, cutError]
    by_cases hlt : cut < segment.toBytes.length
    · rw [if_pos hlt, if_pos hlt]
    · rw [if_neg hlt, if_neg hlt, ih (by omega)]

/-- The error where the cut falls behind the first of some records. -/
theorem cutError_append_of_le {front back : List Segment} {cut : Nat}
    (hcut : (segmentBytes front).length ≤ cut) :
    cutError (front ++ back) cut = cutError back (cut - (segmentBytes front).length) := by
  induction front generalizing cut with
  | nil => rfl
  | cons segment later ih =>
    rw [segmentBytes_cons, List.length_append] at hcut ⊢
    rw [List.cons_append, cutError, if_neg (by omega), ih (by omega), Nat.sub_add_eq]

/-- **The bytes in front of a cut** are those of records that are cut. -/
theorem isCut_take {segments : List Segment} {cut : Nat}
    (hcut : cut < (segmentBytes segments).length) :
    IsCut segments ((segmentBytes segments).take cut) (cutError segments cut) := by
  induction segments generalizing cut with
  | nil => exact absurd hcut (Nat.not_lt_zero _)
  | cons segment later ih =>
    rw [segmentBytes_cons, List.length_append] at hcut
    rw [segmentBytes_cons, cutError, List.take_append]
    by_cases hlt : cut < segment.toBytes.length
    · have hnone : cut - segment.toBytes.length = 0 := by omega
      rw [if_pos hlt, hnone, List.take_zero, List.append_nil]
      by_cases hzero : cut = 0
      · rw [if_pos hzero, hzero]
        exact .boundary segment later
      rw [if_neg hzero, Segment.toBytes]
      rw [Segment.toBytes, List.length_append] at hlt
      by_cases hrecord : cut < segment.record.toBytes.length
      · -- The cut goes through the record itself.
        rw [List.take_append_of_le_length (Nat.le_of_lt hrecord)]
        refine .record later (List.take_append_drop cut _).symm ?_ ?_
        · exact List.ne_nil_of_length_pos (by rw [List.length_take]; omega)
        · exact List.ne_nil_of_length_pos (by rw [List.length_drop]; omega)
      · rw [List.take_append, List.take_of_length_le (Nat.le_of_not_lt hrecord)]
        refine .payload later ?_
        rw [List.length_take]
        omega
    · rw [if_neg hlt, List.take_of_length_le (Nat.le_of_not_lt hlt)]
      exact .behind segment (ih (by omega))

/-- The entries in front of a cut are the first ones. -/
theorem wholeBefore_prefix (cut : Nat) (entries : List EntryRecords) :
    wholeBefore cut entries <+: entries := by
  induction entries generalizing cut with
  | nil => exact List.prefix_rfl
  | cons entry more ih =>
    rw [wholeBefore]
    split
    next => exact List.prefix_cons_iff.mpr (.inr ⟨_, rfl, ih _⟩)
    next => exact List.nil_prefix

/-! ## Going through an archive -/

namespace Archive

section Simulations

variable [ByteSource σ] [ByteSource ρ] {streams : σ → ρ → Prop}

/-- A round of skipping does the same on streams that are read alike. -/
theorem simulates_skipRound (h : ReadsAlike streams) :
    Simulates (Related streams) skipRound skipRound :=
  (simulates_leavePayload h).bind fun _ => simulates_state.bind fun _ =>
    .ite ((simulates_readFragment h).bind fun _ => .pure _) (.pure _)

/-- Skipping starts alike on streams that are read alike. -/
theorem simulates_beginSkip (h : ReadsAlike streams) :
    Simulates (Related streams) beginSkip beginSkip := by
  refine simulates_state.bind fun state => ?_
  rcases state.unpacker with _ | _ | _ | _
  · exact .throw _
  · exact (simulates_readRecord h).bind fun _ => (simulates_require _ _).bind fun _ =>
      simulates_update _
  · exact .pure ()
  · exact .pure ()

/-- **Skipping** does the same on streams that are read alike. -/
theorem simulates_skipFile (h : ReadsAlike streams) :
    Simulates (Related streams) skipFile skipFile :=
  (simulates_expectReading _).bind fun _ => (simulates_beginSkip h).bind fun _ =>
    (Simulates.repeatUntil (simulates_skipRound h)).bind fun _ => simulates_update _

/-- **Unpacking an entry** does the same on streams that are read alike. -/
theorem simulates_unpackEntry [ByteSink τ] {holds : τ → List UInt8 → Prop} (h : ReadsAlike streams)
    (hsink : IsCollector holds) :
    Simulates (Paired (SameCopy holds) streams) unpackEntry unpackEntry :=
  (simulates_lift (simulates_currentFileInfo h)).bind fun _ =>
    (simulates_extract h hsink).bind fun _ => .pure _

end Simulations

/-- **A walk fails behind some entries**: whether the caller extracts or skips them, one after another,
each of them is given, and behind the last one either way ends with the error. -/
def FailsBehind [ByteSource σ] [ByteSink τ] (holds : τ → List UInt8 → Prop) (error : ArchiveError) :
    List (EntryInfo × List UInt8) → Archive σ → Prop
  | [], handle =>
    (∀ sink held, holds sink held → ∃ final,
      unpackEntry ((⟨sink, 0⟩ : CopySink τ), handle) = .error error final) ∧
    ∃ final, skipFile handle = .error error final
  | (info, content) :: more, handle =>
    (∀ sink held, holds sink held → ∃ (copy : CopySink τ) (final : Archive σ),
      unpackEntry ((⟨sink, 0⟩ : CopySink τ), handle) = .ok info (copy, final) ∧
      holds copy.stream (held ++ content) ∧ copy.total = content.length ∧
      FailsBehind holds error more final) ∧
    ∃ final, skipFile handle = .ok () final ∧ FailsBehind holds error more final

section Streams

variable [ByteSource σ] [ByteSink τ] {holds : τ → List UInt8 → Prop} {stream : σ}
  {bytes rest : List UInt8} {state : HandleState} {error : ArchiveError}

/-- A walk that fails at once on the list of the bytes does so on a stream that delivers them. -/
theorem failsBehind_nil (hsink : IsCollector holds) (hstream : Yields stream bytes)
    (hunpack : ∀ copy : CopySink (List UInt8),
      ∃ final, unpackEntry (copy, ⟨bytes, state⟩) = .error error final)
    (hskip : ∃ final, skipFile ⟨bytes, state⟩ = .error error final) :
    FailsBehind holds error [] ⟨stream, state⟩ := by
  refine ⟨fun sink held hheld => ?_, ?_⟩
  · obtain ⟨final, hlist⟩ := hunpack ⟨held, 0⟩
    have hresult := simulates_unpackEntry Yields.isDelivery.readsAlike hsink
      (⟨sink, 0⟩, ⟨stream, state⟩) (⟨held, 0⟩, ⟨bytes, state⟩) ⟨⟨hheld, rfl⟩, hstream, rfl⟩
    rw [hlist] at hresult
    obtain ⟨final, hrun, -⟩ := hresult.exists_error
    exact ⟨final, hrun⟩
  · obtain ⟨⟨rest, behind⟩, hlist⟩ := hskip
    obtain ⟨final, hrun, -⟩ := exists_error_of_yields
      (simulates_skipFile Yields.isDelivery.readsAlike) hstream hlist
    exact ⟨_, hrun⟩

/-- An entry at the front of a stream is unpacked to a sink. -/
theorem unpackEntry_of_isEntry (hsink : IsCollector holds) {sink : τ} {held : List UInt8}
    (hheld : holds sink held) {info : EntryInfo} {first : Segment} {later : List Segment}
    (hstate : state.IsBetweenEntries)
    (hstream : Yields stream (segmentBytes (first :: later) ++ rest))
    (hentry : IsEntry info first later) : ∃ (copy : CopySink τ) (final : Archive σ),
      unpackEntry ((⟨sink, 0⟩ : CopySink τ), ⟨stream, state⟩) = .ok info (copy, final) ∧
        holds copy.stream (held ++ contentOf (first :: later)) ∧
        copy.total = (contentOf (first :: later)).length ∧
        Yields final.stream rest ∧ final.state.IsBetweenEntries := by
  obtain ⟨⟨_, inside⟩, hlist, -⟩ := (isEntry_iff_currentFileInfo hstate).mp
    ⟨first, later, hentry, rfl, rfl⟩
  obtain ⟨middle, hinfo, -⟩ := exists_ok_of_yields
    (simulates_currentFileInfo Yields.isDelivery.readsAlike) hstream hlist
  obtain ⟨copy, final, hrun, hcopy, htotal, hrest, hbetween⟩ :=
    extract_of_isEntry hsink hheld hstate hstream hentry
  rw [← extract_of_currentFileInfo hstate hinfo (isInside_of_currentFileInfo hstate hlist)] at hrun
  refine ⟨copy, final, ?_, hcopy, htotal, hrest, hbetween⟩
  rw [unpackEntry, bind_of_ok (lift_eq_ok.mpr ⟨_, hinfo, rfl⟩), bind_of_ok hrun]
  rfl

end Streams

/-- Behind the last entry a walk ends. -/
theorem unpackEntry_nil {state : HandleState} (hstate : state.IsBetweenEntries)
    (copy : CopySink (List UInt8)) :
    ∃ final, unpackEntry (copy, (⟨[], state⟩ : Archive (List UInt8))) = .error .eof final := by
  have hinfo : currentFileInfo ⟨([] : List UInt8), state⟩ = .error .eof ⟨[], state⟩ := by
    rw [currentFileInfo_of_isBetween hstate]
    exact bind_of_error (readRecord_nil hstate.mode)
  exact ⟨_, bind_of_error (lift_of_error hinfo)⟩

/-- Where no byte is left, there is no entry to skip. -/
theorem skipFile_nil {state : HandleState} (hstate : state.IsBetweenEntries) :
    ∃ final, skipFile (⟨[], state⟩ : Archive (List UInt8)) = .error .eof final := by
  have hexpect : expectReading "skip_file" ⟨([] : List UInt8), state⟩ = .ok () ⟨[], state⟩ :=
    expectReading_eq_ok.mpr ⟨⟨_, hstate.mode⟩, rfl⟩
  have hskip : beginSkip ⟨([] : List UInt8), state⟩ = .error .eof ⟨[], state⟩ := by
    rw [beginSkip, bind_of_ok (state_apply _)]
    simp only [hstate.unpacker]
    exact bind_of_error (readRecord_nil hstate.mode)
  rw [skipFile, bind_of_ok hexpect]
  exact ⟨_, bind_of_error hskip⟩

section Walk

variable [ByteSource σ] [ByteSink τ] {holds : τ → List UInt8 → Prop}

/-- **Every walk** over an archive that is cut gives the entries in front of the cut, and then finds
it. -/
theorem failsBehind_cutError (hsink : IsCollector holds) (entries : List EntryRecords) {cut : Nat}
    {handle : Archive σ}
    (hstream : Yields handle.stream ((segmentBytes (recordsOf entries)).take cut))
    (hstate : handle.state.IsBetweenEntries) :
    FailsBehind holds (cutError (recordsOf entries) cut)
      ((wholeBefore cut entries).map EntryRecords.value) handle := by
  obtain ⟨stream, state⟩ := handle
  induction entries generalizing cut stream state with
  | nil =>
    have hnil : Yields stream [] := by
      have hempty : (segmentBytes (recordsOf [])).take cut = [] := List.take_nil
      rwa [hempty] at hstream
    exact failsBehind_nil hsink hnil (unpackEntry_nil hstate) (skipFile_nil hstate)
  | cons entry more ih =>
    rw [recordsOf_cons, segmentBytes_append, List.take_append] at hstream
    rw [recordsOf_cons, wholeBefore]
    by_cases hwhole : entry.toBytes.length ≤ cut
    · -- The entry is there, and the others are cut.
      have hall : (segmentBytes entry.segments).take cut = segmentBytes entry.segments :=
        List.take_of_length_le hwhole
      rw [hall] at hstream
      rw [if_pos hwhole, cutError_append_of_le hwhole]
      refine ⟨fun sink held hheld => ?_, ?_⟩
      · obtain ⟨copy, final, hrun, hcopy, htotal, hrest, hbetween⟩ :=
          unpackEntry_of_isEntry hsink hheld hstate hstream entry.isEntry
        exact ⟨copy, final, hrun, hcopy, htotal, ih _ _ hrest hbetween⟩
      · obtain ⟨final, hlist, hbetween⟩ := skipFile_of_isEntry entry.isEntry
          ((segmentBytes (recordsOf more)).take (cut - entry.toBytes.length)) hstate
        obtain ⟨rest, hrun, hrest⟩ := exists_ok_of_yields
          (simulates_skipFile Yields.isDelivery.readsAlike) hstream hlist
        exact ⟨_, hrun, ih _ _ hrest hbetween⟩
    · have hlt : cut < entry.toBytes.length := Nat.lt_of_not_le hwhole
      have hnone : cut - (segmentBytes entry.segments).length = 0 :=
        Nat.sub_eq_zero_of_le (Nat.le_of_lt hlt)
      rw [hnone, List.take_zero, List.append_nil] at hstream
      rw [if_neg hwhole, cutError_append_of_lt hlt]
      have hcut := isCut_take hlt
      exact failsBehind_nil hsink hstream (unpackEntry_of_isCut entry.isEntry hcut hstate)
        (skipFile_of_isCut entry.isEntry hcut hstate)

/-- **An archive that is cut** at any byte behind its header, on any infallible stream and with any
infallible sinks: whether entries are extracted or skipped, those that lie wholly in front of the cut
are given, and then the error is that of a clean end if and only if the cut falls behind a record and
its payload, in particular if it falls between two entries; everywhere else it is that of a premature
end. -/
theorem failsBehind_cut (hsink : IsCollector holds) (entries : List EntryRecords) {cut : Nat}
    (hcut : cut ≤ (segmentBytes (recordsOf entries)).length) {handle : Archive σ}
    (hstream : Yields handle.stream ((segmentBytes (recordsOf entries)).take cut))
    (hstate : handle.state.IsBetweenEntries) : ∃ error,
      FailsBehind holds error ((wholeBefore cut entries).map EntryRecords.value) handle ∧
      (error = .eof ↔ IsRecordEnd (recordsOf entries) cut) ∧
      (error = .prematureEof ↔ ¬ IsRecordEnd (recordsOf entries) cut) ∧
      ((segmentBytes (recordsOf (wholeBefore cut entries))).length = cut → error = .eof) := by
  obtain ⟨hend, hinside⟩ := cutError_spec hcut
  refine ⟨_, failsBehind_cutError hsink entries hstream hstate, hend, hinside, fun hbetween => ?_⟩
  obtain ⟨ahead, hahead⟩ := wholeBefore_prefix cut entries
  refine hend.mpr ⟨recordsOf (wholeBefore cut entries), ⟨recordsOf ahead, ?_⟩, hbetween⟩
  rw [recordsOf, recordsOf, ← List.flatMap_append, hahead]
  rfl

end Walk

end Archive

/-! ### An entry in two records -/

open Archive

/-- A fragment with one byte of payload. -/
def fragmentOf (content : UInt8) : Segment := (⟨unsized, [[content]]⟩ : Draft).segment

/-- The start of the entry is as the writer makes it. -/
theorem isSound_startOf : (startOf 1).IsSound := by
  have habsent : (startOf 1).record.hasAddedCrc = false := by decide +kernel
  refine ⟨⟨rfl, ?_, ?_, fun _ => ?_⟩, ?_, fun _ h => nomatch habsent.symm.trans h⟩
  all_goals decide +kernel

/-- The fragment is as the writer makes it. -/
theorem isSound_fragmentOf : (fragmentOf 2).IsSound := by
  have habsent : (fragmentOf 2).record.hasAddedCrc = false := by decide +kernel
  refine ⟨⟨rfl, ?_, ?_, fun _ => ?_⟩, ?_, fun _ h => nomatch habsent.symm.trans h⟩
  all_goals decide +kernel

/-- The fragment has the right checksum. -/
theorem isValid_fragmentOf : (fragmentOf 2).record.isValid = true := by
  cbv

/-- An entry whose content goes on in a fragment. -/
def parted : EntryRecords where
  info := .regular "a"
  first := startOf 1
  later := [fragmentOf 2]
  isEntry := by
    have hheader : EntryInfo.ofRecord (startOf 1).record = .ok (.regular "a") :=
      ofRecord_eq_ok.mpr ⟨isValid_startOf, rfl, parse_startOf⟩
    exact isEntry_iff.mpr ⟨hheader, isSound_startOf,
      .more rfl isValid_fragmentOf isSound_fragmentOf .last, rfl⟩

/-- The fragment begins behind twenty of thirty-one bytes. -/
theorem length_parted : (startOf 1).toBytes.length = 20 ∧ parted.toBytes.length = 31 := by
  constructor
  all_goals cbv

/-- A handle between two entries, in front of these bytes. -/
def inFrontOf (bytes : List UInt8) : Archive (List UInt8) :=
  ⟨bytes, { mode := .reading .atRecordHeader, unpacker := .fileHeader }⟩

/-- Of two such entries the second one is cut inside its file header. -/
theorem Archive.failsBehind_cut_parted : ∃ error,
    FailsBehind (fun (sink : BoundedSink) held => sink.room? = none ∧ sink.bytes.toList = held) error
      [(.regular "a", [1, 2])]
      (inFrontOf ((segmentBytes (recordsOf [parted, parted])).take 34)) ∧ error = .prematureEof := by
  have hlength : 34 ≤ (segmentBytes (recordsOf [parted, parted])).length := by
    show 34 ≤ (parted.toBytes ++ (parted.toBytes ++ [])).length
    rw [List.append_nil, List.length_append, length_parted.2]
    decide
  have hbefore : (wholeBefore 34 [parted, parted]).map EntryRecords.value
      = [(.regular "a", [1, 2])] := by cbv
  have herror : cutError (recordsOf [parted, parted]) 34 = .prematureEof := by decide +kernel
  obtain ⟨error, hwalk, -, hinside, -⟩ := failsBehind_cut BoundedSink.isCollector
    [parted, parted] hlength (⟨_, isDelivery_eq, rfl⟩ : Yields (inFrontOf _).stream _) ⟨rfl, rfl⟩
  rw [hbefore] at hwalk
  exact ⟨error, hwalk, hinside.mpr ((cutError_spec hlength).2.mp herror)⟩

/-- **A clean end inside an entry**: an entry that is given when it is whole ends as an archive does
where it is cut between its two records. -/
theorem Archive.eof_inside_entry :
    (∃ copy final, unpackEntry ((⟨[], 0⟩ : CopySink (List UInt8)), inFrontOf parted.toBytes)
      = .ok (.regular "a") (copy, final) ∧ copy.stream = [1, 2]) ∧
    parted.toBytes.take 20 = parted.first.toBytes ∧
    (∃ final, unpackEntry ((⟨[], 0⟩ : CopySink (List UInt8)), inFrontOf (parted.toBytes.take 20))
      = .error .eof final) ∧
    ∃ final, skipFile (inFrontOf (parted.toBytes.take 20)) = .error .eof final := by
  have hbetween : (inFrontOf []).state.IsBetweenEntries := ⟨rfl, rfl⟩
  have hcut : 20 < parted.toBytes.length := by rw [length_parted.2]; decide
  have hclean : IsCut parted.segments (parted.toBytes.take 20) .eof := by
    have herror : cutError parted.segments 20 = .eof := by decide +kernel
    exact herror ▸ isCut_take hcut
  have hwhole : Yields (inFrontOf parted.toBytes).stream (parted.toBytes ++ []) :=
    ⟨_, isDelivery_eq, (List.append_nil _).symm⟩
  obtain ⟨copy, final, hrun, hcopy, -⟩ :=
    unpackEntry_of_isEntry isCollector_eq (rfl : [] = []) hbetween hwhole parted.isEntry
  exact ⟨⟨copy, final, hrun, hcopy⟩, by cbv, unpackEntry_of_isCut parted.isEntry hclean hbetween _,
    skipFile_of_isCut parted.isEntry hclean hbetween⟩

end RecordArchive
