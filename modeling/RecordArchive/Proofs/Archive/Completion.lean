import RecordArchive.Proofs.Archive.Extraction
import RecordArchive.Proofs.Archive.Provenance

/-! # Entries that are reported complete

The reader compares the checksum of a payload when it takes the last byte, and says so once: the
failed call has left the payload, and the next one goes on behind it.

* `Passed front continued rest`: the records of an entry that starts with `front` were read up to
  `rest`, each with a payload that it describes.
* `Checks unread front handle`: inside an entry the handle has passed all payloads behind it, and
  knows what it needs to judge the one in which it stands. Every call of the unpacker keeps this
  (`Tracks`) unless it is the one that reports a wrong checksum, or breaks off inside the stream.
* `TrackedRun.never_complete`: so an entry with a payload that does not match is not reported
  complete before the mismatch has been reported. `Archive.complete_behind_mismatch`: afterwards it
  is. -/

namespace RecordArchive

open Program Call Archive

variable {σ τ : Type}

/-! ## Records in a row -/

/-- Bytes start with one record at most. -/
theorem Record.toBytes_append_inj {record other : Record} (hrecord : record.IsNormal)
    (hother : other.IsNormal) {rest more : List UInt8}
    (h : record.toBytes ++ rest = other.toBytes ++ more) : record = other ∧ rest = more := by
  let state : HandleState := { mode := .reading .atRecordHeader }
  have hread : readRecord ⟨record.toBytes ++ rest, state⟩
      = .ok record ⟨rest, state.behind record⟩ :=
    readRecord_eq_ok.mpr ⟨rfl, hrecord, rest, rfl, rfl⟩
  have hsame : readRecord ⟨other.toBytes ++ more, state⟩ = .ok other ⟨more, state.behind other⟩ :=
    readRecord_eq_ok.mpr ⟨rfl, hother, more, rfl, rfl⟩
  rw [h, hsame] at hread
  cases hread
  exact ⟨rfl, rfl⟩

/-- Whether more content is awaited behind a record that stands where the content should go on: only
an undamaged fragment can end it. -/
def Record.leavesOpen (record : Record) : Bool :=
  if record.kind = .dataFragment ∧ record.isValid = true then record.isContinued else true

/-- **Records where the content should go on**: while more is awaited one follows the other, and
behind the last one `final` says whether more is awaited. -/
def GoesOn : Bool → List Record → Bool → Prop
  | continued, [], final => continued = final
  | continued, record :: later, final => continued = true ∧ GoesOn record.leavesOpen later final

/-- The records from the file header of an entry on; `continued` says whether more is awaited. -/
def IsChain : List Record → Bool → Prop
  | [], _ => False
  | header :: later, continued => GoesOn header.isContinued later continued

/-- Records that leave an entry open can be followed by one more. -/
theorem GoesOn.snoc {continued : Bool} {records : List Record} (h : GoesOn continued records true)
    (record : Record) : GoesOn continued (records ++ [record]) record.leavesOpen := by
  induction records generalizing continued with
  | nil => exact ⟨h, rfl⟩
  | cons first later ih => exact ⟨h.1, ih h.2⟩

/-- A chain that leaves its entry open can be followed by one more record. -/
theorem IsChain.snoc {records : List Record} (h : IsChain records true) (record : Record) :
    IsChain (records ++ [record]) record.leavesOpen := by
  cases records with
  | nil => exact h.elim
  | cons header later => exact GoesOn.snoc h record

/-- **The records of an entry that were passed**, with the payloads that they describe; `continued`
says whether more content is awaited behind them. -/
def Passed (front : List UInt8) (continued : Bool) (rest : List UInt8) : Prop :=
  ∃ segments : List Segment, (∀ segment ∈ segments, segment.IsSound) ∧
    IsChain (segments.map Segment.record) continued ∧ front = segmentBytes segments ++ rest

/-- The records of an entry up to one whose payload is still to come. -/
def Opened (front : List UInt8) (record : Record) (continued : Bool) (rest : List UInt8) : Prop :=
  record.IsNormal ∧ ∃ segments : List Segment, (∀ segment ∈ segments, segment.IsSound) ∧
    IsChain (segments.map Segment.record ++ [record]) continued ∧
    front = segmentBytes segments ++ (record.toBytes ++ rest)

/-- The file header is the first record. -/
theorem Opened.header {front rest : List UInt8} {record : Record} (hnormal : record.IsNormal)
    (hfront : front = record.toBytes ++ rest) : Opened front record record.isContinued rest :=
  ⟨hnormal, [], nofun, rfl, hfront⟩

/-- Where the content should go on comes the next record. -/
theorem Passed.opened {front rest : List UInt8} {record : Record} (hnormal : record.IsNormal)
    (h : Passed front true (record.toBytes ++ rest)) : Opened front record record.leavesOpen rest := by
  obtain ⟨segments, hsound, hchain, hfront⟩ := h
  exact ⟨hnormal, segments, hsound, hchain.snoc record, hfront⟩

/-- A record is passed with the payload that it describes. -/
theorem Opened.passed {front payload rest : List UInt8} {record : Record} {continued : Bool}
    (h : Opened front record continued (payload ++ rest))
    (hsound : (⟨record, payload⟩ : Segment).IsSound) : Passed front continued rest := by
  obtain ⟨-, segments, hsegments, hchain, hfront⟩ := h
  refine ⟨segments ++ [⟨record, payload⟩], ?_, ?_, ?_⟩
  · intro segment hsegment
    rcases List.mem_append.mp hsegment with hbefore | hlast
    · exact hsegments segment hbefore
    · exact List.mem_singleton.mp hlast ▸ hsound
  · rw [List.map_append]
    exact hchain
  · rw [hfront, segmentBytes_append, segmentBytes_cons, segmentBytes_nil, List.append_nil,
      Segment.toBytes]
    simp only [List.append_assoc]

/-! ### Every record of the entry -/

section Accepted

variable {later : List Segment} {bytes rest : List UInt8}

/-- Where the content goes on to its end, the records that are passed over are among those that were
read. -/
theorem GoesOn.behind {passed : List Record} (hpassed : ∀ other ∈ passed, other.IsPassedOver)
    (hsound : ∀ segment ∈ later, segment.IsSound)
    (hgoes : GoesOn true (later.map Segment.record) false)
    (hbytes : passed.flatMap Record.toBytes ++ bytes = segmentBytes later ++ rest) :
    ∃ others : List Segment, (∀ segment ∈ others, segment.IsSound) ∧
      GoesOn true (others.map Segment.record) false ∧ bytes = segmentBytes others ++ rest := by
  induction passed generalizing later with
  | nil => exact ⟨later, hsound, hgoes, hbytes⟩
  | cons other passed ih =>
    obtain ⟨hother, hothers⟩ := List.forall_mem_cons.mp hpassed
    cases later with
    | nil => exact absurd hgoes (by simp [GoesOn])
    | cons segment more =>
      obtain ⟨hsegment, hmore⟩ := List.forall_mem_cons.mp hsound
      rw [List.flatMap_cons, segmentBytes_cons, Segment.toBytes] at hbytes
      simp only [List.append_assoc] at hbytes
      obtain ⟨rfl, hrest⟩ := Record.toBytes_append_inj hother.normal hsegment.normal hbytes
      have hnil : segment.payload = [] :=
        hsegment.payload_eq_nil (by simp [hother.absent])
      rw [hnil, List.nil_append] at hrest
      refine ih hothers hmore ?_ hrest
      have hgoes := hgoes.2
      rwa [Record.leavesOpen, if_neg hother.refused] at hgoes

/-- **Every record of an entry** whose content was read to its end describes its payload. -/
theorem Passed.isSound_of_accepted {front : List UInt8} {record : Record}
    (h : Passed front false rest) (haccepted : Accepted front record bytes) :
    ∃ payload more, bytes = payload ++ more ∧ (⟨record, payload⟩ : Segment).IsSound := by
  obtain ⟨segments, hsound, hchain, hfront⟩ := h
  -- The record is one of those that were read, with the remaining ones behind it.
  have hread : ∃ (payload : List UInt8) (later : List Segment),
      (⟨record, payload⟩ : Segment).IsSound ∧ (∀ segment ∈ later, segment.IsSound) ∧
        GoesOn record.isContinued (later.map Segment.record) false ∧
        bytes = payload ++ (segmentBytes later ++ rest) := by
    induction haccepted with
    | header hnormal _ hheader =>
      cases segments with
      | nil => exact hchain.elim
      | cons first later =>
        obtain ⟨hfirst, hlater⟩ := List.forall_mem_cons.mp hsound
        rw [hheader, segmentBytes_cons, Segment.toBytes] at hfront
        simp only [List.append_assoc] at hfront
        obtain ⟨rfl, hbehind⟩ := Record.toBytes_append_inj hnormal hfirst.normal hfront
        exact ⟨first.payload, later, hfirst, hlater, hchain, hbehind⟩
    | @fragment previous record payload _ passed _ hlength hcontinued hpassed hnormal hkind hvalid
        ih =>
      obtain ⟨described, later, hprevious, hlater, hgoes, hbytes⟩ := ih
      rw [List.append_assoc] at hbytes
      obtain ⟨-, hbehind⟩ := List.append_inj hbytes (hlength.trans hprevious.length_eq.symm)
      rw [hcontinued] at hgoes
      obtain ⟨others, hothers, hgoes, hbehind⟩ := GoesOn.behind hpassed hlater hgoes hbehind
      cases others with
      | nil => exact absurd hgoes (by simp [GoesOn])
      | cons segment more =>
        obtain ⟨hsegment, hmore⟩ := List.forall_mem_cons.mp hothers
        rw [segmentBytes_cons, Segment.toBytes] at hbehind
        simp only [List.append_assoc] at hbehind
        obtain ⟨rfl, hrest⟩ := Record.toBytes_append_inj hnormal hsegment.normal hbehind
        have hgoes := hgoes.2
        rw [Record.leavesOpen, if_pos ⟨hkind, hvalid⟩] at hgoes
        exact ⟨segment.payload, more, hsegment, hmore, hgoes, hrest⟩
  obtain ⟨payload, later, hpayload, -, -, hbytes⟩ := hread
  exact ⟨payload, _, hbytes, hpayload⟩

end Accepted

/-! ## What the reader finds -/

/-- The failure of a transfer from the stream. -/
def ArchiveError.IsTransferFailure : ArchiveError → Prop
  | .read _ | .eof | .prematureEof => True
  | _ => False

/-- The report of a payload with a wrong checksum. -/
def ArchiveError.IsMismatch (error : ArchiveError) : Prop :=
  ∃ stored computed, error = .invalidData (.payloadChecksum stored computed)

namespace Archive

section Verdicts

variable [ByteSource σ]

/-- Bytes that cannot be had are a failure of the transfer. -/
theorem isTransferFailure_readExactly (place : Place) (count : Nat) (stream : σ) :
    Outcome (fun _ _ => True) (fun error _ => error.IsTransferFailure)
      (readExactly place count stream) := by
  refine Outcome.bind (Outcome.adaptExcept (.of_forall (fun bytes final => ?_)
    (fun _ _ => trivial) _))
  split
  next => trivial
  next =>
    split
    next => trivial
    next => trivial

/-- A record is missing because of a failed transfer, or the handle has not moved or has stopped
inside a record. -/
theorem verdict_readRecord (handle : Archive σ) :
    Outcome (fun _ _ => True)
      (fun error final => final = handle ∨ final.state = handle.state.stranded ∨
        error.IsTransferFailure) (readRecord handle) := by
  obtain ⟨stream, state⟩ := handle
  rw [readRecord, expectReader]
  refine Outcome.bind (Outcome.bind (outcome_require (fun _ => ?_) fun _ => .inl rfl))
  refine Outcome.bind (Outcome.bind (outcome_onStream
    ((isTransferFailure_readExactly .boundary 1 stream).mono ?_ fun _ _ h => .inr (.inr h))))
  intro first behind _
  rw [bind_of_ok (setMode_apply _ behind state)]
  refine Outcome.bind (outcome_onStream ((isTransferFailure_readExactly .inside _ behind).mono ?_
    fun _ _ _ => .inr (.inl rfl)))
  intro fixed middle _
  refine Outcome.bind (outcome_onStream ((isTransferFailure_readExactly .inside _ middle).mono ?_
    fun _ _ _ => .inr (.inl rfl)))
  intro optional last _
  refine outcome_ofResult (fun header _ => ?_) fun _ _ => .inr (.inl rfl)
  refine Outcome.bind (outcome_onStream ((isTransferFailure_readExactly .inside _ last).mono ?_
    fun _ _ _ => .inr (.inl rfl)))
  exact fun _ _ _ => trivial

omit [ByteSource σ] in
/-- A payload that is left is intact, or the mismatch is reported. -/
theorem verdict_endAddedData (stream : σ) (state : HandleState) :
    Outcome (fun _ _ => state.incoming.IsIntact) (fun error _ => error.IsMismatch)
      (endAddedData ⟨stream, state⟩) := by
  by_cases hintact : state.incoming.IsIntact
  · rw [endAddedData_eq_ok.mpr ⟨hintact, rfl⟩]
    exact hintact
  · obtain ⟨stored, hstored, hne⟩ := IncomingPayload.not_isIntact_iff.mp hintact
    rw [endAddedData_of_mismatch hstored hne]
    exact ⟨_, _, rfl⟩

/-- **The last piece of a payload** is taken if that is intact; otherwise the mismatch is
reported. -/
theorem verdict_readAddedData (count : Nat) {handle : Archive σ}
    (hmode : handle.state.mode = .reading .atAddedData) :
    Outcome (fun bytes _ => (handle.state.incoming.consume bytes).remaining = 0 →
        (handle.state.incoming.consume bytes).IsIntact)
      (fun error final => error.IsMismatch ∨ error.IsTransferFailure ∧
        final.state = handle.state ∧ 0 < handle.state.incoming.remaining)
      (readAddedData count handle) := by
  obtain ⟨stream, state⟩ := handle
  rw [readAddedData, expectReader]
  refine Outcome.bind (Outcome.bind (outcome_require (fun _ => ?_) fun h => absurd hmode h))
  rw [bind_of_ok (state_apply _)]
  show Outcome _ _ ((if state.incoming.remaining = 0 then _ else _ :
    Call σ (List UInt8)) ⟨stream, state⟩)
  by_cases hzero : state.incoming.remaining = 0
  · rw [if_pos hzero]
    refine Outcome.bind ((verdict_endAddedData stream state).mono ?_ fun _ _ => .inl)
    intro _ _ hintact _
    rwa [IncomingPayload.consume_nil]
  · rw [if_neg hzero]
    refine Outcome.bind (outcome_onStream ((isTransferFailure_readExactly .inside _ stream).mono ?_
      fun _ _ h => .inr ⟨h, rfl, Nat.pos_of_ne_zero hzero⟩))
    intro bytes final _
    rw [bind_of_ok (update_apply _ final state)]
    by_cases hlast : (state.incoming.consume bytes).remaining = 0
    · rw [if_pos hlast]
      refine Outcome.bind ((verdict_endAddedData final _).mono ?_ fun _ _ => .inl)
      exact fun _ _ hintact _ => hintact
    · rw [if_neg hlast]
      exact fun h => absurd h hlast

end Verdicts

end Archive

/-! ## Handles that check an entry -/

/-- **A handle checks an entry** if it has passed nothing but payloads that match, and can judge the
one in which it stands or can pass no more. -/
inductive Checks (unread : σ → List UInt8) (front : List UInt8) (handle : Archive σ) : Prop
  /-- The handle has taken a part of a payload. -/
  | inside {record : Record} {before : List UInt8}
    (hmode : handle.state.mode = .reading .atAddedData)
    (hopened : Opened front record handle.state.entry.continued (before ++ unread handle.stream))
    (hsize : record.hasAddedSize = true) (hlength : before.length ≤ record.addedSize.toNat)
    (hincoming : handle.state.incoming = (IncomingPayload.ofRecord record).consume before)
  /-- The handle stands behind a payload. -/
  | between (hmode : handle.state.mode = .reading .atRecordHeader)
    (hpassed : Passed front handle.state.entry.continued (unread handle.stream))
  /-- The stream has ended inside a payload. -/
  | cut (hmode : handle.state.mode = .reading .atAddedData)
    (hremaining : 0 < handle.state.incoming.remaining) (hend : unread handle.stream = [])
  /-- More content is awaited, and no further record can be read. -/
  | halted (hmode : handle.state.mode ≠ .reading .atAddedData)
    (hcontinued : handle.state.entry.continued = true)
    (hend : handle.state.mode = .reading .atRecordHeader → unread handle.stream = [])

namespace Checks

variable {unread : σ → List UInt8} {front : List UInt8} {handle final : Archive σ}
  {record : Record}

/-- Behind a record the handle stands in its payload, or has passed that if there is none. -/
theorem of_opened
    (hopened : Opened front record final.state.entry.continued (unread final.stream))
    (hmode : final.state.mode
      = .reading (if record.hasAddedSize then .atAddedData else .atRecordHeader))
    (hincoming : final.state.incoming = .ofRecord record) : Checks unread front final := by
  have hbehind : Opened front record final.state.entry.continued ([] ++ unread final.stream) :=
    hopened
  by_cases hsize : record.hasAddedSize = true
  · rw [if_pos hsize] at hmode
    refine .inside hmode hbehind hsize (Nat.zero_le _) ?_
    rw [hincoming, IncomingPayload.consume_nil]
  · rw [if_neg hsize] at hmode
    refine .between hmode (hbehind.passed ⟨hopened.1, ?_, fun h => absurd h hsize⟩)
    rw [if_neg hsize]
    rfl

/-- **A piece of payload** that is taken, with the verdict on the payload if it is the last one. -/
theorem taken (h : Checks unread front handle)
    (hmode : handle.state.mode = .reading .atAddedData) {count : Nat} (hcount : 0 < count)
    {bytes : List UInt8} (hlength : bytes.length = transferLength count handle.state.incoming)
    (hbytes : unread handle.stream = bytes ++ unread final.stream)
    (hstate : final.state = handle.state.taken bytes)
    (hintact : (handle.state.incoming.consume bytes).remaining = 0 →
      (handle.state.incoming.consume bytes).IsIntact) : Checks unread front final := by
  cases h with
  | between hbetween => exact absurd (hbetween.symm.trans hmode) (by decide)
  | halted hother => exact absurd hmode hother
  | cut _ hremaining hend =>
    -- At the end of the stream there is no piece of a payload that is not exhausted.
    obtain ⟨rfl, -⟩ := List.append_eq_nil_iff.mp (hbytes.symm.trans hend)
    rcases transferLength_eq_zero.mp hlength.symm with hzero | hzero
    · omega
    · omega
  | @inside record before _ hopened hsize hbefore hincoming =>
    have hle : bytes.length ≤ handle.state.incoming.remaining := by
      rw [hlength, transferLength]
      omega
    have hleft : handle.state.incoming.remaining = record.addedSize.toNat - before.length := by
      rw [hincoming, ← IncomingPayload.remaining_ofRecord hsize]
      rfl
    have hconsumed : handle.state.incoming.consume bytes
        = (IncomingPayload.ofRecord record).consume (before ++ bytes) := by
      rw [hincoming, IncomingPayload.consume_append]
    have hall : (before ++ bytes).length = before.length + bytes.length := List.length_append
    have hentry : final.state.entry = handle.state.entry := by rw [hstate]; rfl
    rw [hbytes, ← List.append_assoc, ← hentry] at hopened
    by_cases hlast : (handle.state.incoming.consume bytes).remaining = 0
    · have hzero : handle.state.incoming.remaining - bytes.length = 0 := hlast
      have hcrc := (IncomingPayload.isIntact_consume_ofRecord hsize (before ++ bytes)).mp
        (hconsumed ▸ hintact hlast)
      refine .between ?_ (hopened.passed ⟨hopened.1, ?_, fun _ => hcrc⟩)
      · rw [hstate]
        exact HandleState.mode_taken_eq.mpr hlast
      · rw [if_pos hsize]
        show (before ++ bytes).length = record.addedSize.toNat
        omega
    · refine .inside ?_ hopened hsize (by omega) ?_
      · rw [hstate, HandleState.mode_taken, if_neg hlast]
      · rw [hstate, HandleState.incoming_taken, hconsumed]

/-- **The next record** is read where the content should go on. -/
theorem opened (h : Checks unread front handle)
    (hmode : handle.state.mode = .reading .atRecordHeader)
    (hcontinued : handle.state.entry.continued = true) (hnormal : record.IsNormal)
    {rest : List UInt8} (hbytes : unread handle.stream = record.toBytes ++ rest) :
    Opened front record record.leavesOpen rest := by
  cases h with
  | inside hinside => exact absurd (hinside.symm.trans hmode) (by decide)
  | cut hinside => exact absurd (hinside.symm.trans hmode) (by decide)
  | halted _ _ hend =>
    have hnil := List.append_eq_nil_iff.mp (hbytes.symm.trans (hend hmode))
    exact absurd hnil.1 record.toBytes_ne_nil
  | between _ hpassed =>
    rw [hcontinued, hbytes] at hpassed
    exact hpassed.opened hnormal

/-- At the end of the content all records of the entry have been passed. -/
theorem passed (h : Checks unread front handle)
    (hmode : handle.state.mode ≠ .reading .atAddedData)
    (hend : handle.state.entry.continued = false) : Passed front false (unread handle.stream) := by
  cases h with
  | inside hinside => exact absurd hinside hmode
  | cut hinside => exact absurd hinside hmode
  | halted _ hcontinued => exact absurd (hcontinued.symm.trans hend) (by decide)
  | between _ hpassed => exact hend ▸ hpassed

end Checks

/-! ## One call -/

/-- **A failure that leaves an entry unsettled**: a mismatch was reported, or a transfer broke off in
front of bytes that the stream has still to give. How a failed transfer leaves the stream is said by
`failed`. -/
inductive Unsettles (unread : σ → List UInt8) (failed : σ → Prop) (error : ArchiveError)
    (final : Archive σ) : Prop
  /-- The checksum of a payload is wrong. -/
  | mismatch (hmismatch : error.IsMismatch)
  /-- Some bytes may have been lost. -/
  | broken (htransfer : error.IsTransferFailure) (hfailed : failed final.stream)
    (hmore : unread final.stream ≠ [])

/-- Where a transfer fails only at the end of the stream, nothing breaks off in front of bytes. -/
theorem Unsettles.isMismatch {unread : σ → List UInt8} {error : ArchiveError} {final : Archive σ}
    (h : Unsettles unread (fun stream => unread stream = []) error final) : error.IsMismatch := by
  cases h with
  | mismatch hmismatch => exact hmismatch
  | broken _ hfailed hmore => exact absurd hfailed hmore

/-- **A handle tracks an entry**: it checks the content as long as it stands inside, and behind it
has passed all records. -/
structure Tracks (unread : σ → List UInt8) (front : List UInt8) (handle : Archive σ) : Prop where
  inside : handle.state.unpacker = .fileData → Checks unread front handle
  behind : handle.state.unpacker = .afterFileData → Passed front false (unread handle.stream)

/-- Behind the content of an entry all its records have been passed. -/
theorem Tracks.of_passed {unread : σ → List UInt8} {front : List UInt8} {handle : Archive σ}
    (hunpacker : handle.state.unpacker = .afterFileData)
    (hpassed : Passed front false (unread handle.stream)) : Tracks unread front handle where
  inside hinside := absurd (hunpacker.symm.trans hinside) (by decide)
  behind _ := hpassed

/-- Inside the content of an entry, which the handle checks. -/
structure ChecksInside (unread : σ → List UInt8) (front : List UInt8) (handle : Archive σ) :
    Prop where
  unpacker : handle.state.unpacker = .fileData
  checks : Checks unread front handle

/-- What is known inside of content. -/
theorem ChecksInside.tracks {unread : σ → List UInt8} {front : List UInt8} {handle : Archive σ}
    (h : ChecksInside unread front handle) : Tracks unread front handle where
  inside _ := h.checks
  behind hbehind := absurd (h.unpacker.symm.trans hbehind) (by decide)

/-- Counting the bytes of the content changes nothing about the payloads. -/
theorem ChecksInside.consumed {unread : σ → List UInt8} {front : List UInt8} {handle : Archive σ}
    (h : ChecksInside unread front handle) (bytes : List UInt8) :
    ChecksInside unread front
      ⟨handle.stream, { handle.state with entry := handle.state.entry.consume bytes }⟩ := by
  refine ⟨h.unpacker, ?_⟩
  cases h.checks with
  | inside hmode hopened hsize hlength hincoming =>
    exact .inside hmode hopened hsize hlength hincoming
  | between hmode hpassed => exact .between hmode hpassed
  | cut hmode hremaining hend => exact .cut hmode hremaining hend
  | halted hmode hcontinued hend => exact .halted hmode hcontinued hend

namespace ChecksInside

variable [ByteSource σ] {unread : σ → List UInt8} {failed : σ → Prop} {front : List UInt8}
  {handle : Archive σ}

/-- A piece of the current payload. -/
theorem outcome_takePayload (hr : ReadsFrom unread failed) {count : Nat} (hcount : 0 < count)
    (h : ChecksInside unread front handle) :
    Outcome
      (fun bytes final => ChecksInside unread front final ∧
        (bytes = [] → final.state.mode ≠ .reading .atAddedData))
      (fun error final => ChecksInside unread front final ∨ Unsettles unread failed error final)
      (takePayload count handle) := by
  obtain ⟨hfile, hchecks⟩ := h
  rw [takePayload, bind_of_ok (state_apply handle)]
  by_cases hmode : handle.state.mode = .reading .atAddedData
  · rw [if_pos hmode]
    refine ((outcome_readAddedData hr count handle).and (verdict_readAddedData count hmode)).mono
      ?_ ?_
    · rintro bytes final ⟨⟨-, hlength, hbytes, hstate⟩, hintact⟩
      have hfinal := hchecks.taken hmode hcount hlength hbytes hstate hintact
      refine ⟨⟨by rw [hstate]; exact hfile, hfinal⟩, ?_⟩
      rintro rfl
      have hzero := (transferLength_eq_zero.mp hlength.symm).resolve_left (by omega)
      have hleft : (handle.state.incoming.consume []).remaining = 0 := by
        rwa [IncomingPayload.consume_nil]
      rw [hstate, HandleState.mode_taken_eq.mpr hleft]
      decide
    · rintro error final ⟨⟨-, hfinal⟩, hmismatch | ⟨htransfer, hsame, hremaining⟩⟩
      · exact .inr (.mismatch hmismatch)
      · rcases hfinal with rfl | ⟨-, hfailed⟩ | ⟨-, -, -, -, -, hleft⟩
        · exact .inl ⟨hfile, hchecks⟩
        · by_cases hend : unread final.stream = []
          · exact .inl ⟨hsame ▸ hfile, .cut (hsame ▸ hmode) (hsame ▸ hremaining) hend⟩
          · exact .inr (.broken htransfer hfailed hend)
        · rw [hsame, hmode] at hleft
          exact absurd hleft (by decide)
  · rw [if_neg hmode]
    exact ⟨⟨hfile, hchecks⟩, fun _ => hmode⟩

/-- The record that should continue the entry. -/
theorem outcome_readFragment (hr : ReadsFrom unread failed) (h : ChecksInside unread front handle)
    (hmode : handle.state.mode ≠ .reading .atAddedData)
    (hcontinued : handle.state.entry.continued = true) :
    Outcome (fun _ final => ChecksInside unread front final)
      (fun error final => ChecksInside unread front final ∨ Unsettles unread failed error final)
      (readFragment handle) := by
  obtain ⟨hfile, hchecks⟩ := h
  refine Outcome.bind (((outcome_readRecord hr handle).and (verdict_readRecord handle)).mono ?_ ?_)
  · rintro record ⟨behind, _⟩ ⟨⟨hheader, hnormal, hbytes, rfl⟩, -⟩
    have hopened := hchecks.opened hheader hcontinued hnormal hbytes
    -- A record that is refused leaves the content as open as it was.
    have hrefuse (hrefused : ¬ (record.kind = .dataFragment ∧ record.isValid = true)) :
        ChecksInside unread front ⟨behind, handle.state.behind record⟩ := by
      rw [Record.leavesOpen, if_neg hrefused, ← hcontinued] at hopened
      exact ⟨hfile, .of_opened hopened rfl rfl⟩
    refine Outcome.bind (outcome_require (fun hkind => ?_) fun hkind => ?_)
    · refine Outcome.bind (outcome_require (fun hvalid => ?_) fun hvalid => ?_)
      · rw [Record.leavesOpen, if_pos ⟨hkind, hvalid⟩] at hopened
        exact ⟨hfile, .of_opened hopened rfl rfl⟩
      · exact .inl (hrefuse fun hboth => hvalid hboth.2)
    · exact .inl (hrefuse fun hboth => hkind hboth.1)
  · have hhalted {final : Archive σ} (hstate : final.state = handle.state.stranded) :
        ChecksInside unread front final := by
      refine ⟨by rw [hstate]; exact hfile, .halted ?_ (by rw [hstate]; exact hcontinued) ?_⟩
      all_goals rw [hstate]; nofun
    rintro error final ⟨⟨-, hfinal⟩, hverdict⟩
    rcases hfinal with rfl | ⟨hstate, hfailed⟩ | hstate
    · exact .inl ⟨hfile, hchecks⟩
    · rcases hverdict with rfl | hstranded | htransfer
      · exact .inl ⟨hfile, hchecks⟩
      · exact .inl (hhalted hstranded)
      · by_cases hend : unread final.stream = []
        · exact .inl ⟨hstate ▸ hfile, .halted (hstate ▸ hmode) (hstate ▸ hcontinued) fun _ => hend⟩
        · exact .inr (.broken htransfer hfailed hend)
    · exact .inl (hhalted hstate)

/-- **A round of reading content** gives no bytes only where all records have been passed. -/
theorem outcome_readRound (hr : ReadsFrom unread failed) {count : Nat} (hcount : 0 < count)
    (h : ChecksInside unread front handle) :
    Outcome
      (fun round final => round.elim (ChecksInside unread front final) fun bytes =>
        Tracks unread front final ∧ (bytes = [] → Passed front false (unread final.stream)))
      (fun error final => Tracks unread front final ∨ Unsettles unread failed error final)
      (readRound count handle) := by
  refine Outcome.bind ((h.outcome_takePayload hr hcount).mono ?_ fun _ _ hfinal =>
    hfinal.imp_left ChecksInside.tracks)
  rintro bytes middle ⟨hmiddle, hmode⟩
  rw [bind_of_ok (state_apply middle)]
  by_cases hne : bytes ≠ []
  · rw [if_pos hne]
    exact ⟨(hmiddle.consumed bytes).tracks, fun h => absurd h hne⟩
  · rw [if_neg hne]
    have hplace := hmode (Decidable.not_not.mp hne)
    by_cases hcontinued : middle.state.entry.continued = true
    · rw [if_pos hcontinued]
      exact Outcome.bind ((hmiddle.outcome_readFragment hr hplace hcontinued).mono
        (fun _ _ hfinal => hfinal) fun _ _ hfinal => hfinal.imp_left ChecksInside.tracks)
    · rw [if_neg hcontinued]
      have hpassed := hmiddle.checks.passed hplace (Bool.not_eq_true _ ▸ hcontinued)
      refine Outcome.bind ?_
      rw [verifyEntry, bind_of_ok (state_apply middle)]
      cases middle.state.currentFile? with
      | none => exact ⟨.of_passed rfl hpassed, fun _ => hpassed⟩
      | some info =>
        refine outcome_ofResult (fun _ _ => ?_) fun _ _ => .inl hmiddle.tracks
        exact ⟨.of_passed rfl hpassed, fun _ => hpassed⟩

end ChecksInside

namespace Tracks

variable {unread : σ → List UInt8} {failed : σ → Prop} {front : List UInt8} {handle final : Archive σ}

/-- Outside of content nothing is claimed. -/
theorem of_unpacker (hfile : final.state.unpacker ≠ .fileData)
    (hbehind : final.state.unpacker ≠ .afterFileData) : Tracks unread front final :=
  ⟨fun h => absurd h hfile, fun h => absurd h hbehind⟩

/-- Between two entries nothing is claimed. -/
theorem of_fileHeader (h : final.state.unpacker = .fileHeader) : Tracks unread front final := by
  refine .of_unpacker ?_ ?_
  all_goals rw [h]; nofun

variable [ByteSource σ]

/-- **Reading content** comes to the end only where all records have been passed. -/
theorem outcome_readFileData (hr : ReadsFrom unread failed) (count : Nat)
    (h : Tracks unread front handle) :
    Outcome
      (fun bytes final => Tracks unread front final ∧
        (0 < count → bytes = [] → Passed front false (unread final.stream)))
      (fun error final => Tracks unread front final ∨ Unsettles unread failed error final)
      (readFileData count handle) := by
  refine Archive.outcome_readFileData (fun _ _ => .inl h)
    (fun hzero => ⟨h, fun hcount => absurd hzero (Nat.ne_of_gt hcount)⟩)
    (fun hbehind => ⟨h, fun _ _ => h.behind hbehind⟩) fun _ hunpacker hcount => ?_
  refine Outcome.repeatUntil (ChecksInside unread front) ?_ ⟨hunpacker, h.inside hunpacker⟩
  intro start hstart
  refine (hstart.outcome_readRound hr hcount).mono ?_ fun _ _ hfinal => hfinal
  intro round final hfinal
  cases round with
  | none => exact hfinal
  | some bytes => exact ⟨hfinal.1, fun _ => hfinal.2⟩

/-- The file header of an entry is where the handle starts to check it. -/
theorem outcome_currentFileInfo (hr : ReadsFrom unread failed) (h : Tracks unread front handle)
    (hfront : handle.state.unpacker = .fileHeader → front = unread handle.stream) :
    Outcome (fun _ final => Tracks unread front final) (fun _ final => Tracks unread front final)
      (currentFileInfo handle) := by
  refine Archive.outcome_currentFileInfo (fun _ => h) (fun _ => h) fun _ hunpacker => ?_
  refine Outcome.bind (((outcome_readRecord hr handle).and (effect_readRecord handle)).mono ?_ ?_)
  · rintro record ⟨behind, _⟩ ⟨⟨-, hnormal, hbytes, rfl⟩, -⟩
    have hopened := Opened.header hnormal ((hfront hunpacker).trans hbytes)
    refine Outcome.bind (outcome_ofResult (fun info _ => ?_) fun _ _ => of_fileHeader hunpacker)
    exact (ChecksInside.mk rfl (.of_opened hopened rfl rfl)).tracks
  · exact fun _ _ hfinal => of_fileHeader (hfinal.2.1.unpacker.trans hunpacker)

/-- In front of the archive header there is no entry yet, and behind it none has started. -/
theorem outcome_readArchiveHeader (h : Tracks unread front handle) :
    Outcome (fun _ final => Tracks unread front final) (fun _ final => Tracks unread front final)
      (readArchiveHeader handle) := by
  refine (unpacker_readArchiveHeader handle).mono (fun _ _ => of_fileHeader) ?_
  rintro _ _ (rfl | hfinal)
  · exact h
  · refine .of_unpacker ?_ ?_
    all_goals rw [hfinal]; nofun

variable [ByteSink τ]

/-- **Extracting** succeeds only where all records of the entry have been passed. -/
theorem outcome_extract (hr : ReadsFrom unread failed) (h : Tracks unread front handle)
    (hfront : handle.state.unpacker = .fileHeader → front = unread handle.stream)
    (copy : CopySink τ) :
    Outcome
      (fun _ final => Tracks unread front final.2 ∧ Passed front false (unread final.2.stream))
      (fun error final => Tracks unread front final.2 ∨ Unsettles unread failed error final.2)
      (extract (copy, handle)) := by
  refine Archive.outcome_extract (fun start => Tracks unread front start.2) h (fun _ => .inl h)
    (fun _ => ?_) fun _ => ?_
  · exact (h.outcome_currentFileInfo hr hfront).mono (fun _ _ hfinal => hfinal) fun _ _ => .inl
  · intro count copied start hcount hstart
    refine Outcome.bind (outcome_lift ((outcome_readFileData hr count hstart).mono ?_
      fun _ _ hfinal => hfinal))
    rintro bytes final ⟨hfinal, hpassed⟩
    by_cases hnil : bytes = []
    · rw [if_pos hnil]
      exact ⟨of_fileHeader rfl, hpassed hcount hnil⟩
    · rw [if_neg hnil]
      -- The sink may fail, but the handle has taken the bytes.
      exact Outcome.bind (CallWith.outcome_onValue
        (.of_forall (fun _ _ => hfinal) (fun _ _ => .inl hfinal) _))

end Tracks

/-! ## Calls in a row -/

/-- **A run of unpacker calls** in which calls may fail, with the bytes from the current entry on.
These may count as unknown behind a failure, and do so until the next entry where the failure leaves
the entry unsettled or the entry was being skipped. -/
inductive TrackedRun (τ : Type) [ByteSource σ] [ByteSink τ] (unread : σ → List UInt8)
    (failed : σ → Prop) (start : Archive σ) : Option (List UInt8) → Archive σ → Prop
  /-- No call. -/
  | nil : TrackedRun τ unread failed start (some (unread start.stream)) start
  /-- A call succeeds. -/
  | returned {front? : Option (List UInt8)} {middle final : Archive σ} {call : UnpackerCall τ}
    (h : TrackedRun τ unread failed start front? middle) (hrun : call.run middle = .ok () final) :
    TrackedRun τ unread failed start (entryFront unread front? middle) final
  /-- A call fails and leaves the entry as settled as it was. -/
  | kept {front? : Option (List UInt8)} {middle final : Archive σ} {call : UnpackerCall τ}
    {error : ArchiveError} (h : TrackedRun τ unread failed start front? middle)
    (hrun : call.run middle = .error error final) (hcall : call ≠ .skipFile)
    (hsettled : ¬ Unsettles unread failed error final) :
    TrackedRun τ unread failed start (entryFront unread front? middle) final
  /-- A call fails. -/
  | lost {front? : Option (List UInt8)} {middle final : Archive σ} {call : UnpackerCall τ}
    {error : ArchiveError} (h : TrackedRun τ unread failed start front? middle)
    (hrun : call.run middle = .error error final) : TrackedRun τ unread failed start none final

/-- **A payload that does not match**: the record declares its size and its checksum, and behind the
record there is no payload that has both. -/
structure Record.IsMismatched (record : Record) (rest : List UInt8) : Prop where
  size : record.hasAddedSize = true
  crc : record.hasAddedCrc = true
  mismatch (payload more : List UInt8) (hrest : rest = payload ++ more)
    (hlength : payload.length = record.addedSize.toNat) : record.addedCrc ≠ crc32c 0 payload

section Run

variable [ByteSource σ] [ByteSink τ] {unread : σ → List UInt8} {failed : σ → Prop}
  {front rest : List UInt8} {handle start : Archive σ} {record : Record}

/-- A payload that does not match is not passed. -/
theorem Passed.false_of_isMismatched {behind : List UInt8} (h : Passed front false behind)
    (haccepted : Accepted front record rest) (hmismatch : record.IsMismatched rest) : False := by
  obtain ⟨payload, more, hrest, hsound⟩ := h.isSound_of_accepted haccepted
  exact hmismatch.mismatch payload more hrest hsound.length_eq
    (hsound.crc hmismatch.size hmismatch.crc)

/-- **Every call** that is no skip tracks the entry, or fails and leaves it unsettled. -/
theorem UnpackerCall.tracks (hr : ReadsFrom unread failed) {call : UnpackerCall τ}
    (h : Tracks unread front handle)
    (hfront : handle.state.unpacker = .fileHeader → front = unread handle.stream) :
    Outcome (fun _ final => Tracks unread front final)
      (fun error final => call ≠ .skipFile →
        Tracks unread front final ∨ Unsettles unread failed error final) (call.run handle) := by
  cases call with
  | readArchiveHeader =>
    exact outcome_of_dropped (h.outcome_readArchiveHeader.mono (fun _ _ hfinal => hfinal)
      fun _ _ hfinal _ => .inl hfinal)
  | currentFileInfo =>
    exact outcome_of_dropped ((h.outcome_currentFileInfo hr hfront).mono
      (fun _ _ hfinal => hfinal) fun _ _ hfinal _ => .inl hfinal)
  | readFileData count =>
    exact outcome_of_dropped ((h.outcome_readFileData hr count).mono
      (fun _ _ hfinal => hfinal.1) fun _ _ hfinal _ => hfinal)
  | extract sink =>
    exact CallWith.outcome_withValue ((h.outcome_extract hr hfront ⟨sink, 0⟩).mono
      (fun _ _ hfinal => hfinal.1) fun _ _ hfinal _ => hfinal)
  | skipFile =>
    show Outcome _ _ (Archive.skipFile handle)
    cases hrun : Archive.skipFile handle with
    | ok _ final => exact .of_fileHeader (unpacker_skipFile hrun)
    | error error final => exact fun hcall => absurd rfl hcall

omit [ByteSource σ] [ByteSink τ] in
/-- Between two entries the next one is tracked before it has started. -/
theorem Tracks.of_entryFront {front? : Option (List UInt8)}
    (h : ∀ front, front? = some front → Tracks unread front handle)
    (hfront : entryFront unread front? handle = some front) :
    Tracks unread front handle ∧
      (handle.state.unpacker = .fileHeader → front = unread handle.stream) :=
  RecordArchive.of_entryFront hfront .of_fileHeader (h front)

/-- **Every run** tracks the entry while it is known where that starts. -/
theorem TrackedRun.tracks (hr : ReadsFrom unread failed)
    (hstart : start.state.unpacker = .validatingFormat ∨ start.state.unpacker = .fileHeader)
    {front? : Option (List UInt8)} (h : TrackedRun τ unread failed start front? handle) :
    ∀ front, front? = some front → Tracks unread front handle := by
  induction h with
  | nil =>
    intro _ _
    refine .of_unpacker ?_ ?_
    all_goals rcases hstart with h | h <;> rw [h] <;> nofun
  | returned _ hrun ih =>
    intro front hfront
    obtain ⟨hmiddle, hunread⟩ := Tracks.of_entryFront ih hfront
    exact (UnpackerCall.tracks hr hmiddle hunread).of_ok hrun
  | kept _ hrun hcall hsettled ih =>
    intro front hfront
    obtain ⟨hmiddle, hunread⟩ := Tracks.of_entryFront ih hfront
    exact ((UnpackerCall.tracks hr hmiddle hunread).of_error hrun hcall).resolve_right hsettled
  | lost => nofun

/-- **An entry with a payload that does not match is not reported complete**: in every run of
unpacker calls, on any stream, in which neither the mismatch nor a break of the stream was reported
since the entry started, and no skip of it was given up, no read gives the end of the content and no
extraction of the entry succeeds. -/
theorem TrackedRun.never_complete (hr : ReadsFrom unread failed)
    (hstart : start.state.unpacker = .validatingFormat ∨ start.state.unpacker = .fileHeader)
    {front? : Option (List UInt8)} (h : TrackedRun τ unread failed start front? handle)
    (hfront : entryFront unread front? handle = some front)
    (haccepted : Accepted front record rest) (hmismatch : record.IsMismatched rest) :
    (∀ count final, 0 < count → readFileData count handle ≠ .ok [] final) ∧
      ∀ (sink : τ) final, extract ((⟨sink, 0⟩ : CopySink τ), handle) ≠ .ok () final := by
  obtain ⟨htracks, hunread⟩ := Tracks.of_entryFront (h.tracks hr hstart) hfront
  refine ⟨fun count final hcount hrun => ?_, fun sink final hrun => ?_⟩
  · have hpassed := ((htracks.outcome_readFileData hr count).of_ok hrun).2 hcount rfl
    exact hpassed.false_of_isMismatched haccepted hmismatch
  · have hpassed := ((htracks.outcome_extract hr hunread ⟨sink, 0⟩).of_ok hrun).2
    exact hpassed.false_of_isMismatched haccepted hmismatch

end Run

/-! ### A mismatch that is reported once -/

/-- A file header that gives the checksum of its payload, and that payload. -/
def checkedStart : Segment :=
  (⟨{ kind := .fileHeader, flags := 0xA0, data := [0, 0x52, 0, 0, 0, 0, 1, 0, 0x61] },
    [[1]]⟩ : Draft).segment

/-- A handle in front of this entry, on a stream that has another byte for its payload. -/
def mismatched : Archive (List UInt8) :=
  ⟨checkedStart.record.toBytes ++ [2], { mode := .reading .atRecordHeader, unpacker := .fileHeader }⟩

/-- The handle inside the entry. -/
def insideMismatched : Archive (List UInt8) :=
  ⟨[2], mismatched.state.entered checkedStart.record (EntryInfo.regular "a")⟩

/-- The handle behind the payload. -/
def behindMismatched : Archive (List UInt8) := ⟨[], insideMismatched.state.taken [2]⟩

/-- The record itself is undamaged. -/
theorem readRecord_mismatched : readRecord mismatched
    = .ok checkedStart.record ⟨[2], mismatched.state.behind checkedStart.record⟩ := by
  cbv

/-- Its header has the right checksum. -/
theorem isValid_checkedStart : checkedStart.record.isValid = true := by
  cbv

/-- It is the file header of a regular file. -/
theorem ofRecord_checkedStart :
    EntryInfo.ofRecord checkedStart.record = .ok (EntryInfo.regular "a") := by
  have hdata : checkedStart.record.data = (startOf 1).record.data := by decide +kernel
  refine ofRecord_eq_ok.mpr ⟨isValid_checkedStart, rfl, ?_⟩
  rw [hdata]
  exact parse_startOf

/-- It is as it would be written. -/
theorem isNormal_checkedStart : checkedStart.record.IsNormal :=
  (readRecord_eq_ok.mp readRecord_mismatched).2.1

/-- It lies in front of the handle with a payload of one byte. -/
theorem accepted_checkedStart : Accepted mismatched.stream checkedStart.record [2] :=
  .header isNormal_checkedStart ofRecord_checkedStart rfl

/-- The checksum it announces is that of another byte. -/
theorem isMismatched_checkedStart : checkedStart.record.IsMismatched [2] where
  size := rfl
  crc := rfl
  mismatch := by
    intro payload more hrest hlength
    have hone : payload.length = 1 := hlength.trans rfl
    obtain ⟨byte, rfl⟩ := List.length_eq_one_iff.mp hone
    cases hrest
    decide +kernel

/-- The entry is entered without an error, since its payload has not been read yet. -/
theorem currentFileInfo_mismatched :
    currentFileInfo mismatched = .ok (EntryInfo.regular "a") insideMismatched := by
  have hbetween : mismatched.state.IsBetweenEntries := ⟨rfl, rfl⟩
  refine (currentFileInfo_of_isBetween hbetween).trans ?_
  exact readFileHeader_eq_ok.mpr
    ⟨rfl, checkedStart.record, [2], isNormal_checkedStart, ofRecord_checkedStart, rfl, rfl⟩

/-- The entry is not reported complete inside its payload, also behind a call out of order. -/
theorem TrackedRun.never_complete_mismatched :
    TrackedRun BoundedSink id (fun stream => id stream = []) mismatched (some mismatched.stream)
        insideMismatched ∧
      (∀ count final, 0 < count → readFileData count insideMismatched ≠ .ok [] final) ∧
      ∀ final, extract ((⟨{}, 0⟩ : CopySink BoundedSink), insideMismatched) ≠ .ok () final := by
  have hinfo : (UnpackerCall.currentFileInfo : UnpackerCall BoundedSink).run mismatched
      = .ok () insideMismatched := bind_of_ok currentFileInfo_mismatched
  have hrefused : (UnpackerCall.readArchiveHeader : UnpackerCall BoundedSink).run insideMismatched
      = .error (.invalidState "read_archive_header") insideMismatched := rfl
  have hsettled : ¬ Unsettles id (fun stream => id stream = [])
      (.invalidState "read_archive_header") insideMismatched := by
    intro h
    obtain ⟨_, _, hcause⟩ := h.isMismatch
    cases hcause
  have hreads : ReadsFrom (id : List UInt8 → List UInt8) fun stream => id stream = [] :=
    IsDelivery.readsFrom isDelivery_eq
  have hrun : TrackedRun BoundedSink id (fun stream => id stream = []) mismatched
      (some mismatched.stream) insideMismatched :=
    (TrackedRun.nil.returned hinfo).kept hrefused nofun hsettled
  obtain ⟨hread, hextract⟩ := TrackedRun.never_complete hreads (.inr rfl) hrun
    (rfl : entryFront id (some mismatched.stream) insideMismatched = some mismatched.stream)
    accepted_checkedStart isMismatched_checkedStart
  exact ⟨hrun, hread, hextract {}⟩

/-- The round that takes the last byte of the payload finds the wrong checksum. -/
theorem readRound_insideMismatched : readRound 5 insideMismatched
    = .error (.invalidData (.payloadChecksum (crc32c 0 [1]) (crc32c 0 [2]))) behindMismatched := by
  let incoming := insideMismatched.state.incoming
  have hlength : ([2] : List UInt8).length = transferLength 5 incoming := by decide +kernel
  have hlast : (incoming.consume [2]).remaining = 0 := by decide +kernel
  have hstored : incoming.declaredCrc? = some (crc32c 0 [1]) := by decide +kernel
  have hne : crc32c 0 [1] ≠ (incoming.consume [2]).crc := by decide +kernel
  have hmode : insideMismatched.state.mode = .reading .atAddedData := rfl
  have hread : takePayload 5 insideMismatched = readAddedData 5 insideMismatched := by
    rw [takePayload, bind_of_ok (state_apply _), if_pos hmode]
  rw [readRound]
  exact bind_of_error (hread.trans (readAddedData_of_mismatch hmode hlength hlast hstored hne))

/-- Behind the payload the content has come to its end. -/
theorem readRound_behindMismatched (count : Nat) : readRound count behindMismatched
    = .ok (some []) ⟨[], { behindMismatched.state with unpacker := .afterFileData }⟩ := rfl

/-- The handle stays in the content of the entry, in front of the error and behind it. -/
theorem isInsideEntry_mismatched :
    insideMismatched.state.IsInsideEntry ∧ behindMismatched.state.IsInsideEntry := by
  refine ⟨⟨.inl ?_, ?_⟩, ⟨.inr ?_, ?_⟩⟩
  all_goals rfl

/-- The next call finds nothing left and takes this for the end of the entry. -/
theorem readFileData_behindMismatched {count : Nat} (hcount : 0 < count) :
    readFileData count behindMismatched
      = .ok [] ⟨[], { behindMismatched.state with unpacker := .afterFileData }⟩ := by
  rw [readFileData_of_isInside hcount isInsideEntry_mismatched.2, repeatUntil_apply,
    readRound_behindMismatched]

/-- **Complete although damaged**: the mismatch is reported by the call that takes the last byte of
the payload. The next one reports the end of the content, and an extraction succeeds. -/
theorem Archive.complete_behind_mismatch :
    Accepted mismatched.stream checkedStart.record [2] ∧ checkedStart.record.IsMismatched [2] ∧
    currentFileInfo mismatched = .ok (EntryInfo.regular "a") insideMismatched ∧
    readFileData 5 insideMismatched = .error (.invalidData
      (.payloadChecksum (crc32c 0 [1]) (crc32c 0 [2]))) behindMismatched ∧
    (∃ final, readFileData 5 behindMismatched = .ok [] final) ∧
    ∃ final, extract ((⟨{}, 0⟩ : CopySink BoundedSink), behindMismatched) = .ok () final := by
  refine ⟨accepted_checkedStart, isMismatched_checkedStart, currentFileInfo_mismatched, ?_,
    ⟨_, readFileData_behindMismatched (by decide)⟩, ?_⟩
  · rw [readFileData_of_isInside (by decide) isInsideEntry_mismatched.1, repeatUntil_apply,
      readRound_insideMismatched]
  · have hbegin := beginExtract_of_isInside isInsideEntry_mismatched.2
    have hcount : 0 < behindMismatched.state.options.copySize := Nat.le_max_right _ _
    have hround : extractRound behindMismatched.state.options.copySize
        ((⟨{}, 0⟩ : CopySink BoundedSink), behindMismatched) = .ok (some ()) (⟨{}, 0⟩,
          ⟨[], { behindMismatched.state with unpacker := .afterFileData }⟩) := by
      rw [extractRound,
        bind_of_ok (lift_eq_ok.mpr ⟨_, readFileData_behindMismatched hcount, rfl⟩)]
      rfl
    rw [extract, bind_of_ok (lift_eq_ok.mpr ⟨_, hbegin, rfl⟩),
      bind_of_ok (lift_eq_ok.mpr ⟨_, state_apply _, rfl⟩)]
    exact ⟨_, bind_of_ok (by rw [repeatUntil_apply, hround])⟩

end RecordArchive
