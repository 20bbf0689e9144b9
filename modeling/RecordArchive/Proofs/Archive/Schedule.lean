import Mathlib.Data.List.Forall2
import RecordArchive.Proofs.Archive.RecordReader

/-! # Reading schedules

A caller that has found the marker visits the records one after another. It skips a record whole, or
it reads the record and takes pieces of the payload until that ends or until it skips the rest.
`ReadingLog` is what such a caller has seen, `Schedule` lets any of these calls follow wherever the
handle permits it.

* `StandsAt` is the invariant: the records ahead are still on the stream and, inside a payload, the
  handle has counted and summed just the pieces that were taken.
* `Schedule.standsAt`: every schedule over sound segments keeps it.
* `Schedule.exists_finished`: a payload that is taken with buffers that are not empty comes to its end.
* `schedule_isServed`: so every further call succeeds, and what was seen is what was written. -/

namespace RecordArchive

open Program

variable {σ : Type}

/-- What a caller made of one record. -/
inductive Visit
  /-- The record was skipped with its payload. -/
  | skipped
  /-- The record was read and pieces of its payload were taken; the rest was skipped if the payload
  was abandoned. -/
  | read (record : Record) (pieces : List (List UInt8)) (abandoned : Bool)
  deriving DecidableEq, Repr

/-- **A visit shows what was written**: the record, and a front part of its payload that is the whole
payload unless it was abandoned. -/
def Visit.IsFaithful (segment : Segment) : Visit → Prop
  | skipped => True
  | read record pieces abandoned =>
    record = segment.record ∧ pieces.flatten <+: segment.payload ∧
      (abandoned = false → pieces.flatten = segment.payload)

/-- What a caller has seen so far. -/
structure ReadingLog where
  /-- The records that it is done with. -/
  visits : List Visit := []
  /-- The record whose payload it is inside, with the pieces taken from that. -/
  open? : Option (Record × List (List UInt8)) := none
  deriving DecidableEq, Repr

namespace ReadingLog

/-- The log behind a record that the caller is done with. -/
def finish (log : ReadingLog) (visit : Visit) : ReadingLog := { visits := log.visits ++ [visit] }

/-- The log after a record or a piece of its payload, while the handle is inside that payload or when
it has left it. -/
def note (log : ReadingLog) (mode : Mode) (record : Record) (pieces : List (List UInt8)) :
    ReadingLog :=
  if mode = .reading .atAddedData then { log with open? := some (record, pieces) }
  else log.finish (.read record pieces false)

/-- Inside a payload the pieces are noted. -/
theorem note_inside {mode : Mode} (h : mode = .reading .atAddedData) (log : ReadingLog)
    (record : Record) (pieces : List (List UInt8)) :
    log.note mode record pieces = { log with open? := some (record, pieces) } := if_pos h

/-- Behind a payload the caller is done with the record. -/
theorem note_behind {mode : Mode} (h : mode ≠ .reading .atAddedData) (log : ReadingLog)
    (record : Record) (pieces : List (List UInt8)) :
    log.note mode record pieces = log.finish (.read record pieces false) := if_neg h

end ReadingLog

open Archive

variable [ByteSource σ]

/-- The calls that led from one handle to another, with what they showed. Calls on a payload are made
only while the handle is inside it. -/
inductive Schedule (start : Archive σ) : ReadingLog → Archive σ → Prop
  /-- No call. -/
  | start : Schedule start {} start
  /-- The next record is skipped whole. -/
  | skip {log : ReadingLog} {handle final : Archive σ} (h : Schedule start log handle)
      (hmode : handle.mode = .reading .atRecordHeader)
      (hrun : skipRecord handle = .ok () final) : Schedule start (log.finish .skipped) final
  /-- The next record is read. -/
  | read {log : ReadingLog} {handle final : Archive σ} {record : Record}
      (h : Schedule start log handle) (hmode : handle.mode = .reading .atRecordHeader)
      (hrun : readRecord handle = .ok record final) :
      Schedule start (log.note final.mode record []) final
  /-- A piece of the payload is taken. -/
  | take {log : ReadingLog} {handle final : Archive σ} {record : Record}
      {pieces : List (List UInt8)} {count : Nat} {bytes : List UInt8}
      (h : Schedule start log handle) (hopen : log.open? = some (record, pieces))
      (hrun : readAddedData count handle = .ok bytes final) :
      Schedule start (log.note final.mode record (pieces ++ [bytes])) final
  /-- The rest of the payload is skipped. -/
  | abandon {log : ReadingLog} {handle final : Archive σ} {record : Record}
      {pieces : List (List UInt8)} (h : Schedule start log handle)
      (hopen : log.open? = some (record, pieces)) (hrun : skipRecord handle = .ok () final) :
      Schedule start (log.finish (.read record pieces true)) final
  /-- There is no next record. -/
  | ended {log : ReadingLog} {handle final : Archive σ} (h : Schedule start log handle)
      (hrun : readRecord handle = .error .eof final) : Schedule start log final

/-- The handle is inside the payload of a record: it has taken pieces of it, and the rest is left. -/
structure IsInside (segment : Segment) (pieces : List (List UInt8)) (left : List UInt8)
    (state : HandleState) : Prop where
  mode : state.mode = .reading .atAddedData
  size : segment.record.hasAddedSize = true
  payload : segment.payload = pieces.flatten ++ left
  incoming : state.incoming = (IncomingPayload.ofRecord segment.record).consume pieces.flatten

/-- **Where a caller stands** that visits the given segments. -/
inductive StandsAt (segments : List Segment) : ReadingLog → Archive σ → Prop
  /-- Between two records. -/
  | boundary {done ahead : List Segment} {visits : List Visit} {stream : σ} {state : HandleState}
      (hsegments : segments = done ++ ahead) (hvisits : List.Forall₂ Visit.IsFaithful done visits)
      (hmode : state.mode = .reading .atRecordHeader) (hstream : Yields stream (segmentBytes ahead)) :
      StandsAt segments ⟨visits, none⟩ ⟨stream, state⟩
  /-- Inside the payload of a record. -/
  | inside {done ahead : List Segment} {segment : Segment} {visits : List Visit}
      {pieces : List (List UInt8)} {left : List UInt8} {stream : σ} {state : HandleState}
      (hsegments : segments = done ++ segment :: ahead)
      (hvisits : List.Forall₂ Visit.IsFaithful done visits)
      (hinside : IsInside segment pieces left state)
      (hstream : Yields stream (left ++ segmentBytes ahead)) :
      StandsAt segments ⟨visits, some (segment.record, pieces)⟩ ⟨stream, state⟩

/-! ## One call -/

section Calls

variable {segments done ahead : List Segment} {segment : Segment} {visits : List Visit}
  {pieces : List (List UInt8)} {left piece more : List UInt8} {stream : σ} {state : HandleState}

/-- The next segment is one of those that are sound. -/
theorem isSound_next (hsound : ∀ segment ∈ segments, segment.IsSound)
    (hsegments : segments = done ++ segment :: ahead) : segment.IsSound :=
  hsound segment (hsegments ▸ List.mem_append_right _ List.mem_cons_self)

/-- One more visit, of the next record. -/
theorem forall₂_visit {visit : Visit} (hvisits : List.Forall₂ Visit.IsFaithful done visits)
    (hvisit : visit.IsFaithful segment) :
    List.Forall₂ Visit.IsFaithful (done ++ [segment]) (visits ++ [visit]) :=
  List.rel_append hvisits (.cons hvisit .nil)

/-- The next record can be skipped whole. -/
theorem skipRecord_standsAt (hsound : segment.IsSound)
    (hsegments : segments = done ++ segment :: ahead)
    (hvisits : List.Forall₂ Visit.IsFaithful done visits)
    (hmode : state.mode = .reading .atRecordHeader)
    (hstream : Yields stream (segmentBytes (segment :: ahead))) :
    ∃ final, skipRecord ⟨stream, state⟩ = .ok () final ∧
      StandsAt segments ⟨visits ++ [.skipped], none⟩ final := by
  have hlist : skipRecord ⟨segmentBytes (segment :: ahead), state⟩
      = .ok () ⟨segmentBytes ahead, state.skipped⟩ :=
    (skipRecord_eq_ok_of_atRecordHeader hmode).mpr
      ⟨segment.record, segment.payload, _, hsound.normal, hsound.length_eq, rfl, rfl⟩
  obtain ⟨final, hrun, hfinal⟩ := exists_ok_of_yields
    (simulates_skipRecord Yields.isDelivery.readsAlike) hstream hlist
  exact ⟨_, hrun, .boundary (hsegments.trans (List.append_cons _ _ _))
    (forall₂_visit hvisits trivial) rfl hfinal⟩

/-- A record with room for a size leads into its payload, even if that is empty. -/
theorem isInside_behind (hsize : segment.record.hasAddedSize = true) (state : HandleState) :
    IsInside segment [] segment.payload (state.behind segment.record) := by
  refine ⟨?_, hsize, rfl, (IncomingPayload.consume_nil _).symm⟩
  rw [HandleState.behind, if_pos hsize]

/-- A record without one is done with at once. -/
theorem mode_behind_of_absent (hsize : ¬ segment.record.hasAddedSize = true) (state : HandleState) :
    (state.behind segment.record).mode = .reading .atRecordHeader := by
  rw [HandleState.behind, if_neg hsize]

/-- The next record can be read. -/
theorem readRecord_standsAt (hsound : segment.IsSound)
    (hsegments : segments = done ++ segment :: ahead)
    (hvisits : List.Forall₂ Visit.IsFaithful done visits)
    (hmode : state.mode = .reading .atRecordHeader)
    (hstream : Yields stream (segmentBytes (segment :: ahead))) :
    ∃ final, readRecord ⟨stream, state⟩ = .ok segment.record final ∧
      StandsAt segments (ReadingLog.note ⟨visits, none⟩ final.mode segment.record []) final := by
  have hlist : readRecord ⟨segmentBytes (segment :: ahead), state⟩
      = .ok segment.record ⟨segment.payload ++ segmentBytes ahead, state.behind segment.record⟩ :=
    readRecord_eq_ok.mpr ⟨hmode, hsound.normal, _, List.append_assoc _ _ _, rfl⟩
  obtain ⟨final, hrun, hfinal⟩ := exists_ok_of_yields
    (simulates_readRecord Yields.isDelivery.readsAlike) hstream hlist
  refine ⟨_, hrun, ?_⟩
  by_cases hsize : segment.record.hasAddedSize = true
  · have hinside := isInside_behind hsize state
    rw [Archive.mode, ReadingLog.note_inside hinside.mode]
    exact .inside hsegments hvisits hinside hfinal
  · have hbetween := mode_behind_of_absent hsize state
    have hnil := hsound.payload_eq_nil hsize
    have hout : (state.behind segment.record).mode ≠ .reading .atAddedData := by
      rw [hbetween]
      decide
    rw [Archive.mode, ReadingLog.note_behind hout]
    rw [hnil] at hfinal
    refine .boundary (hsegments.trans (List.append_cons _ _ _)) (forall₂_visit hvisits ?_) hbetween
      hfinal
    exact ⟨rfl, List.nil_prefix, fun _ => hnil.symm⟩

/-- What is left of the payload is what the handle counts. -/
theorem IsInside.remaining (h : IsInside segment pieces left state) (hsound : segment.IsSound) :
    state.incoming.remaining = left.length := by
  rw [h.incoming, IncomingPayload.consume, IncomingPayload.remaining_ofRecord h.size,
    ← hsound.length_eq, h.payload, List.length_append, Nat.add_sub_cancel_left]

omit [ByteSource σ] in
/-- The handle tells how many bytes are left. -/
theorem IsInside.addedDataRemaining (h : IsInside segment pieces left state)
    (hsound : segment.IsSound) (stream : σ) :
    (⟨stream, state⟩ : Archive σ).addedDataRemaining = left.length := by
  rw [Archive.addedDataRemaining, if_pos h.mode, h.remaining hsound]

omit [ByteSource σ] in
/-- The handle has counted just the pieces that were taken. -/
theorem IsInside.addedDataConsumed (h : IsInside segment pieces left state) (stream : σ) :
    (⟨stream, state⟩ : Archive σ).addedDataConsumed = pieces.flatten.length := by
  rw [Archive.addedDataConsumed, h.incoming, IncomingPayload.consume,
    IncomingPayload.consumed_ofRecord, Nat.zero_add]

omit [ByteSource σ] in
/-- It has summed just these pieces. -/
theorem IsInside.addedDataCrc (h : IsInside segment pieces left state) (stream : σ) :
    (⟨stream, state⟩ : Archive σ).addedDataCrc = crc32c 0 pieces.flatten := by
  rw [Archive.addedDataCrc, h.incoming, IncomingPayload.consume, IncomingPayload.crc_ofRecord]

/-- The rest of a payload can be skipped. -/
theorem abandon_standsAt (hsound : segment.IsSound)
    (hsegments : segments = done ++ segment :: ahead)
    (hvisits : List.Forall₂ Visit.IsFaithful done visits)
    (hinside : IsInside segment pieces left state)
    (hstream : Yields stream (left ++ segmentBytes ahead)) :
    ∃ final, skipRecord ⟨stream, state⟩ = .ok () final ∧
      StandsAt segments ⟨visits ++ [.read segment.record pieces true], none⟩ final := by
  have hlist : skipRecord ⟨left ++ segmentBytes ahead, state⟩
      = .ok () ⟨segmentBytes ahead, state.skipped⟩ :=
    (skipRecord_eq_ok_of_atAddedData hinside.mode).mpr
      ⟨left, _, (hinside.remaining hsound).symm, rfl, rfl⟩
  obtain ⟨final, hrun, hfinal⟩ := exists_ok_of_yields
    (simulates_skipRecord Yields.isDelivery.readsAlike) hstream hlist
  refine ⟨_, hrun, .boundary (hsegments.trans (List.append_cons _ _ _))
    (forall₂_visit hvisits ⟨rfl, ?_, nofun⟩) rfl hfinal⟩
  rw [hinside.payload]
  exact List.prefix_append _ _

/-- The front part of a payload that one call takes. -/
theorem exists_piece (count : Nat) (left : List UInt8) : ∃ piece more, left = piece ++ more ∧
    piece.length = min (min count left.length) maxTransfer :=
  exists_front (Nat.le_trans (Nat.min_le_left _ _) (Nat.min_le_right _ _))

/-- What is left of the payload is counted down with each piece. -/
theorem IsInside.remaining_consume (h : IsInside segment pieces (piece ++ more) state)
    (hsound : segment.IsSound) : (state.incoming.consume piece).remaining = more.length := by
  rw [IncomingPayload.consume, h.remaining hsound, List.length_append, Nat.add_sub_cancel_left]

/-- The pieces add up. -/
theorem IsInside.payload_eq (h : IsInside segment pieces (piece ++ more) state) :
    segment.payload = (pieces ++ [piece]).flatten ++ more := by
  rw [h.payload, List.flatten_append, List.flatten_singleton, List.append_assoc]

/-- So does what is counted of them. -/
theorem IsInside.incoming_eq (h : IsInside segment pieces (piece ++ more) state) :
    state.incoming.consume piece
      = (IncomingPayload.ofRecord segment.record).consume (pieces ++ [piece]).flatten := by
  rw [h.incoming, List.flatten_append, List.flatten_singleton, IncomingPayload.consume_append]

/-- **A piece of a payload is taken**, whatever lies behind the payload. -/
theorem IsInside.readAddedData (h : IsInside segment pieces (piece ++ more) state)
    (hsound : segment.IsSound) {count : Nat}
    (hpiece : piece.length = min (min count (piece ++ more).length) maxTransfer)
    (rest : List UInt8) :
    readAddedData count ⟨piece ++ more ++ rest, state⟩
      = .ok piece ⟨more ++ rest, state.taken piece⟩ := by
  refine readAddedData_eq_ok.mpr ⟨h.mode, ?_, fun hlast => ?_, _, List.append_assoc _ _ _, rfl⟩
  · rw [hpiece, transferLength, h.remaining hsound]
  · -- When nothing is left, what was taken is the payload that the record describes.
    rw [h.remaining_consume hsound] at hlast
    have hwhole : segment.payload = (pieces ++ [piece]).flatten := by
      rw [h.payload_eq, List.length_eq_zero_iff.mp hlast, List.append_nil]
    rw [h.incoming_eq, ← hwhole, IncomingPayload.isIntact_consume_ofRecord h.size]
    exact hsound.crc h.size

/-- The last piece leads out of the payload. -/
theorem IsInside.mode_last (h : IsInside segment pieces (piece ++ []) state)
    (hsound : segment.IsSound) : (state.taken piece).mode = .reading .atRecordHeader :=
  HandleState.mode_taken_eq.mpr (h.remaining_consume hsound)

/-- Any other piece counts for one more. -/
theorem IsInside.taken (h : IsInside segment pieces (piece ++ more) state)
    (hsound : segment.IsSound) (hmore : more ≠ []) :
    IsInside segment (pieces ++ [piece]) more (state.taken piece) := by
  refine ⟨?_, h.size, h.payload_eq, h.incoming_eq⟩
  rw [HandleState.taken, if_neg]
  rw [h.remaining_consume hsound]
  exact fun hzero => hmore (List.length_eq_zero_iff.mp hzero)

/-- A piece of a payload can be taken: as much as the buffer holds and is left. The last one leads out of
the payload. -/
theorem readAddedData_standsAt (hsound : segment.IsSound)
    (hsegments : segments = done ++ segment :: ahead)
    (hvisits : List.Forall₂ Visit.IsFaithful done visits)
    (hinside : IsInside segment pieces left state)
    (hstream : Yields stream (left ++ segmentBytes ahead)) (count : Nat) :
    ∃ bytes final, readAddedData count ⟨stream, state⟩ = .ok bytes final ∧
      bytes.length = min (min count left.length) maxTransfer ∧
      (final.mode = .reading .atAddedData ↔ bytes.length < left.length) ∧
      StandsAt segments (ReadingLog.note ⟨visits, some (segment.record, pieces)⟩ final.mode
        segment.record (pieces ++ [bytes])) final := by
  obtain ⟨piece, more, rfl, hpiece⟩ := exists_piece count left
  obtain ⟨final, hrun, hfinal⟩ := exists_ok_of_yields
    (simulates_readAddedData Yields.isDelivery.readsAlike count) hstream
    (hinside.readAddedData hsound hpiece (segmentBytes ahead))
  refine ⟨_, _, hrun, hpiece, ?_⟩
  by_cases hmore : more = []
  · -- The last piece leads out of the payload, all of which has been shown.
    subst hmore
    have hwhole := hinside.payload_eq
    rw [List.append_nil] at hwhole
    have hbetween := hinside.mode_last hsound
    have hout : (state.taken piece).mode ≠ .reading .atAddedData := by
      rw [hbetween]
      decide
    refine ⟨iff_of_false hout (by simp), ?_⟩
    rw [Archive.mode, ReadingLog.note_behind hout]
    refine .boundary (hsegments.trans (List.append_cons _ _ _)) (forall₂_visit hvisits ?_) hbetween
      hfinal
    exact ⟨rfl, hwhole ▸ List.prefix_rfl, fun _ => hwhole.symm⟩
  · -- Something is left, and the pieces count for one more.
    have hstill := hinside.taken hsound hmore
    have hleft : piece.length < (piece ++ more).length := by
      rw [List.length_append]
      exact Nat.lt_add_of_pos_right (List.length_pos_iff.mpr hmore)
    refine ⟨iff_of_true hstill.mode hleft, ?_⟩
    rw [Archive.mode, ReadingLog.note_inside hstill.mode]
    exact .inside hsegments hvisits hstill hfinal

/-- Behind the last record a read finds the end of the stream and changes nothing. -/
theorem readRecord_ended (hmode : state.mode = .reading .atRecordHeader)
    (hstream : Yields stream []) :
    ∃ final, readRecord ⟨stream, state⟩ = .error .eof ⟨final, state⟩ ∧ Yields final [] :=
  exists_error_of_yields (simulates_readRecord Yields.isDelivery.readsAlike) hstream
    (readRecord_nil hmode)

/-- At the end of the stream there is no record to skip. -/
theorem skipRecord_ended_ne_ok (hmode : state.mode = .reading .atRecordHeader)
    (hstream : Yields stream []) {final : Archive σ} :
    skipRecord ⟨stream, state⟩ ≠ .ok () final := by
  obtain ⟨_, herror, -⟩ := exists_error_of_yields
    (simulates_skipRecord Yields.isDelivery.readsAlike) hstream (skipRecord_nil hmode)
  rw [herror]
  nofun

end Calls

/-! ## A whole schedule -/

/-- **Every schedule** over sound segments keeps to them. -/
theorem Schedule.standsAt {segments : List Segment} (hsound : ∀ segment ∈ segments, segment.IsSound)
    {start handle : Archive σ} {log : ReadingLog} (hstart : StandsAt segments {} start)
    (h : Schedule start log handle) : StandsAt segments log handle := by
  -- The induction is on the calls; what one of them keeps is `…_standsAt`, and where none is ahead
  -- the call could not have succeeded.
  induction h with
  | start => exact hstart
  | skip _ hmode hrun ih =>
    cases ih with
    | inside _ _ hinside _ => exact absurd (hinside.mode.symm.trans hmode) (by decide)
    | @boundary _ ahead _ _ _ hsegments hvisits hmode hstream =>
      rcases ahead with _ | ⟨segment, ahead⟩
      · exact absurd hrun (skipRecord_ended_ne_ok hmode hstream)
      · obtain ⟨_, hok, hfinal⟩ :=
          skipRecord_standsAt (isSound_next hsound hsegments) hsegments hvisits hmode hstream
        cases hrun.symm.trans hok
        exact hfinal
  | read _ hmode hrun ih =>
    cases ih with
    | inside _ _ hinside _ => exact absurd (hinside.mode.symm.trans hmode) (by decide)
    | @boundary _ ahead _ _ _ hsegments hvisits hmode hstream =>
      rcases ahead with _ | ⟨segment, ahead⟩
      · obtain ⟨_, herror, -⟩ := readRecord_ended hmode hstream
        cases hrun.symm.trans herror
      · obtain ⟨_, hok, hfinal⟩ :=
          readRecord_standsAt (isSound_next hsound hsegments) hsegments hvisits hmode hstream
        cases hrun.symm.trans hok
        exact hfinal
  | take _ hopen hrun ih =>
    cases ih with
    | boundary => cases hopen
    | inside hsegments hvisits hinside hstream =>
      -- The log names the record that the handle is inside.
      cases hopen
      obtain ⟨_, _, hok, -, -, hfinal⟩ :=
        readAddedData_standsAt (isSound_next hsound hsegments) hsegments hvisits hinside hstream _
      cases hrun.symm.trans hok
      exact hfinal
  | abandon _ hopen hrun ih =>
    cases ih with
    | boundary => cases hopen
    | inside hsegments hvisits hinside hstream =>
      cases hopen
      obtain ⟨_, hok, hfinal⟩ :=
        abandon_standsAt (isSound_next hsound hsegments) hsegments hvisits hinside hstream
      cases hrun.symm.trans hok
      exact hfinal
  | ended _ hrun ih =>
    cases ih with
    | inside _ _ hinside _ =>
      exact absurd (hinside.mode.symm.trans (mode_of_readRecord_eof hrun)) (by decide)
    | @boundary _ ahead _ _ _ hsegments hvisits hmode hstream =>
      rcases ahead with _ | ⟨segment, ahead⟩
      · obtain ⟨_, herror, hfinal⟩ := readRecord_ended hmode hstream
        cases hrun.symm.trans herror
        exact .boundary hsegments hvisits hmode hfinal
      · obtain ⟨_, hok, -⟩ :=
          readRecord_standsAt (isSound_next hsound hsegments) hsegments hvisits hmode hstream
        cases hrun.symm.trans hok

/-- The marker is found in front of whatever a stream delivers behind it. -/
theorem findMarker_of_yields {handle : Archive σ} {bytes : List UInt8}
    (hmode : handle.mode = .reading .atMarker)
    (hstream : Yields handle.stream (Marker.bytes ++ bytes)) :
    ∃ opened, findMarker handle = .ok Marker.length opened ∧
      opened.mode = .reading .atRecordHeader ∧ Yields opened.stream bytes := by
  have hnil : ¬ Marker.bytes <:+: [] := by decide
  have hlist := findMarker_append hnil bytes hmode
  rw [List.nil_append, List.length_nil, Nat.zero_add] at hlist
  obtain ⟨final, hrun, hfinal⟩ := exists_ok_of_yields
    (simulates_findMarker Yields.isDelivery.readsAlike) hstream hlist
  exact ⟨_, hrun, rfl, hfinal⟩

/-- The opened archive stands in front of its first record. -/
theorem findMarker_standsAt {segments : List Segment} {start : Archive σ}
    (hmode : start.mode = .reading .atMarker)
    (hstream : Yields start.stream (Marker.bytes ++ segmentBytes segments)) :
    ∃ opened, findMarker start = .ok Marker.length opened ∧ StandsAt segments {} opened := by
  obtain ⟨opened, hrun, hopened, hfinal⟩ := findMarker_of_yields hmode hstream
  exact ⟨opened, hrun, .boundary rfl .nil hopened hfinal⟩

/-! ## What a schedule shows -/

/-- **What a caller may rely on** that has seen `log` of the given segments: what it saw was written,
the handle has counted and summed what was taken, nothing of the next record is gone, and every call
that may follow succeeds. -/
structure IsServed (segments : List Segment) (log : ReadingLog) (handle : Archive σ) : Prop where
  /-- The visits show the first segments in order. -/
  visits : List.Forall₂ Visit.IsFaithful (segments.take log.visits.length) log.visits
  /-- Between two records all further segments are on the stream. -/
  boundary (hopen : log.open? = none) : handle.mode = .reading .atRecordHeader ∧
    Yields handle.stream (segmentBytes (segments.drop log.visits.length))
  /-- Inside a payload the record and the pieces are those of the next segment, and the rest of its
  payload and all further segments are on the stream. -/
  inside {record : Record} {pieces : List (List UInt8)} (hopen : log.open? = some (record, pieces)) :
    ∃ segment left, segments[log.visits.length]? = some segment ∧ record = segment.record ∧
      segment.payload = pieces.flatten ++ left ∧ handle.mode = .reading .atAddedData ∧
      handle.addedDataConsumed = pieces.flatten.length ∧
      handle.addedDataConsumed + handle.addedDataRemaining = segment.payload.length ∧
      handle.addedDataCrc = crc32c 0 pieces.flatten ∧
      Yields handle.stream (left ++ segmentBytes (segments.drop (log.visits.length + 1)))
  /-- A record that is ahead can be read and skipped. -/
  next (hopen : log.open? = none) (hahead : log.visits.length < segments.length) :
    (∃ record final, readRecord handle = .ok record final) ∧ ∃ final, skipRecord handle = .ok () final
  /-- Pieces of a payload can be taken with buffers of any length: as much as the buffer holds and is left,
  up to the most bytes of one transfer. The payload is left with its last byte, and the rest of it can be
  skipped. -/
  further (hmode : handle.mode = .reading .atAddedData) :
    (∀ count, ∃ bytes final, readAddedData count handle = .ok bytes final ∧
      bytes.length = min (min count handle.addedDataRemaining) maxTransfer ∧
      (final.mode = .reading .atAddedData ↔ bytes.length < handle.addedDataRemaining)) ∧
      ∃ final, skipRecord handle = .ok () final
  /-- Behind the last record there is no further one, and finding that out changes nothing. -/
  ended (hopen : log.open? = none) (hend : log.visits.length = segments.length) :
    ∃ final, readRecord handle = .error .eof final ∧ final.state = handle.state ∧
      Yields final.stream []

/-- Where a caller stands says what it may rely on. -/
theorem StandsAt.isServed {segments : List Segment} (hsound : ∀ segment ∈ segments, segment.IsSound)
    {log : ReadingLog} {handle : Archive σ} (h : StandsAt segments log handle) :
    IsServed segments log handle := by
  cases h with
  | @boundary done ahead visits stream state hsegments hvisits hmode hstream =>
    -- the visits count the segments that are done, so the others are ahead
    have hlength : visits.length = done.length := hvisits.length_eq.symm
    have hdrop : segments.drop visits.length = ahead := by
      rw [hlength, hsegments, List.drop_left]
    refine ⟨?_, fun _ => ⟨hmode, ?_⟩, ?_, fun _ hahead => ?_, fun hinside => ?_, fun _ hend => ?_⟩
    · rw [hlength, hsegments, List.take_left]
      exact hvisits
    · rw [hdrop]
      exact hstream
    · intro _ _ hopen
      cases hopen
    · rcases ahead with _ | ⟨segment, ahead⟩
      · rw [hsegments, hlength, List.append_nil] at hahead
        exact absurd hahead (Nat.lt_irrefl _)
      · have hnext := isSound_next hsound hsegments
        obtain ⟨_, hread, -⟩ := readRecord_standsAt hnext hsegments hvisits hmode hstream
        obtain ⟨_, hskip, -⟩ := skipRecord_standsAt hnext hsegments hvisits hmode hstream
        exact ⟨⟨_, _, hread⟩, _, hskip⟩
    · exact absurd (hmode.symm.trans hinside) (by decide)
    · obtain rfl : ahead = [] := by
        rw [← hdrop, hend, List.drop_length]
      obtain ⟨_, herror, hfinal⟩ := readRecord_ended hmode hstream
      exact ⟨_, herror, rfl, hfinal⟩
  | @inside done ahead segment visits pieces left stream state hsegments hvisits hinside hstream =>
    have hlength : visits.length = done.length := hvisits.length_eq.symm
    have hnext := isSound_next hsound hsegments
    refine ⟨?_, ?_, fun hopen => ?_, ?_, fun _ => ⟨fun count => ?_, ?_⟩, ?_⟩
    · rw [hlength, hsegments, List.take_left]
      exact hvisits
    · intro hopen
      cases hopen
    · cases hopen
      refine ⟨segment, left, ?_, rfl, hinside.payload, hinside.mode,
        hinside.addedDataConsumed stream, ?_, hinside.addedDataCrc stream, ?_⟩
      · rw [hlength, hsegments, List.getElem?_append_right (Nat.le_refl _), Nat.sub_self]
        rfl
      · rw [hinside.addedDataConsumed, hinside.addedDataRemaining hnext, hinside.payload,
          List.length_append]
      · rw [hlength, hsegments, List.append_cons, List.drop_left' (by simp)]
        exact hstream
    · intro hopen
      cases hopen
    · obtain ⟨_, _, htake, hlength, hlast, -⟩ :=
        readAddedData_standsAt hnext hsegments hvisits hinside hstream count
      rw [hinside.addedDataRemaining hnext]
      exact ⟨_, _, htake, hlength, hlast⟩
    · obtain ⟨_, hskip, -⟩ := abandon_standsAt hnext hsegments hvisits hinside hstream
      exact ⟨_, hskip⟩
    · intro hopen
      cases hopen

/-- **A payload comes to its end** when it is taken with a buffer that is not empty, and then all of it
has been shown. -/
theorem Schedule.exists_finished {segments : List Segment}
    (hsound : ∀ segment ∈ segments, segment.IsSound) {opened handle : Archive σ} {log : ReadingLog}
    (hopened : StandsAt segments {} opened) (h : Schedule opened log handle) {record : Record}
    {pieces : List (List UInt8)} (hopen : log.open? = some (record, pieces)) {count : Nat}
    (hcount : 0 < count) : ∃ more final, (∀ piece ∈ more, piece.length ≤ count) ∧
      Schedule opened (log.finish (.read record (pieces ++ more) false)) final := by
  have hserved {log : ReadingLog} {handle : Archive σ} (h : Schedule opened log handle) :
      IsServed segments log handle := (h.standsAt hsound hopened).isServed hsound
  -- The induction is on what is left of the payload, of which every piece takes some.
  induction hleft : handle.addedDataRemaining using Nat.strongRecOn generalizing log handle pieces with
  | ind left ih =>
    obtain ⟨segment, _, hsegment, rfl, -, hmode, hconsumed, hsum, -⟩ := (hserved h).inside hopen
    obtain ⟨bytes, final, hrun, hlength, hlast⟩ := ((hserved h).further hmode).1 count
    have hbound : bytes.length ≤ count := by omega
    have hnext := h.take hopen hrun
    by_cases hinside : final.mode = .reading .atAddedData
    · have hsome := hlast.mp hinside
      rw [ReadingLog.note_inside hinside] at hnext
      obtain ⟨segment', _, hsegment', -, -, -, hconsumed', hsum', -⟩ := (hserved hnext).inside rfl
      obtain rfl : segment = segment' := Option.some.inj (hsegment.symm.trans hsegment')
      -- as much is left as has not been taken with this piece
      have hless : final.addedDataRemaining < left := by
        rw [List.flatten_append, List.length_append, List.flatten_singleton] at hconsumed'
        rw [maxTransfer] at hlength
        omega
      obtain ⟨more, behind, hpieces, hfinished⟩ := ih _ hless hnext rfl rfl
      refine ⟨bytes :: more, behind, List.forall_mem_cons.mpr ⟨hbound, hpieces⟩, ?_⟩
      rw [List.append_cons]
      exact hfinished
    · rw [ReadingLog.note_behind hinside] at hnext
      exact ⟨[bytes], final, List.forall_mem_singleton.mpr hbound, hnext⟩

/-- **Reading schedules over well-formed archives.** On a stream of the marker and sound segments the
marker is found, and then every schedule of calls is served: each call that may follow succeeds, and
what was seen is what was written. From any point inside a payload, taking pieces with a buffer that is
not empty leads to its end. -/
theorem schedule_isServed {segments : List Segment} (hsound : ∀ segment ∈ segments, segment.IsSound)
    {start : Archive σ} (hmode : start.mode = .reading .atMarker)
    (hstream : Yields start.stream (Marker.bytes ++ segmentBytes segments)) :
    ∃ opened, findMarker start = .ok Marker.length opened ∧
      (∀ log handle, Schedule opened log handle → IsServed segments log handle) ∧
      ∀ log handle record pieces count, Schedule opened log handle →
        log.open? = some (record, pieces) → 0 < count →
        ∃ more final, (∀ piece ∈ more, piece.length ≤ count) ∧
          Schedule opened (log.finish (.read record (pieces ++ more) false)) final := by
  obtain ⟨opened, hrun, hopened⟩ := findMarker_standsAt hmode hstream
  refine ⟨opened, hrun, fun log handle h => (h.standsAt hsound hopened).isServed hsound, ?_⟩
  exact fun _ _ _ _ _ h hopen hcount => h.exists_finished hsound hopened hopen hcount

/-! ### Two payloads in pieces -/

/-- Five bytes of payload behind a record with their checksum. -/
def fiveBytes : Segment :=
  ⟨{ kind := .dataFragment, flags := 0xA0, size := 14, addedSize := 5,
      addedCrc := crc32c 0 [1, 2, 3, 4, 5] }, [1, 2, 3, 4, 5]⟩

/-- No byte of payload behind a record with room for their number. -/
def noBytes : Segment := ⟨{ kind := .unknown 90, flags := 0x80, size := 11, data := [1] }, []⟩

/-- A state between two records. -/
def betweenTwo : HandleState := { mode := .reading .atRecordHeader }

/-- The state in front of the first payload. -/
def atFiveBytes : HandleState := betweenTwo.behind fiveBytes.record

/-- The state behind the first payload, of which two bytes were taken, none, and then the other three. -/
def behindFiveBytes : HandleState := ((atFiveBytes.taken [1, 2]).taken []).taken [3, 4, 5]

/-- The state behind the second payload. -/
def behindNoBytes : HandleState := (behindFiveBytes.behind noBytes.record).taken []

/-- The record with five bytes of payload is as the writer makes it. -/
theorem isSound_fiveBytes : fiveBytes.IsSound :=
  ⟨⟨by decide, by decide, by decide, by decide⟩, by decide, fun _ _ => rfl⟩

/-- The record with an empty payload is as the writer makes it. -/
theorem isSound_noBytes : noBytes.IsSound :=
  ⟨⟨by decide, by decide, by decide, by decide⟩, by decide, by decide⟩

/-- The pieces have the checksum of the payload. -/
theorem isIntact_behindFiveBytes : behindFiveBytes.incoming.IsIntact := by
  intro stored hstored
  have hcrc : fiveBytes.record.addedCrc = behindFiveBytes.incoming.crc := by decide +kernel
  exact (Option.some.inj hstored).symm.trans hcrc

/-- Of the first payload two bytes are taken, none, and the other three with a buffer of nine. -/
theorem schedule_first : Schedule ⟨segmentBytes [fiveBytes, noBytes], betweenTwo⟩
    ⟨[.read fiveBytes.record [[1, 2], [], [3, 4, 5]] false], none⟩
    ⟨segmentBytes [noBytes], behindFiveBytes⟩ := by
  have hread : readRecord ⟨segmentBytes [fiveBytes, noBytes], betweenTwo⟩
      = .ok fiveBytes.record ⟨fiveBytes.payload ++ segmentBytes [noBytes], atFiveBytes⟩ :=
    readRecord_eq_ok.mpr ⟨rfl, isSound_fiveBytes.normal, _, List.append_assoc _ _ _, rfl⟩
  have htwo : readAddedData 2 ⟨fiveBytes.payload ++ segmentBytes [noBytes], atFiveBytes⟩
      = .ok [1, 2] ⟨[3, 4, 5] ++ segmentBytes [noBytes], atFiveBytes.taken [1, 2]⟩ :=
    readAddedData_eq_ok.mpr ⟨rfl, rfl, nofun, _, rfl, rfl⟩
  have hnone : readAddedData 0 ⟨[3, 4, 5] ++ segmentBytes [noBytes], atFiveBytes.taken [1, 2]⟩
      = .ok [] ⟨[3, 4, 5] ++ segmentBytes [noBytes], (atFiveBytes.taken [1, 2]).taken []⟩ :=
    readAddedData_eq_ok.mpr ⟨rfl, rfl, nofun, _, rfl, rfl⟩
  have hthree : readAddedData 9
      ⟨[3, 4, 5] ++ segmentBytes [noBytes], (atFiveBytes.taken [1, 2]).taken []⟩
        = .ok [3, 4, 5] ⟨segmentBytes [noBytes], behindFiveBytes⟩ :=
    readAddedData_eq_ok.mpr ⟨rfl, rfl, fun _ => isIntact_behindFiveBytes, _, rfl, rfl⟩
  exact (((Schedule.start.read rfl hread).take rfl htwo).take rfl hnone).take rfl hthree

/-- The second payload is empty, and taking nothing of it leads out of it. -/
theorem schedule_both : Schedule ⟨segmentBytes [fiveBytes, noBytes], betweenTwo⟩
    ⟨[.read fiveBytes.record [[1, 2], [], [3, 4, 5]] false, .read noBytes.record [[]] false], none⟩
    ⟨[], behindNoBytes⟩ := by
  have hread : readRecord ⟨segmentBytes [noBytes], behindFiveBytes⟩
      = .ok noBytes.record ⟨[], behindFiveBytes.behind noBytes.record⟩ :=
    readRecord_eq_ok.mpr ⟨rfl, isSound_noBytes.normal, _, List.append_assoc _ _ _, rfl⟩
  have hnone : readAddedData 4 ⟨[], behindFiveBytes.behind noBytes.record⟩
      = .ok [] ⟨[], behindNoBytes⟩ :=
    readAddedData_eq_ok.mpr ⟨rfl, rfl, fun _ => nofun, _, rfl, rfl⟩
  exact (schedule_first.read rfl hread).take rfl hnone

/-- There both payloads have been taken to their ends, what has been shown of them is what was written,
and no further record is found. -/
theorem schedule_isServed_two :
    let log : ReadingLog := ⟨[.read fiveBytes.record [[1, 2], [], [3, 4, 5]] false,
      .read noBytes.record [[]] false], none⟩
    ∃ opened final : Archive (List UInt8),
      findMarker (Archive.reader (Marker.bytes ++ segmentBytes [fiveBytes, noBytes]))
          = .ok Marker.length opened ∧
        Schedule opened log ⟨[], behindNoBytes⟩ ∧
        IsServed [fiveBytes, noBytes] log (⟨[], behindNoBytes⟩ : Archive (List UInt8)) ∧
        readRecord ⟨[], behindNoBytes⟩ = .error .eof final := by
  intro log
  have hsound : ∀ segment ∈ [fiveBytes, noBytes], segment.IsSound := by
    intro segment h
    rcases List.mem_pair.mp h with rfl | rfl
    · exact isSound_fiveBytes
    · exact isSound_noBytes
  obtain ⟨opened, hfind, hserved, -⟩ := schedule_isServed hsound
    (rfl : (Archive.reader (Marker.bytes ++ segmentBytes [fiveBytes, noBytes])).mode = _)
    ⟨Eq, isDelivery_eq, rfl⟩
  have hnil : ¬ Marker.bytes <:+: [] := by decide
  have hopened : opened = ⟨segmentBytes [fiveBytes, noBytes], betweenTwo⟩ :=
    (EStateM.Result.ok.inj (hfind.symm.trans (findMarker_append hnil _ rfl))).2
  subst hopened
  have hall := hserved log _ schedule_both
  obtain ⟨final, hended, -⟩ := hall.ended rfl rfl
  exact ⟨_, final, hfind, schedule_both, hall, hended⟩

end RecordArchive
