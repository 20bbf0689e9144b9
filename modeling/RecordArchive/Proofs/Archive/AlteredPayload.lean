import Mathlib
import RecordArchive.Proofs.Archive.Recording
import RecordArchive.Proofs.Archive.RecordReader
import RecordArchive.Proofs.Checksum.Difference

/-! # Payloads that were altered

A payload with a checksum is taken in pieces of any lengths, and the checksum is compared when its
last byte has been taken.

* `IsAltered.crc32c_ne`: an alteration within four bytes in a row changes the checksum.
* `Archive.takePieces_of_lt`: pieces are taken as long as the last byte is left, whatever the payload
  is. `Archive.readAddedData_last` and `Archive.readAddedData_last_of_ne`: the call that takes the last
  byte succeeds if the checksum is the declared one and fails otherwise.
* `Archive.close_performAll_altered`: so **an altered payload is noticed** with its last byte, of every
  record with a size and a checksum that a writer has left, and a payload that was not altered is read
  to its end. -/

namespace RecordArchive

open Program

variable {σ τ : Type}

/-! ## Alterations -/

/-- **An alteration** of some bytes that is confined to a number of them in a row. -/
structure IsAltered (width : Nat) (bytes bytes' : List UInt8) : Prop where
  length : bytes'.length = bytes.length
  changed : bytes' ≠ bytes
  confined : ∃ start, ∀ index, bytes'[index]? ≠ bytes[index]? → start ≤ index ∧ index < start + width

/-- An alteration has a window, in front of which and behind which nothing has changed. -/
theorem IsAltered.exists_window {width : Nat} {bytes bytes' : List UInt8}
    (h : IsAltered width bytes bytes') : ∃ front window window' back,
      bytes = front ++ window ++ back ∧ bytes' = front ++ window' ++ back ∧
        window.length = window'.length ∧ window.length ≤ width ∧ window' ≠ window := by
  obtain ⟨start, hconfined⟩ := h.confined
  -- A difference in front of the window or behind it would not be confined to it.
  have hfront : bytes'.take start = bytes.take start := by
    apply List.ext_getElem?
    intro index
    rw [List.getElem?_take, List.getElem?_take]
    split
    next hlt =>
      by_contra hne
      exact absurd (hconfined index hne).1 (Nat.not_le.mpr hlt)
    next => rfl
  have hback : bytes'.drop (start + width) = bytes.drop (start + width) := by
    apply List.ext_getElem?
    intro index
    rw [List.getElem?_drop, List.getElem?_drop]
    by_contra hne
    exact absurd (hconfined _ hne).2 (by omega)
  have hsplit (all : List UInt8) : all
      = all.take start ++ (all.drop start).take width ++ all.drop (start + width) := by
    rw [List.append_assoc, ← List.drop_drop, List.take_append_drop, List.take_append_drop]
  have hbytes' := hsplit bytes'
  rw [hfront, hback] at hbytes'
  refine ⟨_, _, _, _, hsplit bytes, hbytes', ?_, List.length_take_le _ _, fun hsame => ?_⟩
  · rw [List.length_take, List.length_take, List.length_drop, List.length_drop, h.length]
  · rw [hsame, ← hsplit bytes] at hbytes'
    exact h.changed hbytes'

/-- What is altered is a window between a front part and a back part. -/
theorem IsAltered.of_window {width : Nat} (front window window' back : List UInt8)
    (hlength : window'.length = window.length) (hwidth : window.length ≤ width)
    (hne : window' ≠ window) :
    IsAltered width (front ++ window ++ back) (front ++ window' ++ back) := by
  refine ⟨?_, fun hsame => hne ?_, front.length, fun index hdiffer => ?_⟩
  · rw [List.length_append, List.length_append, List.length_append, List.length_append, hlength]
  · exact List.append_cancel_left (List.append_cancel_right hsame)
  · by_contra hout
    refine hdiffer ?_
    rcases Nat.lt_or_ge index front.length with hbefore | hbehind
    · rw [List.append_assoc, List.append_assoc, List.getElem?_append_left hbefore,
        List.getElem?_append_left hbefore]
    · have hlengths : (front ++ window').length = (front ++ window).length := by
        rw [List.length_append, List.length_append, hlength]
      have hover : (front ++ window).length ≤ index := by
        rw [List.length_append]
        omega
      rw [List.getElem?_append_right hover, List.getElem?_append_right (hlengths ▸ hover), hlengths]

/-- **An alteration within four bytes in a row** changes the checksum. -/
theorem IsAltered.crc32c_ne {bytes bytes' : List UInt8} (h : IsAltered 4 bytes bytes')
    (seed : UInt32) : crc32c seed bytes ≠ crc32c seed bytes' := by
  obtain ⟨front, window, window', back, rfl, rfl, hlength, hfour, hne⟩ := h.exists_window
  exact fun hsame => hne (crc32c_window_injective seed front back hlength hfour hsame).symm

namespace Archive

open Call

/-! ## Pieces of a payload -/

section Pieces

variable [ByteSource σ] [ByteSource τ]

/-- Takes pieces of a payload with buffers of the given lengths, one after another, and gives all of
them. -/
def takePieces : List Nat → Call σ (List UInt8)
  | [] => pure []
  | count :: counts => do
    let taken ← readAddedData count
    let more ← takePieces counts
    pure (taken ++ more)

/-- Pieces of a payload are the same on streams that are read alike. -/
theorem simulates_takePieces {streams : σ → τ → Prop} (h : ReadsAlike streams) (counts : List Nat) :
    Simulates (Related streams) (takePieces counts) (takePieces counts) := by
  induction counts with
  | nil => exact .pure _
  | cons count counts ih =>
    exact (simulates_readAddedData h count).bind fun _ => ih.bind fun _ => .pure _

end Pieces

/-- The number of bytes that buffers of the given lengths take when so many are left. -/
def takenLength : (left : Nat) → List Nat → Nat
  | _, [] => 0
  | left, count :: counts =>
    let taken := min (min count left) maxTransfer
    taken + takenLength (left - taken) counts

/-- Pieces behind others take from what those have left. -/
theorem takenLength_append (left : Nat) (counts counts' : List Nat) :
    takenLength left (counts ++ counts')
      = takenLength left counts + takenLength (left - takenLength left counts) counts' := by
  induction counts generalizing left with
  | nil => rw [List.nil_append, takenLength, Nat.zero_add, Nat.sub_zero]
  | cons count counts ih =>
    rw [List.cons_append, takenLength, takenLength, ih, Nat.sub_sub, Nat.add_assoc]

section Lists

variable {left : List UInt8} {state : HandleState}

/-- **Pieces are taken** as long as the last byte is left. -/
theorem takePieces_of_lt (rest : List UInt8) (hmode : state.mode = .reading .atAddedData)
    (hremaining : state.incoming.remaining = left.length) {counts : List Nat}
    (hlt : takenLength left.length counts < left.length) :
    ∃ state', takePieces counts ⟨left ++ rest, state⟩
        = .ok (left.take (takenLength left.length counts))
          ⟨left.drop (takenLength left.length counts) ++ rest, state'⟩ ∧
      state'.mode = .reading .atAddedData ∧
      state'.incoming = state.incoming.consume (left.take (takenLength left.length counts)) := by
  induction counts generalizing left state with
  | nil => exact ⟨state, rfl, hmode, (IncomingPayload.consume_nil _).symm⟩
  | cons count counts ih =>
    rw [takenLength] at hlt ⊢
    obtain ⟨taken, htaken⟩ : ∃ taken, min (min count left.length) maxTransfer = taken := ⟨_, rfl⟩
    simp only [htaken] at hlt ⊢
    have hle : taken ≤ left.length := by omega
    have hpiece : (left.take taken).length = transferLength count state.incoming := by
      rw [List.length_take_of_le hle, transferLength, hremaining, htaken]
    have hleft : (state.taken (left.take taken)).incoming.remaining = (left.drop taken).length := by
      rw [HandleState.incoming_taken, IncomingPayload.consume, hremaining, List.length_take_of_le hle,
        List.length_drop]
    -- The last byte is left, so this piece is not followed by the check.
    have hinside : (state.taken (left.take taken)).mode = .reading .atAddedData := by
      rw [HandleState.incoming_taken, List.length_drop] at hleft
      rw [HandleState.mode_taken, if_neg (by omega)]
    have hfirst : readAddedData count ⟨left ++ rest, state⟩
        = .ok (left.take taken) ⟨left.drop taken ++ rest, state.taken (left.take taken)⟩ := by
      refine readAddedData_eq_ok.mpr ⟨hmode, hpiece, fun hlast => ?_, _, ?_, rfl⟩
      · rw [← HandleState.incoming_taken, hleft, List.length_drop] at hlast
        omega
      · rw [← List.append_assoc, List.take_append_drop]
    rw [← List.length_drop] at hlt ⊢
    obtain ⟨state', hmore, hmode', hincoming⟩ := ih hinside hleft (by rw [List.length_drop] at *; omega)
    refine ⟨state', ?_, hmode', ?_⟩
    · rw [takePieces, bind_of_ok hfirst, bind_of_ok hmore, List.drop_drop, List.take_add]
      rfl
    · rw [hincoming, HandleState.incoming_taken, ← IncomingPayload.consume_append, List.take_add]

/-- The buffer is long enough for what is left. -/
theorem transferLength_eq (hremaining : state.incoming.remaining = left.length) {count : Nat}
    (hall : takenLength left.length [count] = left.length) :
    left.length = transferLength count state.incoming := by
  rw [transferLength, hremaining]
  exact hall.symm

/-- **The last byte of a payload** is given if the payload is intact. -/
theorem readAddedData_last (rest : List UInt8) (hmode : state.mode = .reading .atAddedData)
    (hremaining : state.incoming.remaining = left.length) {count : Nat}
    (hall : takenLength left.length [count] = left.length)
    (hintact : (state.incoming.consume left).IsIntact) :
    readAddedData count ⟨left ++ rest, state⟩ = .ok left ⟨rest, state.taken left⟩ :=
  readAddedData_eq_ok.mpr
    ⟨hmode, transferLength_eq hremaining hall, fun _ => hintact, rest, rfl, rfl⟩

/-- **The last byte of a payload** is refused if the payload has another checksum than was declared. -/
theorem readAddedData_last_of_ne (rest : List UInt8) (hmode : state.mode = .reading .atAddedData)
    (hremaining : state.incoming.remaining = left.length) {count : Nat}
    (hall : takenLength left.length [count] = left.length) {stored : UInt32}
    (hdeclared : state.incoming.declaredCrc? = some stored)
    (hne : stored ≠ (state.incoming.consume left).crc) :
    readAddedData count ⟨left ++ rest, state⟩
      = .error (.invalidData (.payloadChecksum stored (state.incoming.consume left).crc))
          ⟨rest, state.taken left⟩ := by
  have hlast : (state.incoming.consume left).remaining = 0 := by
    rw [IncomingPayload.consume, hremaining, Nat.sub_self]
  exact readAddedData_of_mismatch hmode (transferLength_eq hremaining hall) hlast hdeclared hne

end Lists

/-! ## Payloads to their end -/

section Streams

variable [ByteSource σ]

/-- **Reading a payload to its end**: with buffers of any lengths pieces are taken as long as its last
byte is left, and the call that takes that byte ends as it is said. -/
def ReadsTo (payload : List UInt8)
    (ends : EStateM.Result ArchiveError (Archive σ) (List UInt8) → Prop) (handle : Archive σ) : Prop :=
  ∀ counts, takenLength payload.length counts < payload.length → ∃ behind,
    takePieces counts handle = .ok (payload.take (takenLength payload.length counts)) behind ∧
      behind.mode = .reading .atAddedData ∧
      ∀ count, takenLength payload.length (counts ++ [count]) = payload.length →
        ends (readAddedData count behind)

/-- The reader stands between two records, in front of the given bytes. -/
def IsBetween (rest : List UInt8) (handle : Archive σ) : Prop :=
  handle.mode = .reading .atRecordHeader ∧ Yields handle.stream rest

variable {payload rest : List UInt8} {stream : σ} {state : HandleState}

/-- The last piece stands behind those that were taken before. -/
theorem ReadsTo.of_list (hmode : state.mode = .reading .atAddedData)
    (hremaining : state.incoming.remaining = payload.length)
    (hstream : Yields stream (payload ++ rest))
    {ends : EStateM.Result ArchiveError (Archive σ) (List UInt8) → Prop}
    (hends : ∀ left stream' state' count, Yields stream' (left ++ rest) →
      state'.mode = .reading .atAddedData → state'.incoming.remaining = left.length →
      state'.incoming.declaredCrc? = state.incoming.declaredCrc? →
      state'.incoming.consume left = state.incoming.consume payload →
      takenLength left.length [count] = left.length → ends (readAddedData count ⟨stream', state'⟩)) :
    ReadsTo payload ends ⟨stream, state⟩ := by
  intro counts hlt
  obtain ⟨state', hpieces, hmode', hincoming⟩ := takePieces_of_lt rest hmode hremaining hlt
  obtain ⟨stream', hrun, hstream'⟩ := exists_ok_of_yields
    (simulates_takePieces Yields.isDelivery.readsAlike counts) hstream hpieces
  refine ⟨_, hrun, hmode', fun count hall => ?_⟩
  -- What is left now is all that the last call is about.
  rw [takenLength_append, ← List.length_drop] at hall
  refine hends _ _ _ count hstream' hmode' ?_ ?_ ?_ ?_
  · rw [hincoming, IncomingPayload.consume, hremaining, List.length_take_of_le (Nat.le_of_lt hlt),
      List.length_drop]
  · rw [hincoming]
    rfl
  · rw [hincoming, ← IncomingPayload.consume_append, List.take_append_drop]
  · rw [List.length_drop] at *
    omega

/-- An intact payload is read to its end. -/
theorem readsTo_of_isIntact (hmode : state.mode = .reading .atAddedData)
    (hremaining : state.incoming.remaining = payload.length)
    (hstream : Yields stream (payload ++ rest))
    (hintact : (state.incoming.consume payload).IsIntact) :
    ReadsTo payload (fun result => ∃ taken final, result = .ok taken final ∧ IsBetween rest final)
      ⟨stream, state⟩ := by
  refine .of_list hmode hremaining hstream fun left stream' state' count hstream' hmode' hremaining' _
    hconsume hall => ?_
  have hlast := readAddedData_last rest hmode' hremaining' hall (hconsume ▸ hintact)
  obtain ⟨final, hrun, hfinal⟩ := exists_ok_of_yields
    (simulates_readAddedData Yields.isDelivery.readsAlike count) hstream' hlast
  refine ⟨_, _, hrun, HandleState.mode_taken_eq.mpr ?_, hfinal⟩
  rw [IncomingPayload.consume, hremaining', Nat.sub_self]

/-- A payload with another checksum than was declared is refused with its last byte. -/
theorem readsTo_of_ne (hmode : state.mode = .reading .atAddedData)
    (hremaining : state.incoming.remaining = payload.length)
    (hstream : Yields stream (payload ++ rest)) {stored : UInt32}
    (hdeclared : state.incoming.declaredCrc? = some stored)
    (hne : stored ≠ (state.incoming.consume payload).crc) :
    ReadsTo payload (fun result => ∃ final, result = .error (.invalidData (.payloadChecksum stored
      (state.incoming.consume payload).crc)) final ∧ IsBetween rest final) ⟨stream, state⟩ := by
  refine .of_list hmode hremaining hstream fun left stream' state' count hstream' hmode' hremaining'
    hdeclared' hconsume hall => ?_
  rw [← hconsume] at hne ⊢
  have hlast := readAddedData_last_of_ne rest hmode' hremaining' hall
    (hdeclared'.trans hdeclared) hne
  obtain ⟨final, hrun, hfinal⟩ := exists_error_of_yields
    (simulates_readAddedData Yields.isDelivery.readsAlike count) hstream' hlast
  refine ⟨_, hrun, HandleState.mode_taken_eq.mpr ?_, hfinal⟩
  rw [IncomingPayload.consume, hremaining', Nat.sub_self]

/-- Behind a record with a payload of the announced length the reader stands in front of it. -/
theorem readRecord_of_isSound {segment : Segment} (hsound : segment.IsSound)
    (hsize : segment.record.hasAddedSize = true) (hmode : state.mode = .reading .atRecordHeader)
    (hlength : payload.length = segment.payload.length)
    (hstream : Yields stream (segment.record.toBytes ++ payload ++ rest)) :
    ∃ stream', readRecord ⟨stream, state⟩
        = .ok segment.record ⟨stream', state.behind segment.record⟩ ∧
      Yields stream' (payload ++ rest) ∧
      (state.behind segment.record).mode = .reading .atAddedData ∧
      (state.behind segment.record).incoming.remaining = payload.length := by
  have hlist : readRecord ⟨segment.record.toBytes ++ payload ++ rest, state⟩
      = .ok segment.record ⟨payload ++ rest, state.behind segment.record⟩ :=
    readRecord_eq_ok.mpr ⟨hmode, hsound.normal, _, List.append_assoc _ _ _, rfl⟩
  obtain ⟨stream', hrun, hstream'⟩ := exists_ok_of_yields
    (simulates_readRecord Yields.isDelivery.readsAlike) hstream hlist
  refine ⟨stream', hrun, hstream', ?_, ?_⟩
  · rw [HandleState.mode_behind, if_pos hsize]
  · rw [HandleState.behind, IncomingPayload.remaining_ofRecord hsize, ← hsound.length_eq, hlength]

/-- **What becomes of a payload** with a checksum: as it was written it is read to its end, and after
an alteration within four bytes in a row it is refused with its last byte. -/
theorem readsTo_of_isSound (segment : Segment) (hsound : segment.IsSound)
    (hsize : segment.record.hasAddedSize = true) (hcrc : segment.record.hasAddedCrc = true)
    (hmode : state.mode = .reading .atRecordHeader)
    (hlength : payload.length = segment.payload.length)
    (hstream : Yields stream (segment.record.toBytes ++ payload ++ rest)) :
    ∃ behind, readRecord ⟨stream, state⟩ = .ok segment.record behind ∧
      (payload = segment.payload → ReadsTo payload
        (fun result => ∃ taken final, result = .ok taken final ∧ IsBetween rest final) behind) ∧
      (IsAltered 4 segment.payload payload → ReadsTo payload
        (fun result => ∃ final, result = .error (.invalidData (.payloadChecksum
          segment.record.addedCrc (crc32c 0 payload))) final ∧ IsBetween rest final) behind) := by
  obtain ⟨stream', hrun, hstream', hmode', hremaining⟩ :=
    readRecord_of_isSound hsound hsize hmode hlength hstream
  have hstored := hsound.crc hsize hcrc
  have hincoming : (state.behind segment.record).incoming = .ofRecord segment.record := rfl
  have hsum : ((state.behind segment.record).incoming.consume payload).crc = crc32c 0 payload := by
    rw [IncomingPayload.consume, hincoming, IncomingPayload.crc_ofRecord]
  refine ⟨_, hrun, fun hsame => ?_, fun haltered => ?_⟩
  · refine readsTo_of_isIntact hmode' hremaining hstream' ?_
    rw [hincoming, IncomingPayload.isIntact_consume_ofRecord hsize, hsame]
    exact fun _ => hstored
  · rw [← hsum]
    refine readsTo_of_ne hmode' hremaining hstream' ?_ ?_
    · rw [hincoming, IncomingPayload.ofRecord, if_pos hsize, if_pos hcrc]
    · rw [hsum, hstored]
      exact haltered.crc32c_ne 0

end Streams

/-- **An altered payload is noticed.** Whatever calls a writer has served, behind each record with a
size and a checksum that it has left stands the payload. A reader that comes to such a record takes
the payload to its end with buffers of any lengths. If the payload was altered within four bytes in a
row, then just the call that takes its last byte fails, because of the checksum, and the reader stands
in front of the next record. -/
theorem close_performAll_altered (options : ArchiveOptions) (calls : List WriterCall) :
    ∃ opened recording archived,
      startWriting (Archive.ofStream ({} : MemoryStream) options) = .ok () opened ∧
      recording = (⟨opened, []⟩ : Recording MemoryStream).performAll calls ∧
      close recording.handle = .ok archived ∧
      ∀ done draft ahead, recording.drafts = done ++ draft :: ahead →
        archived.toList = archiveBytes done ++ (draft.segment.record.toBytes ++ draft.segment.payload)
            ++ segmentBytes (ahead.map Draft.segment) ∧
          (draft.segment.record.hasAddedSize = true → draft.segment.record.hasAddedCrc = true →
            ∀ (σ : Type) [ByteSource σ] (stream : σ)
            (state : HandleState) (payload rest : List UInt8),
            state.mode = .reading .atRecordHeader →
            payload.length = draft.segment.payload.length →
            Yields stream (draft.segment.record.toBytes ++ payload ++ rest) → ∃ behind,
              readRecord ⟨stream, state⟩ = .ok draft.segment.record.normalForm behind ∧
              (payload = draft.segment.payload → ReadsTo payload (fun result =>
                ∃ taken final, result = .ok taken final ∧ IsBetween rest final) behind) ∧
              (IsAltered 4 draft.segment.payload payload → ReadsTo payload (fun result =>
                ∃ final, result = .error (.invalidData (.payloadChecksum
                  draft.segment.record.normalForm.addedCrc (crc32c 0 payload))) final ∧
                  IsBetween rest final) behind)) := by
  obtain ⟨opened, recording, hopened, hrecording, ⟨archived, hclose, hbytes⟩, hcomplete, -⟩ :=
    close_performAll options calls
  refine ⟨opened, recording, archived, hopened, hrecording, hclose, fun done draft ahead hdrafts => ?_⟩
  refine ⟨?_, fun hsize hcrc σ _ stream state payload rest hmode hlength hstream => ?_⟩
  · rw [hbytes, hdrafts, List.map_append, segmentBytes_append, List.map_cons, segmentBytes_cons,
      archiveBytes, Segment.toBytes]
    simp only [List.append_assoc]
  · have hsound := (hcomplete draft (hdrafts ▸ List.mem_append_right _ List.mem_cons_self)).isSound
    refine readsTo_of_isSound draft.segment.normalForm hsound hsize hcrc hmode hlength ?_
    show Yields stream (draft.segment.record.normalForm.toBytes ++ payload ++ rest)
    rwa [Record.toBytes_normalForm]

/-- A fragment whose payload is streamed in two chunks, with room for its size and its checksum. -/
def summedDraft : Draft := ⟨{ kind := .dataFragment, flags := 0xA0 }, [[1, 2, 3], [4, 5, 6, 7]]⟩

/-- Read with one bit flipped, six of the seven bytes are given, and the last one is refused. -/
theorem close_performAll_altered_chunks : ∃ behind last final,
    readRecord ⟨summedDraft.segment.record.toBytes ++ [1, 2, 3, 0x44, 5, 6, 7],
        { mode := .reading .atRecordHeader }⟩ = .ok summedDraft.segment.record.normalForm behind ∧
      takePieces [2, 0, 4] behind = .ok [1, 2, 3, 0x44, 5, 6] last ∧
      (∃ fault, readAddedData 10 last = .error (.invalidData fault) final) ∧
      final.mode = .reading .atRecordHeader := by
  obtain ⟨opened, recording, archived, hopened, rfl, -, hall⟩ := close_performAll_altered {}
    [.startStreamed summedDraft.record, .append [1, 2, 3], .append [4, 5, 6, 7], .finish]
  cases hopened.symm.trans (startWriting_ofStream {} {})
  obtain ⟨-, hread⟩ := hall [] summedDraft [] (by cbv)
  have haltered : IsAltered 4 summedDraft.segment.payload [1, 2, 3, 0x44, 5, 6, 7] :=
    .of_window [1, 2, 3] [4] [0x44] [5, 6, 7] rfl (by decide) (by decide)
  obtain ⟨behind, hrecord, -, hrefused⟩ := hread (by decide) (by decide) (List UInt8)
    (summedDraft.segment.record.toBytes ++ [1, 2, 3, 0x44, 5, 6, 7] ++ [])
    { mode := .reading .atRecordHeader } [1, 2, 3, 0x44, 5, 6, 7] [] rfl rfl
    ⟨Eq, isDelivery_eq, rfl⟩
  obtain ⟨last, hpieces, -, hlast⟩ := hrefused haltered [2, 0, 4] (by decide)
  obtain ⟨final, hrun, hmode, -⟩ := hlast 10 (by decide)
  rw [List.append_nil] at hrecord
  exact ⟨behind, last, final, hrecord, hpieces, ⟨_, hrun⟩, hmode⟩

end Archive

end RecordArchive
