import Mathlib.Data.List.GetD
import RecordArchive.Archive.RecordReader
import RecordArchive.Proofs.Archive.Calls
import RecordArchive.Proofs.Record.Segment
import RecordArchive.Proofs.Stream.Scan

/-! # What the calls of a reader take

On a handle over a list of bytes each call of a reader succeeds for exactly the lists that start with
what it takes.

* `Archive.findMarker_append`: the marker is found behind anything that holds none.
* `Archive.readRecord_eq_ok`: a record is taken if the list starts with its bytes.
* `Archive.readAddedData_eq_ok`: a piece of payload is taken if it is there and, when it is the last
  one, the checksum of the payload is the declared one.
* `Archive.simulates_readRecord` and its companions: calls do the same over any stream that is read
  like the list. -/

namespace RecordArchive

open Program

variable {σ τ : Type}

/-! ## Progress through a payload -/

namespace IncomingPayload

/-- The bytes have the checksum that was declared for the payload, if one was. -/
def IsIntact (payload : IncomingPayload) : Prop :=
  ∀ stored, payload.declaredCrc? = some stored → stored = payload.crc

/-- No bytes are taken from a payload. -/
@[simp] theorem consume_nil (payload : IncomingPayload) : payload.consume [] = payload := by
  rw [consume, crc32c_nil]
  rfl

/-- A payload that is not intact has another checksum than the one that was declared. -/
theorem not_isIntact_iff {payload : IncomingPayload} : ¬ payload.IsIntact ↔
    ∃ stored, payload.declaredCrc? = some stored ∧ stored ≠ payload.crc := by
  simp [IsIntact]

/-- Pieces of a payload add up. -/
theorem consume_append (payload : IncomingPayload) (front back : List UInt8) :
    payload.consume (front ++ back) = (payload.consume front).consume back := by
  simp only [consume, List.length_append, crc32c_append, Nat.sub_sub, Nat.add_assoc]

/-- All of a payload that is announced is ahead. -/
theorem remaining_ofRecord {record : Record} (h : record.hasAddedSize = true) :
    (ofRecord record).remaining = record.addedSize.toNat := by
  rw [ofRecord, if_pos h]

/-- Nothing of the payload behind a record has been taken yet. -/
theorem consumed_ofRecord (record : Record) : (ofRecord record).consumed = 0 := by
  rw [ofRecord]
  split <;> rfl

/-- The checksum of a payload starts at zero. -/
theorem crc_ofRecord (record : Record) : (ofRecord record).crc = 0 := by
  rw [ofRecord]
  split <;> rfl

/-- The payload behind a record is intact at its end if it has the checksum that the record gives. -/
theorem isIntact_consume_ofRecord {record : Record} (h : record.hasAddedSize = true)
    (payload : List UInt8) : ((ofRecord record).consume payload).IsIntact ↔
      (record.hasAddedCrc = true → record.addedCrc = crc32c 0 payload) := by
  rw [IsIntact, ofRecord, if_pos h]
  show (∀ stored, (if record.hasAddedCrc then some record.addedCrc else none) = some stored →
    stored = crc32c 0 payload) ↔ _
  by_cases hcrc : record.hasAddedCrc = true
  · rw [if_pos hcrc]
    simp [hcrc]
  · rw [if_neg hcrc]
    simp [hcrc]

end IncomingPayload

/-- The state of a handle that has read a record. -/
def HandleState.behind (state : HandleState) (record : Record) : HandleState :=
  { state with
    incoming := .ofRecord record
    mode := .reading (if record.hasAddedSize then .atAddedData else .atRecordHeader) }

/-- Behind a record comes its payload, if it has one. -/
theorem HandleState.mode_behind (state : HandleState) (record : Record) :
    (state.behind record).mode
      = .reading (if record.hasAddedSize then .atAddedData else .atRecordHeader) := rfl

/-- The state of a handle that has come to a stop inside a record. -/
def HandleState.stranded (state : HandleState) : HandleState :=
  { state with mode := .reading .atRecordData }

/-- The state of a handle that has left a payload by skipping it. -/
def HandleState.skipped (state : HandleState) : HandleState :=
  { state with incoming := {}, mode := .reading .atRecordHeader }

/-- The state of a handle that has taken a piece of payload. -/
def HandleState.taken (state : HandleState) (bytes : List UInt8) : HandleState :=
  { state with
    incoming := state.incoming.consume bytes
    mode := .reading (if (state.incoming.consume bytes).remaining = 0 then .atRecordHeader
      else .atAddedData) }

/-- Behind the last byte of a payload comes the next record. -/
theorem HandleState.mode_taken (state : HandleState) (bytes : List UInt8) :
    (state.taken bytes).mode = .reading (if (state.incoming.consume bytes).remaining = 0
      then .atRecordHeader else .atAddedData) := rfl

/-- The handle leaves a payload with its last byte. -/
theorem HandleState.mode_taken_eq {state : HandleState} {bytes : List UInt8} :
    (state.taken bytes).mode = .reading .atRecordHeader ↔
      (state.incoming.consume bytes).remaining = 0 := by
  rw [mode_taken]
  by_cases hlast : (state.incoming.consume bytes).remaining = 0
  · rw [if_pos hlast]
    simp [hlast]
  · rw [if_neg hlast]
    simp [hlast]

/-- What was taken is counted. -/
theorem HandleState.incoming_taken (state : HandleState) (bytes : List UInt8) :
    (state.taken bytes).incoming = state.incoming.consume bytes := rfl

/-- A header is taken in three steps: one byte, the rest of the fixed part, the optional fields. -/
theorem Record.exists_headerBytes (header : Record) : ∃ first fixed optional,
    header.headerBytes = first ++ fixed ++ optional ∧ first.length = 1 ∧
      fixed.length = RecordFlags.fixedHeaderLength - 1 :=
  ⟨(LittleEndian.word16 header.checksum).take 1,
    (LittleEndian.word16 header.checksum).drop 1 ++ [header.kind.toByte, header.flags]
      ++ LittleEndian.word16 header.size,
    header.sizeField ++ header.crcField, rfl, rfl, rfl⟩

namespace Archive

open Call

/-! ## Calls on a list -/

/-- The check is passed in one place, and changes nothing. -/
theorem expectReader_eq_ok {place : ReaderState} {call : String} {archive final : Archive σ}
    {value : Unit} : expectReader place call archive = .ok value final ↔
      archive.state.mode = .reading place ∧ archive = final := by
  rw [expectReader, bind_of_ok (state_apply archive), require_eq_ok]

section Marker

variable [ByteSource σ] {stream final : σ} {state : HandleState}

/-- A reader that has found the marker stands in front of a record. -/
theorem findMarker_of_ok (hmode : state.mode = .reading .atMarker) {place : Nat}
    (h : Marker.find stream = .ok place final) : findMarker ⟨stream, state⟩
      = .ok place ⟨final, { state with mode := .reading .atRecordHeader }⟩ := by
  have hexpect : expectReader .atMarker "find_marker" ⟨stream, state⟩ = .ok () ⟨stream, state⟩ :=
    expectReader_eq_ok.mpr ⟨hmode, rfl⟩
  have hfind : onStream Marker.find ⟨stream, state⟩ = .ok place ⟨final, state⟩ :=
    onStream_eq_ok.mpr ⟨final, h, rfl⟩
  rw [findMarker, bind_of_ok hexpect, bind_of_ok hfind]
  rfl

/-- A reader that has not found the marker still looks for it. -/
theorem findMarker_of_error (hmode : state.mode = .reading .atMarker) {error : ArchiveError}
    (h : Marker.find stream = .error error final) :
    findMarker ⟨stream, state⟩ = .error error ⟨final, state⟩ := by
  have hexpect : expectReader .atMarker "find_marker" ⟨stream, state⟩ = .ok () ⟨stream, state⟩ :=
    expectReader_eq_ok.mpr ⟨hmode, rfl⟩
  rw [findMarker, bind_of_ok hexpect, bind_of_error (onStream_of_error h)]

end Marker

/-- **The marker is found** behind anything that holds none. -/
theorem findMarker_append {stub : List UInt8} (hstub : ¬ Marker.bytes <:+: stub)
    (rest : List UInt8) {state : HandleState} (hmode : state.mode = .reading .atMarker) :
    findMarker ⟨stub ++ Marker.bytes ++ rest, state⟩ = .ok (stub.length + Marker.length)
      ⟨rest, { state with mode := .reading .atRecordHeader }⟩ :=
  findMarker_of_ok hmode (Marker.find_append hstub rest)

/-- The flags are among the bytes of the fixed part of a header. -/
theorem getD_of_headerBytes {front optional more : List UInt8} {header : Record}
    (hfront : front.length = RecordFlags.fixedHeaderLength)
    (hbytes : front ++ optional = header.headerBytes ++ more) :
    front.getD 3 0 = header.flags := by
  have hflags : (header.headerBytes ++ more).getD 3 0 = header.flags := rfl
  rw [← hflags, ← hbytes, List.getD_append front optional 0 3 (by rw [hfront]; decide)]

/-- The bytes of which a header was decoded are those of that header, if as many were taken as its
flags ask for. -/
theorem eq_headerBytes_of_decodeHeader {front optional : List UInt8} {header : Record}
    (hfront : front.length = RecordFlags.fixedHeaderLength)
    (hoptional : optional.length
      = RecordFlags.headerLength (front.getD 3 0) - RecordFlags.fixedHeaderLength)
    (hheader : Record.decodeHeader (front ++ optional) = .ok header) :
    header.IsNormalHeader ∧ header.data = [] ∧ front ++ optional = header.headerBytes := by
  obtain ⟨hnormal, hnil, more, hbytes⟩ := Record.decodeHeader_eq_ok.mp hheader
  -- The flags that were looked at are those of the header, so nothing is left over.
  have hflags := getD_of_headerBytes hfront hbytes
  have hall : front.length + optional.length = header.headerLength + more.length := by
    rw [← List.length_append, hbytes, List.length_append, Record.length_headerBytes]
  have hmore : more = [] := by
    have hle := RecordFlags.fixedHeaderLength_le_headerLength header.flags
    rw [hfront, hoptional, hflags, Record.headerLength] at hall
    exact List.length_eq_zero_iff.mp (by omega)
  refine ⟨hnormal, hnil, ?_⟩
  rw [hbytes, hmore, List.append_nil]

/-- The header of a record is taken if the list starts with its bytes. -/
theorem readRecordHeader_eq_ok {bytes : List UInt8} {state : HandleState} {header : Record}
    {final : Archive (List UInt8)} : readRecordHeader ⟨bytes, state⟩ = .ok header final ↔
      header.IsNormalHeader ∧ header.data = [] ∧ ∃ rest, bytes = header.headerBytes ++ rest ∧
        final = ⟨rest, { state with mode := .reading .atRecordData }⟩ := by
  simp only [readRecordHeader, bind_eq_ok]
  constructor
  · rintro ⟨first, _, hfirst, _, _, hmode, fixed, _, hfixed, optional, _, hoptional, hdecode⟩
    obtain ⟨_, hrun, rfl⟩ := onStream_eq_ok.mp hfirst
    obtain ⟨hone, rfl⟩ := readExactly_eq_ok.mp hrun
    cases hmode
    obtain ⟨_, hrun, rfl⟩ := onStream_eq_ok.mp hfixed
    obtain ⟨hfive, rfl⟩ := readExactly_eq_ok.mp hrun
    obtain ⟨rest, hrun, rfl⟩ := onStream_eq_ok.mp hoptional
    obtain ⟨hlength, rfl⟩ := readExactly_eq_ok.mp hrun
    obtain ⟨hheader, rfl⟩ := ofResult_eq_ok.mp hdecode
    have hsix : (first ++ fixed).length = RecordFlags.fixedHeaderLength := by
      rw [List.length_append, hone, hfive]
      rfl
    obtain ⟨hnormal, hnil, hbytes⟩ := eq_headerBytes_of_decodeHeader hsix hlength hheader
    refine ⟨hnormal, hnil, rest, ?_, rfl⟩
    rw [← hbytes, List.append_assoc, List.append_assoc]
  · -- The three reads take the bytes of the header part by part.
    rintro ⟨hnormal, hnil, rest, rfl, rfl⟩
    obtain ⟨first, fixed, optional, hbytes, hone, hfive⟩ := header.exists_headerBytes
    have hsix : (first ++ fixed).length = 6 := by
      rw [List.length_append, hone, hfive]
      rfl
    have hflags := getD_of_headerBytes hsix (hbytes.symm.trans (List.append_nil _).symm)
    have hlength : optional.length
        = RecordFlags.headerLength ((first ++ fixed).getD 3 0) - RecordFlags.fixedHeaderLength := by
      have hall := header.length_headerBytes
      rw [hbytes, List.length_append, hsix, Record.headerLength] at hall
      rw [hflags, ← hall, RecordFlags.fixedHeaderLength]
      omega
    have hdecode : Record.decodeHeader (first ++ fixed ++ optional) = .ok header :=
      Record.decodeHeader_eq_ok.mpr ⟨hnormal, hnil, [], by rw [hbytes, List.append_nil]⟩
    rw [hbytes, List.append_assoc, List.append_assoc]
    exact ⟨first, _, onStream_eq_ok.mpr ⟨_, readExactly_eq_ok.mpr ⟨hone, rfl⟩, rfl⟩, (), _, rfl,
      fixed, _, onStream_eq_ok.mpr ⟨_, readExactly_eq_ok.mpr ⟨hfive, rfl⟩, rfl⟩,
      optional, _, onStream_eq_ok.mpr ⟨_, readExactly_eq_ok.mpr ⟨hlength, rfl⟩, rfl⟩,
      ofResult_eq_ok.mpr ⟨hdecode, rfl⟩⟩

/-- **A record is taken** if the list starts with its bytes. -/
theorem readRecord_eq_ok {bytes : List UInt8} {state : HandleState} {record : Record}
    {final : Archive (List UInt8)} : readRecord ⟨bytes, state⟩ = .ok record final ↔
      state.mode = .reading .atRecordHeader ∧ record.IsNormal ∧ ∃ rest,
        bytes = record.toBytes ++ rest ∧ final = ⟨rest, state.behind record⟩ := by
  simp only [readRecord, bind_eq_ok, expectReader_eq_ok]
  -- the header says how many bytes of data are taken behind it
  constructor
  · rintro ⟨_, _, ⟨hmode, rfl⟩, header, _, hheader, data, _, hdata, h⟩
    obtain ⟨hnormal, hnil, _, rfl, rfl⟩ := readRecordHeader_eq_ok.mp hheader
    obtain ⟨rest, hrun, rfl⟩ := onStream_eq_ok.mp hdata
    obtain ⟨hlength, rfl⟩ := readExactly_eq_ok.mp hrun
    obtain ⟨_, _, henter, hpure⟩ := h
    cases henter
    obtain ⟨rfl, rfl⟩ := pure_eq_ok.mp hpure
    exact ⟨hmode, hnormal.isNormal hlength, rest, (List.append_assoc _ _ _).symm, rfl⟩
  · rintro ⟨hmode, hnormal, rest, rfl, rfl⟩
    refine ⟨(), _, ⟨hmode, rfl⟩, { record with data := [] }, _, readRecordHeader_eq_ok.mpr
        ⟨hnormal.isNormalHeader, rfl, record.data ++ rest, List.append_assoc _ _ _, rfl⟩,
      record.data, _, onStream_eq_ok.mpr ⟨rest, readExactly_eq_ok.mpr
        ⟨hnormal.dataLength.symm, rfl⟩, rfl⟩, (), _, rfl, pure_eq_ok.mpr ⟨rfl, rfl⟩⟩

/-- Only between two records a reader finds that there is no further record. -/
theorem mode_of_readRecord_eof [ByteSource σ] {archive final : Archive σ}
    (h : readRecord archive = .error .eof final) :
    archive.state.mode = .reading .atRecordHeader := by
  by_cases hmode : archive.state.mode = .reading .atRecordHeader
  · exact hmode
  · have hexpect : expectReader .atRecordHeader "read_record" archive
        = .error (.invalidState "read_record") archive := by
      rw [expectReader, bind_of_ok (state_apply archive), require_of_not hmode]
    rw [readRecord, bind_of_error hexpect] at h
    cases h

/-- At the end of the list there is no header, and nothing changes. -/
theorem readRecordHeader_nil (state : HandleState) :
    readRecordHeader ⟨([] : List UInt8), state⟩ = .error .eof ⟨[], state⟩ := by
  have hfirst : onStream (readExactly .boundary 1) ⟨([] : List UInt8), state⟩
      = .error .eof ⟨[], state⟩ := onStream_of_error (readExactly_boundary_nil (by decide))
  exact bind_of_error hfirst

/-- What is wrong with the header of the next record is found by a reader that stands in front of it. -/
theorem readRecord_of_header [ByteSource σ] {handle final : Archive σ} {error : ArchiveError}
    (hmode : handle.state.mode = .reading .atRecordHeader)
    (h : readRecordHeader handle = .error error final) : readRecord handle = .error error final := by
  have hexpect : expectReader .atRecordHeader "read_record" handle = .ok () handle :=
    expectReader_eq_ok.mpr ⟨hmode, rfl⟩
  rw [readRecord, bind_of_ok hexpect, bind_of_error h]

/-- At the end of the list there is no record, and nothing changes. -/
theorem readRecord_nil {state : HandleState} (h : state.mode = .reading .atRecordHeader) :
    readRecord ⟨([] : List UInt8), state⟩ = .error .eof ⟨[], state⟩ :=
  readRecord_of_header h (readRecordHeader_nil state)

/-! ### Skipping records and payloads -/

section Skipping

variable [ByteSource σ]

/-- Inside a payload the rest of it is skipped. -/
theorem payloadToSkip_of_atAddedData {handle : Archive σ}
    (hmode : handle.state.mode = .reading .atAddedData) :
    payloadToSkip handle = .ok handle.state.incoming.remaining handle := by
  rw [payloadToSkip, bind_of_ok (state_apply handle), hmode]
  rfl

/-- Between two records the next one is skipped with its data and its payload. -/
theorem payloadToSkip_of_atRecordHeader {handle : Archive σ}
    (hmode : handle.state.mode = .reading .atRecordHeader) :
    payloadToSkip handle = (do
      let header ← readRecordHeader
      onStream (discard header.dataLength)
      pure header.addedSize.toNat : Call σ Nat) handle := by
  rw [payloadToSkip, bind_of_ok (state_apply handle), hmode]

/-- Elsewhere skipping is out of order. -/
theorem payloadToSkip_of_other {handle : Archive σ}
    (hheader : handle.state.mode ≠ .reading .atRecordHeader)
    (hpayload : handle.state.mode ≠ .reading .atAddedData) :
    payloadToSkip handle = .error (.invalidState "skip_record") handle := by
  rw [payloadToSkip, bind_of_ok (state_apply handle)]
  rcases hmode : handle.state.mode with _ | (_ | _ | _ | _) | _
  case reading.atRecordHeader => exact absurd hmode hheader
  case reading.atAddedData => exact absurd hmode hpayload
  all_goals rfl

/-- What is wrong with the header of the next record is found also when that is skipped. -/
theorem skipRecord_of_header {handle final : Archive σ} {error : ArchiveError}
    (hmode : handle.state.mode = .reading .atRecordHeader)
    (h : readRecordHeader handle = .error error final) : skipRecord handle = .error error final := by
  have hpayload : payloadToSkip handle = .error error final := by
    rw [payloadToSkip_of_atRecordHeader hmode]
    exact bind_of_error h
  exact bind_of_error hpayload

end Skipping

/-- At the end of the list there is no record to skip, and nothing changes. -/
theorem skipRecord_nil {state : HandleState} (h : state.mode = .reading .atRecordHeader) :
    skipRecord ⟨([] : List UInt8), state⟩ = .error .eof ⟨[], state⟩ :=
  skipRecord_of_header h (readRecordHeader_nil state)

/-- To skip a record its header is taken, and its data are discarded. -/
theorem payloadToSkip_eq_ok_of_atRecordHeader {bytes : List UInt8} {state : HandleState}
    (hmode : state.mode = .reading .atRecordHeader) {length : Nat}
    {final : Archive (List UInt8)} : payloadToSkip ⟨bytes, state⟩ = .ok length final ↔
      ∃ (record : Record) (rest : List UInt8), record.IsNormal ∧
        length = record.addedSize.toNat ∧ bytes = record.toBytes ++ rest ∧
        final = ⟨rest, state.stranded⟩ := by
  rw [payloadToSkip_of_atRecordHeader hmode]
  simp only [bind_eq_ok]
  constructor
  · -- the record to skip is the header that was read, with the data that was discarded
    rintro ⟨header, _, hheader, _, _, hdata, hpure⟩
    obtain ⟨hnormal, -, _, rfl, rfl⟩ := readRecordHeader_eq_ok.mp hheader
    obtain ⟨rest, hrun, rfl⟩ := onStream_eq_ok.mp hdata
    obtain ⟨data, hlength, rfl⟩ := discard_eq_ok.mp hrun
    obtain ⟨rfl, rfl⟩ := pure_eq_ok.mp hpure
    exact ⟨{ header with data }, rest, hnormal.isNormal hlength, rfl,
      (List.append_assoc _ _ _).symm, rfl⟩
  · rintro ⟨record, rest, hnormal, rfl, rfl, rfl⟩
    exact ⟨{ record with data := [] }, _, readRecordHeader_eq_ok.mpr
        ⟨hnormal.isNormalHeader, rfl, record.data ++ rest, List.append_assoc _ _ _, rfl⟩, (), _,
      onStream_eq_ok.mpr ⟨rest, discard_eq_ok.mpr ⟨record.data, hnormal.dataLength.symm, rfl⟩, rfl⟩,
      pure_eq_ok.mpr ⟨rfl, rfl⟩⟩

/-- A record is skipped with its payload if the list starts with the bytes of both. -/
theorem skipRecord_eq_ok_of_atRecordHeader {bytes : List UInt8} {state : HandleState}
    (hmode : state.mode = .reading .atRecordHeader) {value : Unit}
    {final : Archive (List UInt8)} : skipRecord ⟨bytes, state⟩ = .ok value final ↔
      ∃ (record : Record) (payload rest : List UInt8), record.IsNormal ∧
        payload.length = record.addedSize.toNat ∧ bytes = record.toBytes ++ payload ++ rest ∧
        final = ⟨rest, state.skipped⟩ := by
  simp only [skipRecord, bind_eq_ok]
  constructor
  · rintro ⟨_, _, hpayload, _, _, hskip, hfinal⟩
    obtain ⟨record, _, hnormal, rfl, rfl, rfl⟩ :=
      (payloadToSkip_eq_ok_of_atRecordHeader hmode).mp hpayload
    obtain ⟨rest, hrun, rfl⟩ := onStream_eq_ok.mp hskip
    obtain ⟨payload, hlength, rfl⟩ := discard_eq_ok.mp hrun
    cases hfinal
    exact ⟨record, payload, rest, hnormal, hlength, (List.append_assoc _ _ _).symm, rfl⟩
  · rintro ⟨record, payload, rest, hnormal, hlength, rfl, rfl⟩
    exact ⟨_, _, (payloadToSkip_eq_ok_of_atRecordHeader hmode).mpr
        ⟨record, payload ++ rest, hnormal, rfl, List.append_assoc _ _ _, rfl⟩, (), _,
      onStream_eq_ok.mpr ⟨rest, discard_eq_ok.mpr ⟨payload, hlength, rfl⟩, rfl⟩, rfl⟩

/-- Inside a payload the unread part of it is skipped. -/
theorem skipRecord_eq_ok_of_atAddedData {bytes : List UInt8} {state : HandleState}
    (hmode : state.mode = .reading .atAddedData) {value : Unit}
    {final : Archive (List UInt8)} : skipRecord ⟨bytes, state⟩ = .ok value final ↔
      ∃ payload rest, payload.length = state.incoming.remaining ∧ bytes = payload ++ rest ∧
        final = ⟨rest, state.skipped⟩ := by
  rw [skipRecord, bind_of_ok (payloadToSkip_of_atAddedData hmode), bind_eq_ok]
  constructor
  · rintro ⟨_, _, hskip, hfinal⟩
    obtain ⟨rest, hrun, rfl⟩ := onStream_eq_ok.mp hskip
    obtain ⟨payload, hpayload, rfl⟩ := discard_eq_ok.mp hrun
    cases hfinal
    exact ⟨payload, rest, hpayload, rfl, rfl⟩
  · rintro ⟨payload, rest, hpayload, rfl, rfl⟩
    exact ⟨(), _,
      onStream_eq_ok.mpr ⟨rest, discard_eq_ok.mpr ⟨payload, hpayload, rfl⟩, rfl⟩, rfl⟩

/-- A payload is left if it is intact. -/
theorem endAddedData_eq_ok {stream : σ} {state : HandleState} {final : Archive σ} :
    endAddedData ⟨stream, state⟩ = .ok () final ↔ state.incoming.IsIntact ∧
      final = ⟨stream, { state with mode := .reading .atRecordHeader }⟩ := by
  rw [endAddedData, bind_of_ok (setMode_apply _ stream state), bind_of_ok (state_apply _),
    IncomingPayload.IsIntact]
  cases state.incoming.declaredCrc? with
  | none =>
    rw [pure_eq_ok]
    constructor
    · rintro ⟨-, rfl⟩
      exact ⟨fun _ h => (Option.some_ne_none _ h.symm).elim, rfl⟩
    · rintro ⟨-, rfl⟩
      exact ⟨rfl, rfl⟩
  | some stored =>
    rw [require_eq_ok]
    constructor
    · rintro ⟨hstored, rfl⟩
      exact ⟨fun _ h => Option.some.inj h ▸ hstored, rfl⟩
    · rintro ⟨hstored, rfl⟩
      exact ⟨hstored stored rfl, rfl⟩

/-- A payload with another checksum than the declared one is left with the report of both. -/
theorem endAddedData_of_mismatch {stream : σ} {state : HandleState} {stored : UInt32}
    (hstored : state.incoming.declaredCrc? = some stored) (hne : stored ≠ state.incoming.crc) :
    endAddedData ⟨stream, state⟩ = .error
      (.invalidData (.payloadChecksum stored state.incoming.crc))
      ⟨stream, { state with mode := .reading .atRecordHeader }⟩ := by
  rw [endAddedData, bind_of_ok (setMode_apply _ stream state), bind_of_ok (state_apply _)]
  simp only [hstored]
  exact require_of_not hne _ _

/-- The number of bytes that one call takes from a payload. -/
def transferLength (count : Nat) (payload : IncomingPayload) : Nat :=
  min (min count payload.remaining) maxTransfer

/-- Nothing is taken from a payload if there is nothing left or nothing is asked for. -/
theorem transferLength_eq_zero {count : Nat} {payload : IncomingPayload} :
    transferLength count payload = 0 ↔ count = 0 ∨ payload.remaining = 0 := by
  rw [transferLength, maxTransfer]
  omega

/-- **A piece of payload is taken** if it is there and, when nothing is left behind it, the payload
is intact. -/
theorem readAddedData_eq_ok {count : Nat} {bytes taken : List UInt8} {state : HandleState}
    {final : Archive (List UInt8)} : readAddedData count ⟨bytes, state⟩ = .ok taken final ↔
      state.mode = .reading .atAddedData ∧ taken.length = transferLength count state.incoming ∧
        ((state.incoming.consume taken).remaining = 0 →
          (state.incoming.consume taken).IsIntact) ∧
        ∃ rest, bytes = taken ++ rest ∧ final = ⟨rest, state.taken taken⟩ := by
  simp only [readAddedData, bind_eq_ok, expectReader_eq_ok]
  constructor
  · rintro ⟨_, _, ⟨hmode, rfl⟩, _, _, hstate, h⟩
    cases hstate
    refine ⟨hmode, ?_⟩
    by_cases hzero : state.incoming.remaining = 0
    · -- Nothing was left to take, and the payload is only left.
      rw [if_pos hzero, bind_eq_ok] at h
      obtain ⟨_, _, hend, hpure⟩ := h
      obtain ⟨hintact, rfl⟩ := endAddedData_eq_ok.mp hend
      obtain ⟨rfl, rfl⟩ := pure_eq_ok.mp hpure
      refine ⟨(transferLength_eq_zero.mpr (.inr hzero)).symm, ?_, bytes, rfl, ?_⟩
      · rw [IncomingPayload.consume_nil]
        exact fun _ => hintact
      · rw [HandleState.taken, IncomingPayload.consume_nil, if_pos hzero]
    · -- A piece was taken, and the payload is left if it was the last one.
      rw [if_neg hzero, bind_eq_ok] at h
      obtain ⟨piece, _, hpiece, h⟩ := h
      obtain ⟨rest, hrun, rfl⟩ := onStream_eq_ok.mp hpiece
      obtain ⟨hlength, rfl⟩ := readExactly_eq_ok.mp hrun
      rw [bind_of_ok (update_apply _ rest state)] at h
      by_cases hlast : (state.incoming.consume piece).remaining = 0
      · rw [if_pos hlast, bind_eq_ok] at h
        obtain ⟨_, _, hend, hpure⟩ := h
        obtain ⟨hintact, rfl⟩ := endAddedData_eq_ok.mp hend
        obtain ⟨rfl, rfl⟩ := pure_eq_ok.mp hpure
        refine ⟨hlength, fun _ => hintact, rest, rfl, ?_⟩
        rw [HandleState.taken, if_pos hlast]
      · rw [if_neg hlast] at h
        obtain ⟨rfl, rfl⟩ := pure_eq_ok.mp h
        refine ⟨hlength, fun h => absurd h hlast, rest, rfl, ?_⟩
        rw [HandleState.taken, if_neg hlast, ← hmode]
  · rintro ⟨hmode, hlength, hintact, rest, rfl, rfl⟩
    refine ⟨(), _, ⟨hmode, rfl⟩, state, _, rfl, ?_⟩
    -- the same three outcomes, now with the checksum known to be right where it is compared
    by_cases hzero : state.incoming.remaining = 0
    · obtain rfl : taken = [] := List.length_eq_zero_iff.mp
        (hlength.trans (transferLength_eq_zero.mpr (.inr hzero)))
      rw [IncomingPayload.consume_nil] at hintact
      have hend : endAddedData ⟨rest, state⟩
          = .ok () ⟨rest, { state with mode := .reading .atRecordHeader }⟩ :=
        endAddedData_eq_ok.mpr ⟨hintact hzero, rfl⟩
      rw [HandleState.taken, IncomingPayload.consume_nil, if_pos hzero, if_pos hzero]
      exact (bind_of_ok hend).trans rfl
    · have hpiece : onStream (readExactly .inside (transferLength count state.incoming))
          ⟨taken ++ rest, state⟩ = .ok taken ⟨rest, state⟩ :=
        onStream_eq_ok.mpr ⟨rest, readExactly_eq_ok.mpr ⟨hlength, rfl⟩, rfl⟩
      rw [if_neg hzero]
      refine bind_eq_ok.mpr ⟨taken, _, hpiece, ?_⟩
      rw [bind_of_ok (update_apply _ rest state)]
      by_cases hlast : (state.incoming.consume taken).remaining = 0
      · rw [if_pos hlast, HandleState.taken, if_pos hlast]
        exact (bind_of_ok (endAddedData_eq_ok.mpr ⟨hintact hlast, rfl⟩)).trans rfl
      · rw [if_neg hlast, HandleState.taken, if_neg hlast, ← hmode]
        rfl

/-- **The mismatch is reported with the last byte** of a payload, which the handle has then left. -/
theorem readAddedData_of_mismatch {count : Nat} {bytes rest : List UInt8} {state : HandleState}
    (hmode : state.mode = .reading .atAddedData)
    (hlength : bytes.length = transferLength count state.incoming)
    (hlast : (state.incoming.consume bytes).remaining = 0) {stored : UInt32}
    (hstored : state.incoming.declaredCrc? = some stored)
    (hne : stored ≠ (state.incoming.consume bytes).crc) :
    readAddedData count ⟨bytes ++ rest, state⟩ = .error
      (.invalidData (.payloadChecksum stored (state.incoming.consume bytes).crc))
      ⟨rest, state.taken bytes⟩ := by
  have hexpect : expectReader .atAddedData "read_added_data" ⟨bytes ++ rest, state⟩
      = .ok () ⟨bytes ++ rest, state⟩ := expectReader_eq_ok.mpr ⟨hmode, rfl⟩
  rw [readAddedData, bind_of_ok hexpect, bind_of_ok (state_apply _), HandleState.taken, if_pos hlast]
  by_cases hzero : state.incoming.remaining = 0
  · obtain rfl : bytes = [] := List.length_eq_zero_iff.mp
      (hlength.trans (transferLength_eq_zero.mpr (.inr hzero)))
    rw [IncomingPayload.consume_nil] at hne ⊢
    rw [if_pos hzero]
    exact bind_of_error (endAddedData_of_mismatch hstored hne)
  · have hpiece : onStream (readExactly .inside (transferLength count state.incoming))
        ⟨bytes ++ rest, state⟩ = .ok bytes ⟨rest, state⟩ :=
      onStream_eq_ok.mpr ⟨rest, readExactly_eq_ok.mpr ⟨hlength, rfl⟩, rfl⟩
    rw [if_neg hzero]
    refine (bind_of_ok hpiece).trans ?_
    rw [bind_of_ok (update_apply _ rest state), if_pos hlast]
    exact bind_of_error (endAddedData_of_mismatch hstored hne)

/-! ## Calls on streams that are read alike -/

section Simulations

variable {streams : σ → τ → Prop}

/-- The check is passed by both or by none. -/
theorem simulates_expectReader (place : ReaderState) (call : String) :
    Simulates (Related streams) (expectReader place call) (expectReader place call) :=
  simulates_state.bind fun _ => simulates_require _ _

/-- A payload ends alike. -/
theorem simulates_endAddedData : Simulates (Related streams) endAddedData endAddedData := by
  refine (simulates_setMode _).bind fun _ => simulates_state.bind fun state => ?_
  cases state.incoming.declaredCrc? with
  | none => exact .pure ()
  | some stored => exact simulates_require _ _

variable [ByteSource σ] [ByteSource τ]

/-- **The marker** is found alike on streams that are read alike. -/
theorem simulates_findMarker (h : ReadsAlike streams) :
    Simulates (Related streams) findMarker findMarker :=
  (simulates_expectReader _ _).bind fun _ => (simulates_onStream h.find).bind fun _ =>
    (simulates_setMode _).bind fun _ => .pure _

/-- A header is the same on streams that are read alike. -/
theorem simulates_readRecordHeader (h : ReadsAlike streams) :
    Simulates (Related streams) readRecordHeader readRecordHeader :=
  (simulates_onStream (h.readExactly _ _)).bind fun _ => (simulates_setMode _).bind fun _ =>
    (simulates_onStream (h.readExactly _ _)).bind fun _ =>
    (simulates_onStream (h.readExactly _ _)).bind fun _ => simulates_ofResult _

/-- **A record** is the same on streams that are read alike. -/
theorem simulates_readRecord (h : ReadsAlike streams) :
    Simulates (Related streams) readRecord readRecord :=
  (simulates_expectReader _ _).bind fun _ => (simulates_readRecordHeader h).bind fun _ =>
    (simulates_onStream (h.readExactly _ _)).bind fun _ => (simulates_update _).bind fun _ =>
    .pure _

/-- The payload to be skipped is the same on streams that are read alike. -/
theorem simulates_payloadToSkip (h : ReadsAlike streams) :
    Simulates (Related streams) payloadToSkip payloadToSkip := by
  refine simulates_state.bind fun state => ?_
  rcases state.mode with _ | (_ | _ | _ | _) | _
  case reading.atRecordHeader =>
    exact (simulates_readRecordHeader h).bind fun _ =>
      (simulates_onStream (h.discard _)).bind fun _ => .pure _
  case reading.atAddedData => exact .pure _
  all_goals exact .throw _

/-- **A record is skipped** alike on streams that are read alike. -/
theorem simulates_skipRecord (h : ReadsAlike streams) :
    Simulates (Related streams) skipRecord skipRecord :=
  (simulates_payloadToSkip h).bind fun _ => (simulates_onStream (h.discard _)).bind fun _ =>
    simulates_update _

/-- **Payload** is the same on streams that are read alike. -/
theorem simulates_readAddedData (h : ReadsAlike streams) (count : Nat) :
    Simulates (Related streams) (readAddedData count) (readAddedData count) :=
  (simulates_expectReader _ _).bind fun _ => simulates_state.bind fun _ =>
    .ite (simulates_endAddedData.bind fun _ => .pure _)
      ((simulates_onStream (h.readExactly _ _)).bind fun _ => (simulates_update _).bind fun _ =>
        .ite (simulates_endAddedData.bind fun _ => .pure _) (.pure _))

end Simulations

/-! ## From lists to streams -/

section Transfer

variable {α : Type} [ByteSource σ] {call : Call σ α} {call' : Call (List UInt8) α} {stream : σ}
  {bytes rest : List UInt8} {state state' : HandleState}

/-- A success on the list of the bytes is one on every stream that delivers them. -/
theorem exists_ok_of_yields (hcall : Simulates (Related Yields) call call')
    (hstream : Yields stream bytes) {value : α}
    (hrun : call' ⟨bytes, state⟩ = .ok value ⟨rest, state'⟩) :
    ∃ final, call ⟨stream, state⟩ = .ok value ⟨final, state'⟩ ∧ Yields final rest := by
  have hresult := hcall ⟨stream, state⟩ ⟨bytes, state⟩ ⟨hstream, rfl⟩
  rw [hrun] at hresult
  obtain ⟨⟨final, _⟩, hok, hfinal, rfl⟩ := hresult.exists_ok
  exact ⟨final, hok, hfinal⟩

/-- A success on a stream is one on the list of the bytes that it delivers. -/
theorem exists_ok_list_of_yields (hcall : Simulates (Related Yields) call call')
    (hstream : Yields stream bytes) {value : α} {final : Archive σ}
    (hrun : call ⟨stream, state⟩ = .ok value final) :
    ∃ rest, call' ⟨bytes, state⟩ = .ok value ⟨rest, final.state⟩ ∧ Yields final.stream rest := by
  have hresult := hcall ⟨stream, state⟩ ⟨bytes, state⟩ ⟨hstream, rfl⟩
  rw [hrun] at hresult
  obtain ⟨⟨rest, _⟩, hok, hrest, rfl⟩ := hresult.exists_ok_right
  exact ⟨rest, hok, hrest⟩

/-- A failure on the list of the bytes is one on every stream that delivers them. -/
theorem exists_error_of_yields (hcall : Simulates (Related Yields) call call')
    (hstream : Yields stream bytes) {error : ArchiveError}
    (hrun : call' ⟨bytes, state⟩ = .error error ⟨rest, state'⟩) :
    ∃ final, call ⟨stream, state⟩ = .error error ⟨final, state'⟩ ∧ Yields final rest := by
  have hresult := hcall ⟨stream, state⟩ ⟨bytes, state⟩ ⟨hstream, rfl⟩
  rw [hrun] at hresult
  obtain ⟨⟨final, _⟩, herror, hfinal, rfl⟩ := hresult.exists_error
  exact ⟨final, herror, hfinal⟩

end Transfer

end Archive

end RecordArchive
