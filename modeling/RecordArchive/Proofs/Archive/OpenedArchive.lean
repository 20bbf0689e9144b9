import RecordArchive.Proofs.Archive.FrontRecord
import RecordArchive.Proofs.Archive.Occurrences
import RecordArchive.Proofs.Archive.ReadingEffects

/-! # Which archives are opened

`Archive.Opens input header place record` says of the bytes alone that they hold an archive that can
be opened: where the leftmost marker ends there is the undamaged record of an archive header with a
version that is supported, and all of its payload.

* `Archive.findMarker_eq_ok`, `ArchiveHeader.ofRecord_eq_ok`, `Archive.leavePayload_behind_eq_ok`:
  what each step towards that accepts.
* `Archive.refusesEntries_of_validatingFormat`: an archive that was not opened has no entries.
* `Archive.readArchiveHeader_opens`: **just these archives are opened**, on every infallible stream,
  and what is not opened stays closed. -/

namespace RecordArchive

open Program Call

variable {σ : Type}

/-! ## The steps -/

/-- **The header in a record** that was read: an undamaged one of the right kind with two bytes of
data, whatever follows them. -/
theorem ArchiveHeader.ofRecord_eq_ok {record : Record} (hnormal : record.IsNormal)
    {header : ArchiveHeader} : ofRecord record = .ok header ↔
      record.isValid = true ∧ record.kind = .archiveHeader ∧ 2 ≤ record.data.length ∧
        header.version.toNat = LittleEndian.decode (record.data.take 2) := by
  have hsix : 6 ≤ record.headerLength := RecordFlags.fixedHeaderLength_le_headerLength _
  have hlayout : record.size.toNat = record.headerLength + record.data.length := hnormal.size
  rw [ofRecord]
  by_cases hvalid : record.isValid = true
  case neg => simp [hvalid]
  by_cases hkind : record.kind = .archiveHeader
  case neg => simp [hvalid, hkind]
  rw [if_neg (by rw [hvalid]; decide), if_neg (not_not_intro hkind)]
  rcases hdata : record.data with _ | ⟨low, _ | ⟨high, more⟩⟩
  case cons.cons =>
    -- With two bytes of data the record is long enough.
    have hsize : ¬ record.size < minimalSize := by
      rw [UInt16.lt_iff_toNat_lt, hlayout, hdata, List.length_cons, List.length_cons]
      show ¬ _ < 8
      omega
    have hlt : LittleEndian.decode [low, high] < 65536 := LittleEndian.decode_lt [low, high]
    have htwo : (low :: high :: more).take 2 = [low, high] := rfl
    rw [if_neg hsize, htwo, Except.ok.injEq]
    constructor
    · rintro rfl
      exact ⟨hvalid, hkind, Nat.le_add_left _ _, UInt16.toNat_ofNat_of_lt hlt⟩
    · rintro ⟨-, -, -, hversion⟩
      rw [← hversion, UInt16.ofNat_toNat]
  all_goals
    constructor
    · intro h
      split at h <;> cases h
    · rintro ⟨-, -, htwo, -⟩
      simp at htwo

namespace Archive

/-- **The leftmost marker** is the one that a reader finds. -/
theorem findMarker_eq_ok {input : List UInt8} {state : HandleState} {place : Nat}
    {final : Archive (List UInt8)} : findMarker ⟨input, state⟩ = .ok place final ↔
      state.mode = .reading .atMarker ∧ IsLeast {place | Marker.EndsAt input place} place ∧
        final = ⟨input.drop place, { state with mode := .reading .atRecordHeader }⟩ := by
  constructor
  · intro h
    obtain ⟨_, _, hexpect, -⟩ := bind_eq_ok.mp h
    obtain ⟨hmode, -⟩ := expectReader_eq_ok.mp hexpect
    by_cases hinfix : Marker.bytes <:+: input
    · obtain ⟨least, hleast⟩ := Marker.exists_isLeast hinfix
      rw [findMarker_of_ok hmode (Marker.find_of_isLeast hleast)] at h
      cases h
      exact ⟨hmode, hleast, rfl⟩
    · rw [findMarker_of_error hmode (Marker.find_of_not_isInfix hinfix)] at h
      cases h
  · rintro ⟨hmode, hleast, rfl⟩
    exact findMarker_of_ok hmode (Marker.find_of_isLeast hleast)

/-- The record that a reader takes is the one that the decoder finds. -/
theorem readRecord_eq_ok_decode {bytes : List UInt8} {state : HandleState} {record : Record}
    {final : Archive (List UInt8)} : readRecord ⟨bytes, state⟩ = .ok record final ↔
      state.mode = .reading .atRecordHeader ∧ Record.decode bytes = .ok record ∧
        final = ⟨bytes.drop record.size.toNat, state.behind record⟩ := by
  constructor
  · intro h
    obtain ⟨hmode, hnormal, rest, hbytes, -⟩ := readRecord_eq_ok.mp h
    have hdecode := Record.decode_eq_ok.mpr ⟨hnormal, rest, hbytes⟩
    rw [readRecord_of_decode hmode hdecode] at h
    cases h
    exact ⟨hmode, hdecode, rfl⟩
  · rintro ⟨hmode, hdecode, rfl⟩
    exact readRecord_of_decode hmode hdecode

/-- Behind a record its payload is left if all of it is there, none at all being one that always
is. -/
theorem leavePayload_behind_eq_ok {bytes : List UInt8} {state : HandleState} {record : Record}
    (hnormal : record.IsNormal) {final : Archive (List UInt8)} :
    leavePayload ⟨bytes, state.behind record⟩ = .ok () final ↔
      record.addedSize.toNat ≤ bytes.length ∧
        final = ⟨bytes.drop record.addedSize.toNat, state.skipped⟩ := by
  rw [leavePayload, bind_of_ok (state_apply _), HandleState.mode_behind]
  by_cases hsize : record.hasAddedSize = true
  · have hremaining := IncomingPayload.remaining_ofRecord hsize
    have hmode : (state.behind record).mode = .reading .atAddedData := by
      rw [HandleState.mode_behind, if_pos hsize]
    rw [if_pos hsize, if_pos rfl, skipRecord_eq_ok_of_atAddedData hmode]
    constructor
    · rintro ⟨payload, rest, hlength, rfl, rfl⟩
      have hpayload : payload.length = record.addedSize.toNat := hlength.trans hremaining
      rw [← hpayload, List.drop_left]
      exact ⟨(List.prefix_append _ _).length_le, rfl⟩
    · rintro ⟨hle, rfl⟩
      exact ⟨bytes.take record.addedSize.toNat, bytes.drop record.addedSize.toNat,
        (List.length_take_of_le hle).trans hremaining.symm, (List.take_append_drop _ _).symm, rfl⟩
  · -- Nothing was announced, and the handle stands between two records already.
    have hzero : record.addedSize.toNat = 0 := by
      rw [hnormal.addedSize_eq_zero (Bool.not_eq_true _ ▸ hsize)]
      rfl
    have hsame : state.behind record = state.skipped := by
      rw [HandleState.behind, IncomingPayload.ofRecord, if_neg hsize, if_neg hsize]
      rfl
    rw [if_neg hsize, if_neg (by decide), pure_eq_ok, hzero, List.drop_zero, hsame]
    constructor
    · rintro ⟨-, rfl⟩
      exact ⟨Nat.zero_le _, rfl⟩
    · rintro ⟨-, rfl⟩
      exact ⟨rfl, rfl⟩

/-! ## The archive as a whole -/

/-- **An archive that can be opened.** The leftmost marker ends at a place of the bytes, behind it
there is a record, and that is the undamaged one of a header with a supported version. The payload
that the record announces, if it does, is there. -/
structure Opens (input : List UInt8) (header : ArchiveHeader) (place : Nat) (record : Record) :
    Prop where
  leftmost : IsLeast {place | Marker.EndsAt input place} place
  decode : Record.decode (input.drop place) = .ok record
  valid : record.isValid = true
  kind : record.kind = .archiveHeader
  data : 2 ≤ record.data.length
  version : header.version.toNat = LittleEndian.decode (record.data.take 2)
  supported : header.version ≤ ArchiveHeader.supportedVersion
  payload : place + record.size.toNat + record.addedSize.toNat ≤ input.length

/-- The state of a handle that has opened an archive. -/
def opened (state : HandleState) : HandleState := { state.skipped with unpacker := .fileHeader }

/-- **The archive header is read** in front of the marker just of an archive that can be opened. -/
theorem readArchiveHeader_eq_ok {input : List UInt8} {state : HandleState}
    (hmode : state.mode = .reading .atMarker) (hunpacker : state.unpacker = .validatingFormat)
    {header : ArchiveHeader} {final : Archive (List UInt8)} :
    readArchiveHeader ⟨input, state⟩ = .ok header final ↔ ∃ place record,
      Opens input header place record ∧
      final = ⟨input.drop (place + record.size.toNat + record.addedSize.toNat), opened state⟩ := by
  have hexpect : expectReading "read_archive_header" ⟨input, state⟩ = .ok () ⟨input, state⟩ :=
    expectReading_eq_ok.mpr ⟨⟨_, hmode⟩, rfl⟩
  rw [readArchiveHeader, bind_of_ok hexpect, bind_of_ok (state_apply _),
    bind_of_ok (require_of hunpacker _ _), if_pos hmode]
  simp only [bind_eq_ok]
  constructor
  · rintro ⟨place, _, hmarker, record, _, hread, found, _, hheader, _, _, hleave, _, _, hsupported,
      _, _, hupdate, hpure⟩
    obtain ⟨-, hleast, rfl⟩ := findMarker_eq_ok.mp hmarker
    obtain ⟨-, hdecode, rfl⟩ := readRecord_eq_ok_decode.mp hread
    have hnormal := (Record.decode_eq_ok.mp hdecode).1
    obtain ⟨hfound, rfl⟩ := ofResult_eq_ok.mp hheader
    obtain ⟨hvalid, hkind, hdata, hversion⟩ := (ArchiveHeader.ofRecord_eq_ok hnormal).mp hfound
    obtain ⟨hpayload, rfl⟩ := (leavePayload_behind_eq_ok hnormal).mp hleave
    obtain ⟨hle, rfl⟩ := require_eq_ok.mp hsupported
    cases hupdate
    obtain ⟨rfl, rfl⟩ := pure_eq_ok.mp hpure
    have hsize := Record.size_le_of_decode hdecode
    have hplace := hleast.1.1
    refine ⟨place, record, ⟨hleast, hdecode, hvalid, hkind, hdata, hversion, hle, ?_⟩, ?_⟩
    · rw [List.length_drop, List.length_drop] at hpayload
      rw [List.length_drop] at hsize
      omega
    · rw [List.drop_drop, List.drop_drop, Nat.add_assoc]
      rfl
  · rintro ⟨place, record, h, rfl⟩
    have hnormal := (Record.decode_eq_ok.mp h.decode).1
    have hpayload := h.payload
    refine ⟨place, _, findMarker_eq_ok.mpr ⟨hmode, h.leftmost, rfl⟩, record, _,
      readRecord_eq_ok_decode.mpr ⟨rfl, h.decode, rfl⟩, header, _,
      ofResult_eq_ok.mpr ⟨(ArchiveHeader.ofRecord_eq_ok hnormal).mpr
        ⟨h.valid, h.kind, h.data, h.version⟩, rfl⟩, (), _,
      (leavePayload_behind_eq_ok hnormal).mpr ⟨?_, rfl⟩, (), _,
      require_eq_ok.mpr ⟨h.supported, rfl⟩, (), _, rfl, pure_eq_ok.mpr ⟨rfl, ?_⟩⟩
    · rw [List.length_drop, List.length_drop]
      omega
    · rw [List.drop_drop, List.drop_drop, Nat.add_assoc]
      rfl

/-! ## Archives that were not opened -/

/-- **The calls on entries are refused**: they are out of order, and neither the handle nor the sink of
the caller changes. -/
structure RefusesEntries [ByteSource σ] (handle : Archive σ) : Prop where
  currentFileInfo :
    currentFileInfo handle = .error (.invalidState "get_current_file_info") handle
  readFileData (count : Nat) :
    readFileData count handle = .error (.invalidState "read_file_data") handle
  skipFile : skipFile handle = .error (.invalidState "skip_file") handle
  extract {τ : Type} [ByteSink τ] (sink : CopySink τ) :
    extract (sink, handle) = .error (.invalidState "extract") (sink, handle)

/-- Whether or not the handle is reading, a call that is out of order anyway is refused. -/
theorem refused_of_reading {α : Type} {call : String} {next : Call σ α} {handle : Archive σ}
    (h : next handle = .error (.invalidState call) handle) :
    (expectReading call >>= fun _ => next) handle = .error (.invalidState call) handle := by
  have hexpect : expectReading call handle = .ok () handle ∨
      expectReading call handle = .error (.invalidState call) handle := by
    rw [expectReading, bind_of_ok (state_apply handle)]
    cases handle.state.mode with
    | reading place => exact .inl rfl
    | idle => exact .inr rfl
    | writing place => exact .inr rfl
  rcases hexpect with hok | herror
  · rw [bind_of_ok hok, h]
  · exact bind_of_error herror

/-- **An archive that was not opened** has no entries. -/
theorem refusesEntries_of_validatingFormat [ByteSource σ] {handle : Archive σ}
    (h : handle.state.unpacker = .validatingFormat) : RefusesEntries handle where
  currentFileInfo := by
    refine refused_of_reading ?_
    rw [bind_of_ok (state_apply handle), h]
    rfl
  readFileData count := by
    refine refused_of_reading ?_
    rw [bind_of_ok (state_apply handle), h]
    rfl
  skipFile := by
    refine refused_of_reading (bind_of_error ?_)
    rw [beginSkip, bind_of_ok (state_apply handle), h]
    rfl
  extract sink := by
    have hbegin : beginExtract handle = .error (.invalidState "extract") handle := by
      refine refused_of_reading ?_
      rw [bind_of_ok (state_apply handle), h]
      rfl
    refine bind_of_error ?_
    rw [lift_apply, hbegin]

/-- **Just the archives that can be opened are opened**, whatever pieces a stream gives their bytes in.

An archive is opened with the version that its header gives. The reader is then between two records,
right behind the header and its payload, and in front of the first entry. Any other bytes are refused;
the archive header is still to come, so that every call on an entry is out of order. -/
theorem readArchiveHeader_opens [ByteSource σ] {stream : σ} {input : List UInt8}
    (hstream : Yields stream input) :
    (∀ header, (∃ final, readArchiveHeader (reader stream) = .ok header final) ↔
      ∃ place record, Opens input header place record) ∧
    (∀ header place record, Opens input header place record → ∃ final,
      readArchiveHeader (reader stream) = .ok header final ∧
      Yields final.stream (input.drop (place + record.size.toNat + record.addedSize.toNat)) ∧
      final.state.mode = .reading .atRecordHeader ∧ final.state.unpacker = .fileHeader) ∧
    ((¬ ∃ header place record, Opens input header place record) → ∃ error final,
      readArchiveHeader (reader stream) = .error error final ∧
      final.state.unpacker = .validatingFormat ∧ RefusesEntries final) := by
  have hcall : Simulates (Related (Yields : σ → List UInt8 → Prop)) readArchiveHeader
    readArchiveHeader := simulates_readArchiveHeader Yields.isDelivery.readsAlike
  have hopen {header : ArchiveHeader} {final : Archive (List UInt8)} :
      readArchiveHeader ⟨input, (reader stream).state⟩ = .ok header final ↔ ∃ place record,
        Opens input header place record ∧
        final = ⟨input.drop (place + record.size.toNat + record.addedSize.toNat),
          opened (reader stream).state⟩ := readArchiveHeader_eq_ok rfl rfl
  have hfound {header : ArchiveHeader} {final : Archive σ}
      (hrun : readArchiveHeader (reader stream) = .ok header final) :
      ∃ place record, Opens input header place record := by
    obtain ⟨rest, hlist, -⟩ := exists_ok_list_of_yields hcall hstream hrun
    obtain ⟨place, record, hopens, -⟩ := hopen.mp hlist
    exact ⟨place, record, hopens⟩
  have hopens {header : ArchiveHeader} {place : Nat} {record : Record}
      (h : Opens input header place record) : ∃ final,
      readArchiveHeader (reader stream) = .ok header final ∧
      Yields final.stream (input.drop (place + record.size.toNat + record.addedSize.toNat)) ∧
      final.state.mode = .reading .atRecordHeader ∧ final.state.unpacker = .fileHeader := by
    obtain ⟨final, hrun, hfinal⟩ :=
      exists_ok_of_yields hcall hstream (hopen.mpr ⟨place, record, h, rfl⟩)
    exact ⟨_, hrun, hfinal, rfl, rfl⟩
  refine ⟨fun header => ⟨?_, ?_⟩, fun header place record => hopens, fun hnone => ?_⟩
  · rintro ⟨final, hrun⟩
    exact hfound hrun
  · rintro ⟨place, record, h⟩
    obtain ⟨final, hrun, -⟩ := hopens h
    exact ⟨final, hrun⟩
  · cases hrun : readArchiveHeader (reader stream) with
    | ok header final => exact absurd ⟨header, hfound hrun⟩ hnone
    | error error final =>
      have hclosed : final.state.unpacker = .validatingFormat := by
        rcases (unpacker_readArchiveHeader (reader stream)).of_error hrun with rfl | hwaits
        · rfl
        · exact hwaits
      exact ⟨error, final, rfl, hclosed, refusesEntries_of_validatingFormat hclosed⟩

/-- The record of an archive header with more data than the version and with a payload. -/
def extendedHeader : Record :=
  ({ kind := .archiveHeader, flags := 0x80, addedSize := 2, data := [1, 0, 7] } : Record).fixed

/-- An archive behind the beginning of a marker, with bytes behind its header. -/
def extendedArchive : List UInt8 :=
  [0x4B, 0x43] ++ Marker.bytes ++ extendedHeader.toBytes ++ [4, 5] ++ [6]

/-- What comes in front of the marker and behind the version is skipped, and so is the payload. -/
theorem readArchiveHeader_opens_extended : ∃ final,
    readArchiveHeader (reader (MemoryStream.ofList extendedArchive)) = .ok ⟨1⟩ final ∧
      Yields final.stream [6] ∧ final.state.mode = .reading .atRecordHeader ∧
      final.state.unpacker = .fileHeader := by
  have hnormal : extendedHeader.IsNormal := ⟨by decide, by decide, by decide, by decide⟩
  have hsize : extendedHeader.size.toNat = 13 := by decide
  have hlength : extendedHeader.toBytes.length = 13 := by decide
  have hends : Marker.ends extendedArchive = [8] := by decide +kernel
  have hopens : Opens extendedArchive ⟨1⟩ 8 extendedHeader :=
    { leftmost := (Marker.ends_drop hends).1
      decode := Record.decode_eq_ok.mpr ⟨hnormal, [4, 5] ++ [6], by rfl⟩
      valid := Record.isValid_fixed _
      kind := rfl
      data := by decide
      version := by decide
      supported := by decide
      payload := by rw [hsize]; decide }
  have hdrop : extendedArchive.drop (8 + 13 + 2) = [6] := by rfl
  obtain ⟨-, hopened, -⟩ :=
    readArchiveHeader_opens (MemoryStream.yields (MemoryStream.ofList extendedArchive))
  obtain ⟨final, hrun, hrest, hmode, hunpacker⟩ := hopened ⟨1⟩ 8 extendedHeader hopens
  rw [hsize] at hrest
  exact ⟨final, hrun, hdrop ▸ hrest, hmode, hunpacker⟩

end Archive

end RecordArchive
