import RecordArchive.Proofs.Archive.Packer
import RecordArchive.Proofs.Archive.Pieces
import RecordArchive.Proofs.Archive.Representation

/-! # Where an entry can start

An entry starts where a record can: between two records, or in a payload, which is sealed first. Here
it is said for handles of any history on a stream in memory when the calls that start an entry succeed,
and what they leave.

* `Archive.CanPack`: where an entry can start.
* `Archive.beginFile_eq_ok_iff`: its content is opened.
* `Archive.addFile_eq_ok_iff`: it is written as a whole. -/

namespace RecordArchive

open Program Call

variable {info : EntryInfo} {content : List UInt8} {record : Record}
  {handle final : Archive MemoryStream}

namespace Archive

/-- **Where an entry can start**: the packing stands between two entries, name and file header fit, and
the payload in front, if there is one, can be sealed, which leaves `memory`. -/
structure CanPack (info : EntryInfo) (handle : Archive MemoryStream) (memory : MemoryStream) :
    Prop where
  packer : handle.state.packer ∈ [PackerState.idle, .fileHeader]
  name : (Text.Utf8.bytesOf info.name).length ≤ 65535
  header : info.header.Fits
  ready : readyForRecord "write_record" handle
    = .ok () ⟨memory, handle.state.writingAt .atRecord⟩

/-- Where one call can start a record, every call can. -/
theorem readyForRecord_of_ok {name : String} {middle : Archive MemoryStream}
    (h : readyForRecord name handle = .ok () middle) (name' : String) :
    readyForRecord name' handle
      = .ok () ⟨middle.stream, handle.state.writingAt .atRecord⟩ := by
  obtain ⟨hready, hstate, -⟩ := (effect_readyForRecord name handle).of_ok h
  rw [← readyForRecord_of_isReady hready name, h, ← hstate]

/-- A call that starts a record succeeds if one can start and the call succeeds from there. -/
theorem withValue_readyForRecord_eq_ok {name : String}
    (next : Unit → CallWith Record MemoryStream Unit) :
    CallWith.withValue record (Call.lift (readyForRecord name) >>= next) handle = .ok () final ↔
      ∃ memory, readyForRecord "write_record" handle
          = .ok () ⟨memory, handle.state.writingAt .atRecord⟩ ∧
        CallWith.withValue record (Call.lift (readyForRecord name) >>= next)
          ⟨memory, handle.state.writingAt .atRecord⟩ = .ok () final := by
  constructor
  · intro h
    cases hrun : readyForRecord name handle with
    | ok _ middle =>
      refine ⟨middle.stream, readyForRecord_of_ok hrun _, ?_⟩
      rwa [withValue_readyForRecord (readyForRecord_of_ok hrun name)] at h
    | error error middle => cases (withValue_readyForRecord_error hrun record next).symm.trans h
  · rintro ⟨memory, hready, h⟩
    rwa [withValue_readyForRecord (readyForRecord_of_ok hready name)]

/-- **A record is started** where one can start, if it fits. -/
theorem withValue_writeRecord_eq_ok (hsize : record.hasAddedSize = true) :
    CallWith.withValue record writeRecord handle = .ok () final ↔
      ∃ memory, readyForRecord "write_record" handle
          = .ok () ⟨memory, handle.state.writingAt .atRecord⟩ ∧
        record.Fits ∧ insidePayload memory [] ⟨record, []⟩ handle.state = final := by
  refine (withValue_readyForRecord_eq_ok _).trans
    (exists_congr fun memory => and_congr_right fun _ => ?_)
  show CallWith.withValue record writeRecord ⟨memory, handle.state.writingAt .atRecord⟩ = _ ↔ _
  rcases hfix : record.fix with error | fixed
  · rw [CallWith.withValue_of_error (writeRecord_of_error (readyForRecord_of_atRecord rfl _) hfix)]
    refine iff_of_false nofun fun h => ?_
    cases hfix.symm.trans (Record.fix_eq_ok.mpr ⟨h.1, rfl⟩)
  · have hfits := (Record.fix_eq_ok.mp hfix).1
    rw [writeRecord_atRecord rfl hfits hsize, EStateM.Result.ok.injEq]
    exact ⟨fun h => ⟨hfits, h.2⟩, fun h => ⟨rfl, h.2⟩⟩

/-- **A record is written with its payload** where one can start, if it fits. -/
theorem withValue_writeRecordWithAddedData_eq_ok (hlength : content.length < UInt64.size) :
    CallWith.withValue record (writeRecordWithAddedData content) handle = .ok () final ↔
      ∃ memory, readyForRecord "write_record" handle
          = .ok () ⟨memory, handle.state.writingAt .atRecord⟩ ∧
        (record.announcing content).Fits ∧
        ⟨memory.write (Draft.whole record content).segment.toBytes, handle.state.writingAt .atRecord⟩
          = final := by
  refine (withValue_readyForRecord_eq_ok _).trans
    (exists_congr fun memory => and_congr_right fun _ => ?_)
  show CallWith.withValue record (writeRecordWithAddedData content)
    ⟨memory, handle.state.writingAt .atRecord⟩ = _ ↔ _
  rcases hfix : (record.announcing content).fix with error | fixed
  · rw [CallWith.withValue_of_error
      (writeRecordWithAddedData_of_error (readyForRecord_of_atRecord rfl _) hfix)]
    refine iff_of_false nofun fun h => ?_
    cases hfix.symm.trans (Record.fix_eq_ok.mpr ⟨h.1, rfl⟩)
  · have hfits := (Record.fix_eq_ok.mp hfix).1
    rw [writeRecordWithAddedData_atRecord rfl hlength hfits, EStateM.Result.ok.injEq]
    exact ⟨fun h => ⟨hfits, h.2⟩, fun h => ⟨rfl, h.2⟩⟩

/-- An entry is started where one can start, if the checks in front succeed. -/
theorem expectPacker_toRecord_eq_ok {call : String}
    {next : Record → HandleState → Call MemoryStream Unit} {holds : MemoryStream → Prop}
    (hnext : next info.header.fixed handle.state handle = .ok () final ↔
      ∃ memory, readyForRecord "write_record" handle
        = .ok () ⟨memory, handle.state.writingAt .atRecord⟩ ∧ holds memory) :
    (do
      expectPacker [.idle, .fileHeader] call
      let header ← ofResult info.toRecord
      let state ← Call.state
      next header state : Call MemoryStream Unit) handle = .ok () final ↔
      ∃ memory, CanPack info handle memory ∧ holds memory := by
  rw [bind_eq_ok]
  constructor
  · rintro ⟨_, _, hexpect, h⟩
    obtain ⟨rfl, -, hpacker⟩ := (effect_expectPacker _ _ _).of_ok hexpect
    obtain ⟨header, _, hheader, h⟩ := bind_eq_ok.mp h
    obtain ⟨hrecord, rfl⟩ := ofResult_eq_ok.mp hheader
    obtain ⟨hname, hfits, rfl⟩ := EntryInfo.toRecord_eq_ok.mp hrecord
    rw [bind_of_ok (state_apply _)] at h
    obtain ⟨memory, hready, hholds⟩ := hnext.mp h
    exact ⟨memory, ⟨hpacker, hname, hfits, hready⟩, hholds⟩
  · rintro ⟨memory, ⟨hpacker, hname, hfits, hready⟩, hholds⟩
    obtain ⟨place, hmode⟩ := ((effect_readyForRecord _ handle).of_ok hready).1.exists_writing
    refine ⟨(), handle, (expectPacker_eq_ok hmode).mpr ⟨hpacker, rfl⟩,
      bind_eq_ok.mpr ⟨info.header.fixed, handle, ofResult_eq_ok.mpr
        ⟨EntryInfo.toRecord_eq_ok.mpr ⟨hname, hfits, rfl⟩, rfl⟩, ?_⟩⟩
    rw [bind_of_ok (state_apply _)]
    exact hnext.mpr ⟨memory, hready, hholds⟩

/-- **The content of an entry is opened** where an entry can start, if the record fits. -/
theorem beginFile_eq_ok_iff : beginFile info handle = .ok () final ↔
    ∃ memory, CanPack info handle memory ∧ (openingRecord handle.state.options info).Fits ∧
      insidePayload memory [] ⟨openingRecord handle.state.options info, []⟩
        { handle.state with currentFile? := some info, packer := .fileData } = final := by
  refine expectPacker_toRecord_eq_ok ?_
  rw [bind_eq_ok]
  have hsize := (openingRecord_spec handle.state.options info).2.2.2.1
  constructor
  · rintro ⟨_, _, hwrite, hupdate⟩
    obtain ⟨memory, hready, hfits, rfl⟩ := (withValue_writeRecord_eq_ok hsize).mp hwrite
    cases hupdate
    exact ⟨memory, hready, hfits, rfl⟩
  · rintro ⟨memory, hready, hfits, rfl⟩
    exact ⟨(), _, (withValue_writeRecord_eq_ok hsize).mpr ⟨memory, hready, hfits, rfl⟩, rfl⟩

/-- **A whole entry** is written where an entry can start, if the record fits. -/
theorem addFile_eq_ok_iff (hlength : content.length < UInt64.size) :
    addFile info content handle = .ok () final ↔
    ∃ memory, CanPack info handle memory ∧
      ((handle.state.options.requestCrc info.header.fixed).announcing content).Fits ∧
      ⟨memory.write
          (Draft.whole (handle.state.options.requestCrc info.header.fixed) content).segment.toBytes,
        { handle.state.writingAt .atRecord with packer := .fileHeader }⟩ = final := by
  refine expectPacker_toRecord_eq_ok ?_
  rw [bind_eq_ok]
  constructor
  · rintro ⟨_, _, hwrite, hupdate⟩
    obtain ⟨memory, hready, hfits, rfl⟩ :=
      (withValue_writeRecordWithAddedData_eq_ok hlength).mp hwrite
    cases hupdate
    exact ⟨memory, hready, hfits, rfl⟩
  · rintro ⟨memory, hready, hfits, rfl⟩
    exact ⟨(), _, (withValue_writeRecordWithAddedData_eq_ok hlength).mpr
      ⟨memory, hready, hfits, rfl⟩, rfl⟩

end Archive

end RecordArchive
