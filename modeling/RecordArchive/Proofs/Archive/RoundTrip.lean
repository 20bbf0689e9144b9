import RecordArchive.Proofs.Archive.Extraction
import RecordArchive.Proofs.Archive.Packer

/-! # What is packed is unpacked

Packing and unpacking meet in the records between them. `AreEntries entries segments` says that
records in a row are these entries. Whatever the ways in which entries are packed, they leave such
records (`Archive.areEntries_of_packEntries`); and from such records any reader gets the entries back
(`Archive.givesBack_of_areEntries`).

* `ArchiveHeader.ofRecord_record`, `Archive.readArchiveHeader_of_marker`: the header of an archive is
  read back, behind anything that holds no marker.
* `Archive.givesBack_of_packArchive`: an archive that was packed and closed is read back. -/

namespace RecordArchive

open Program Call

variable {ι ρ σ τ : Type}

/-! ## The archive header -/

namespace ArchiveHeader

/-- The record of a header before it is fixed. -/
def record (header : ArchiveHeader) : Record :=
  { kind := .archiveHeader, data := LittleEndian.word16 header.version }

/-- The record of a header is as long for every version. -/
theorem encodedLength_record (header : ArchiveHeader) : header.record.encodedLength = 8 := by
  have hlength : (LittleEndian.word16 header.version).length = 2 := LittleEndian.length_word16 _
  have hheader : RecordFlags.headerLength 0 = 6 := by decide
  rw [Record.encodedLength, Record.headerLength, record, hlength, hheader]

/-- Every archive header can be written. -/
theorem fits_record (header : ArchiveHeader) : header.record.Fits where
  addedSize := fun _ => Nat.zero_le _
  length := by
    rw [encodedLength_record]
    decide

/-- The record of an archive header is complete. -/
theorem toRecord_eq (header : ArchiveHeader) : header.toRecord = .ok header.record.fixed :=
  Record.fix_eq_ok.mpr ⟨header.fits_record, rfl⟩

/-- A header has no field that its flags leave out. -/
theorem isNormal_record (header : ArchiveHeader) : header.record.fixed.IsNormal where
  kind := rfl
  size := header.fits_record.size_fixed
  addedSize := Nat.zero_le _
  addedCrc := fun _ => rfl

/-- **A header is read back** from its record. -/
theorem ofRecord_record (header : ArchiveHeader) : ofRecord header.record.fixed = .ok header := by
  have hvalid := header.record.isValid_fixed
  have hsize : header.record.fixed.size = 8 := by
    show UInt16.ofNat header.record.encodedLength = 8
    rw [encodedLength_record]
    rfl
  have hversion : UInt16.ofNat (LittleEndian.decode (LittleEndian.word16 header.version))
      = header.version := by
    rw [LittleEndian.decode_word16]
  rw [ofRecord, hvalid, hsize]
  exact congrArg (fun version => Except.ok (⟨version⟩ : ArchiveHeader)) hversion

end ArchiveHeader

namespace Archive

/-- A record in front of the list is that of the archive header. -/
theorem readRecord_archiveHeader (header : ArchiveHeader) (rest : List UInt8) {state : HandleState}
    (hmode : state.mode = .reading .atRecordHeader) :
    readRecord ⟨header.record.fixed.toBytes ++ rest, state⟩
      = .ok header.record.fixed ⟨rest, state.behind header.record.fixed⟩ :=
  readRecord_eq_ok.mpr ⟨hmode, header.isNormal_record, rest, rfl, rfl⟩

/-- What a handle is left in behind the archive header that is written. -/
theorem readArchiveHeader_append {stub : List UInt8} (hstub : ¬ Marker.bytes <:+: stub)
    (rest : List UInt8) {state : HandleState} (hmode : state.mode = .reading .atMarker)
    (hunpacker : state.unpacker = .validatingFormat) :
    readArchiveHeader ⟨stub ++ Marker.bytes
        ++ (ArchiveHeader.current.record.fixed.toBytes ++ rest), state⟩
      = .ok ArchiveHeader.current
        ⟨rest, { state.behind ArchiveHeader.current.record.fixed with unpacker := .fileHeader }⟩ := by
  have hreading : expectReading "read_archive_header" ⟨stub ++ Marker.bytes
      ++ (ArchiveHeader.current.record.fixed.toBytes ++ rest), state⟩ = .ok () ⟨_, state⟩ :=
    expectReading_eq_ok.mpr ⟨⟨_, hmode⟩, rfl⟩
  have hfound : ArchiveHeader.ofRecord ArchiveHeader.current.record.fixed
      = .ok ArchiveHeader.current := ArchiveHeader.current.ofRecord_record
  have hrecord : readRecord ⟨ArchiveHeader.current.record.fixed.toBytes ++ rest,
        { state with mode := .reading .atRecordHeader }⟩
      = .ok ArchiveHeader.current.record.fixed
        ⟨rest, state.behind ArchiveHeader.current.record.fixed⟩ :=
    readRecord_archiveHeader ArchiveHeader.current rest rfl
  -- the record has no payload that would have to be left
  have hplace : (state.behind ArchiveHeader.current.record.fixed).mode = .reading .atRecordHeader := rfl
  have hleave : leavePayload (⟨rest, state.behind ArchiveHeader.current.record.fixed⟩ : Archive _)
      = .ok () ⟨rest, state.behind ArchiveHeader.current.record.fixed⟩ := by
    rw [leavePayload, bind_of_ok (state_apply _), if_neg (by rw [hplace]; decide)]
    rfl
  rw [readArchiveHeader, bind_of_ok hreading, bind_of_ok (state_apply _),
    bind_of_ok (require_of hunpacker _ _), if_pos hmode,
    bind_of_ok (findMarker_append hstub _ hmode)]
  refine (bind_of_ok hrecord).trans ?_
  rw [bind_of_ok (ofResult_eq_ok.mpr ⟨hfound, rfl⟩), bind_of_ok hleave,
    bind_of_ok (require_of (by decide) _ _)]
  rfl

/-- **The archive header is read** behind the marker, and what holds no marker is skipped. -/
theorem readArchiveHeader_of_marker {stub : List UInt8} (hstub : ¬ Marker.bytes <:+: stub)
    (rest : List UInt8) {state : HandleState} (hmode : state.mode = .reading .atMarker)
    (hunpacker : state.unpacker = .validatingFormat) : ∃ final,
      readArchiveHeader ⟨stub ++ Marker.bytes
          ++ (ArchiveHeader.current.record.fixed.toBytes ++ rest), state⟩
        = .ok ArchiveHeader.current ⟨rest, final⟩ ∧ final.IsBetweenEntries :=
  ⟨_, readArchiveHeader_append hstub rest hmode hunpacker, rfl, rfl⟩

/-- **The archive header is written** behind the marker. -/
theorem initArchive_ofStream (base : MemoryStream) (options : ArchiveOptions) :
    initArchive (Archive.ofStream base options) = .ok () (betweenRecords base
      (Marker.bytes ++ ArchiveHeader.current.record.fixed.toBytes)
      { options, packer := .fileHeader }) := by
  have hfresh : expectFresh "init_archive" (Archive.ofStream base options)
      = .ok () (Archive.ofStream base options) := rfl
  have hpacker (written : List UInt8) : setPacker .fileHeader (betweenRecords base written { options })
      = .ok () (betweenRecords base written { options, packer := .fileHeader }) := rfl
  have hheader : ofResult ArchiveHeader.current.toRecord (betweenRecords base Marker.bytes { options })
      = .ok ArchiveHeader.current.record.fixed (betweenRecords base Marker.bytes { options }) :=
    ofResult_eq_ok.mpr ⟨ArchiveHeader.current.toRecord_eq, rfl⟩
  -- the record that is given is fixed already, and it has no payload
  have hwrite := writeRecord_eq_ok.mpr ⟨ArchiveHeader.current.fits_record.fixed,
    (rfl : started base Marker.bytes ArchiveHeader.current.record.fixed { options } = _)⟩
  have habsent : ¬ ArchiveHeader.current.record.fixed.hasAddedSize = true := by decide
  rw [started, if_neg habsent, toBytes_segment_start habsent, Record.fixed_fixed] at hwrite
  rw [initArchive, bind_of_ok hfresh, bind_of_ok (startWriting_ofStream base options),
    bind_of_ok hheader, bind_of_ok hwrite, hpacker]

/-! ## Entries in a row -/

end Archive

/-- **Entries in a row**: records that are entries with this metadata and this content, in order. -/
inductive AreEntries : List (EntryInfo × List UInt8) → List Segment → Prop
  | nil : AreEntries [] []
  | cons {info : EntryInfo} {first : Segment} {later more : List Segment}
      {entries : List (EntryInfo × List UInt8)} (hentry : IsEntry info first later)
      (hmore : AreEntries entries more) :
      AreEntries ((info, contentOf (first :: later)) :: entries) (first :: later ++ more)

/-! ### Packing -/

/-- A request to pack an entry: its metadata, its content, and the way to pack it. -/
structure PackRequest (ι : Type) where
  info : EntryInfo
  content : List UInt8
  packing : Packing ι

namespace PackRequest

/-- The content is provided, and the metadata is right about it as far as it says something. -/
structure IsConsistent [ByteSource ι] (request : PackRequest ι) : Prop where
  provides : request.packing.Provides request.content
  size : ∀ size, request.info.unpackedSize? = some size → size.toNat = request.content.length
  crc : ∀ crc, request.info.crc? = some crc → crc = crc32c 0 request.content

/-- The entry as it is read back. -/
def entry (request : PackRequest ι) : EntryInfo × List UInt8 :=
  (request.info.normalForm, request.content)

end PackRequest

namespace Archive

section Programs

variable [ByteSource ι] [ByteSink σ] [Seekable σ]

/-- Packs entry after entry. -/
def packEntries : List (PackRequest ι) → Call σ Unit
  | [] => pure ()
  | request :: more => do
    packEntry request.info request.packing
    packEntries more

/-- Packs an archive: the archive header and the entries. -/
def packArchive (requests : List (PackRequest ι)) : Call σ Unit := do
  initArchive
  packEntries requests

end Programs

/-- **Entries that are packed**, each in any way, leave records that are these entries. -/
theorem areEntries_of_packEntries [ByteSource ι] {requests : List (PackRequest ι)}
    (hrequests : ∀ request ∈ requests, request.IsConsistent) {base : MemoryStream}
    {written : List UInt8} {state : HandleState} {final : Archive MemoryStream}
    (hrun : packEntries requests (betweenRecords base written state) = .ok () final) :
    ∃ segments next, AreEntries (requests.map PackRequest.entry) segments ∧
      betweenRecords base (written ++ segmentBytes segments) next = final := by
  induction requests generalizing written state with
  | nil =>
    obtain ⟨-, rfl⟩ := pure_eq_ok.mp hrun
    refine ⟨[], state, .nil, ?_⟩
    rw [segmentBytes_nil, List.append_nil]
  | cons request more ih =>
    -- The drafts of the first entry are the records with which the reader will start.
    obtain ⟨hrequest, hmore⟩ := List.forall_mem_cons.mp hrequests
    obtain ⟨_, _, hfirst, hrest⟩ := bind_eq_ok.mp hrun
    obtain ⟨first, later, next, hdrafts, rfl⟩ :=
      isDraftedAs_of_packEntry hrequest.provides hrequest.size hfirst
    obtain ⟨segments, last, hentries, hfinal⟩ := ih hmore hrest
    have hentry := hdrafts.isEntry hrequest.size hrequest.crc
    have hcontent : contentOf (first.asRead :: later.map Draft.asRead) = request.content := by
      rw [← List.map_cons, contentOf_asRead, hdrafts.content]
    refine ⟨first.asRead :: later.map Draft.asRead ++ segments, last, ?_, ?_⟩
    · have hcons := AreEntries.cons hentry hentries
      rw [hcontent] at hcons
      exact hcons
    · rw [segmentBytes_append, ← List.map_cons, segmentBytes_asRead, ← List.append_assoc]
      exact hfinal

/-- Entries are packed on any storage as in memory. -/
theorem simulates_packEntries [ByteSource ι] [ByteSink σ] [Seekable σ]
    {keeps : σ → MemoryStream → Prop} (hk : IsStorage keeps) (requests : List (PackRequest ι)) :
    Simulates (Related keeps) (packEntries requests) (packEntries requests) := by
  induction requests with
  | nil => exact .pure ()
  | cons request more ih =>
    exact (simulates_packEntry hk.writesAlike request.info request.packing).bind fun _ => ih

/-- **An archive is packed** on any storage as in memory. -/
theorem simulates_packArchive [ByteSource ι] [ByteSink σ] [Seekable σ]
    {keeps : σ → MemoryStream → Prop} (hk : IsStorage keeps) (requests : List (PackRequest ι)) :
    Simulates (Related keeps) (packArchive requests) (packArchive requests) :=
  (simulates_initArchive hk.writesAlike).bind fun _ => simulates_packEntries hk requests

/-! ### Unpacking -/

/-- **A handle gives entries back**: one after another, their metadata is read and then their content
is extracted, to any sink; behind the last one there is no further entry. -/
def GivesBack [ByteSource σ] [ByteSink τ] (holds : τ → List UInt8 → Prop) :
    List (EntryInfo × List UInt8) → Archive σ → Prop
  | [], handle => ∃ final, currentFileInfo handle = .error .eof final
  | (info, content) :: more, handle => ∃ opened, currentFileInfo handle = .ok info opened ∧
    ∀ sink held, holds sink held → ∃ (copy : CopySink τ) (final : Archive σ),
      extract ((⟨sink, 0⟩ : CopySink τ), opened) = .ok () (copy, final) ∧
      holds copy.stream (held ++ content) ∧ copy.total = content.length ∧
      GivesBack holds more final

variable [ByteSource σ] [ByteSink τ] {holds : τ → List UInt8 → Prop}

/-- At the end of the stream there is no further entry. -/
theorem currentFileInfo_of_yields_nil {stream : σ} {state : HandleState} (hstream : Yields stream [])
    (hstate : state.IsBetweenEntries) :
    ∃ final, currentFileInfo ⟨stream, state⟩ = .error .eof final := by
  have hlist : currentFileInfo ⟨([] : List UInt8), state⟩ = .error .eof ⟨[], state⟩ := by
    rw [currentFileInfo_of_isBetween hstate]
    exact bind_of_error (readRecord_nil hstate.mode)
  obtain ⟨final, hrun, -⟩ := exists_error_of_yields
    (simulates_currentFileInfo Yields.isDelivery.readsAlike) hstream hlist
  exact ⟨_, hrun⟩

/-- **From records that are entries** any reader gets the entries back. -/
theorem givesBack_of_areEntries (hsink : IsCollector holds)
    {entries : List (EntryInfo × List UInt8)} {segments : List Segment}
    (h : AreEntries entries segments) {handle : Archive σ}
    (hstream : Yields handle.stream (segmentBytes segments))
    (hstate : handle.state.IsBetweenEntries) : GivesBack holds entries handle := by
  induction h generalizing handle with
  | nil => exact currentFileInfo_of_yields_nil hstream hstate
  | @cons info first later more entries hentry hmore ih =>
    -- The entry is in front; extraction leaves the others, which the induction gives back.
    rw [segmentBytes_append] at hstream
    obtain ⟨⟨_, inside⟩, hlist, -⟩ := (isEntry_iff_currentFileInfo hstate).mp
      ⟨first, later, hentry, rfl, rfl⟩
    obtain ⟨middle, hinfo, -⟩ := exists_ok_of_yields
      (simulates_currentFileInfo Yields.isDelivery.readsAlike) hstream hlist
    refine ⟨_, hinfo, fun sink held hheld => ?_⟩
    obtain ⟨copy, final, hrun, hcopy, htotal, hrest, hbetween⟩ :=
      extract_of_isEntry hsink hheld hstate hstream hentry
    refine ⟨copy, final, ?_, hcopy, htotal, ih hrest hbetween⟩
    rw [extract_of_currentFileInfo hstate hinfo (isInside_of_currentFileInfo hstate hlist)]
    exact hrun

/-! ## There and back -/

/-- What packing an archive leaves in memory: the marker, the archive header, and records that are the
entries. -/
theorem areEntries_of_packArchive [ByteSource ι] {requests : List (PackRequest ι)}
    (hrequests : ∀ request ∈ requests, request.IsConsistent) {base kept : MemoryStream}
    {options : ArchiveOptions} {packed : Archive MemoryStream}
    (hpack : packArchive requests (Archive.ofStream base options) = .ok () packed)
    (hclose : close packed = .ok kept) :
    ∃ segments, AreEntries (requests.map PackRequest.entry) segments ∧
      base.write (Marker.bytes ++ (ArchiveHeader.current.record.fixed.toBytes
        ++ segmentBytes segments)) = kept := by
  have hinit := initArchive_ofStream base options
  have hentries := (bind_of_ok hinit).symm.trans hpack
  obtain ⟨segments, next, hsegments, rfl⟩ := areEntries_of_packEntries hrequests hentries
  rw [close_betweenRecords, List.append_assoc] at hclose
  exact ⟨segments, hsegments, Except.ok.inj hclose⟩

/-- **Reading starts** in front of the archive header, wherever in the stream it stands. -/
theorem startReading_of_yields [ByteSink σ] [Seekable σ] {stub : List UInt8}
    (hstub : ¬ Marker.bytes <:+: stub) {rest : List UInt8} {source : σ}
    (hsource : Yields source (stub ++ (Marker.bytes
      ++ (ArchiveHeader.current.record.fixed.toBytes ++ rest)))) (options : ArchiveOptions) :
    ∃ opened unpacking,
      startReading (Archive.ofStream source options) = .ok () opened ∧
      readArchiveHeader opened = .ok ArchiveHeader.current unpacking ∧
      Yields unpacking.stream rest ∧ unpacking.state.IsBetweenEntries := by
  -- on the list of the bytes the header is found; the stream simulates that
  rw [← List.append_assoc] at hsource
  obtain ⟨between, hlist, hbetween⟩ := readArchiveHeader_of_marker hstub rest
    (rfl : ({ mode := .reading .atMarker, options } : HandleState).mode = _) rfl
  obtain ⟨stream, hrun, hstream⟩ := exists_ok_of_yields
    (simulates_readArchiveHeader Yields.isDelivery.readsAlike) hsource hlist
  exact ⟨⟨source, { mode := .reading .atMarker, options }⟩, ⟨stream, between⟩, rfl, hrun, hstream,
    hbetween⟩

/-- **What is packed is unpacked.** Entries are packed one after another, each in any of the three
ways, on a stream that keeps what is written. If all of that and closing succeed, then from the bytes
that were written, behind anything that holds no marker and in transfers of any length, the archive
header is read, and then exactly these entries are given back: the metadata in normal form and the
content. -/
theorem givesBack_of_packArchive [ByteSource ι] [ByteSink ρ] [Seekable ρ] [ByteSink σ] [Seekable σ]
    (hsink : IsCollector holds) {keeps : ρ → MemoryStream → Prop} (hk : IsStorage keeps)
    {requests : List (PackRequest ι)} (hrequests : ∀ request ∈ requests, request.IsConsistent)
    {stream : ρ} {base : MemoryStream} (hstream : keeps stream base) {options : ArchiveOptions}
    {packed : Archive ρ} {final : ρ}
    (hpack : packArchive requests (Archive.ofStream stream options) = .ok () packed)
    (hclose : close packed = .ok final) :
    ∃ produced, keeps final (base.write produced) ∧
      ∀ stub : List UInt8, ¬ Marker.bytes <:+: stub → ∀ source : σ, Yields source (stub ++ produced) →
        ∀ readingOptions, ∃ opened unpacking,
          startReading (Archive.ofStream source readingOptions) = .ok () opened ∧
          readArchiveHeader opened = .ok ArchiveHeader.current unpacking ∧
          GivesBack holds (requests.map PackRequest.entry) unpacking := by
  -- What happens on the stream happens in memory, where every byte is known.
  have hresult := simulates_packArchive hk requests (Archive.ofStream stream options)
    (Archive.ofStream base options) ⟨hstream, rfl⟩
  rw [hpack] at hresult
  obtain ⟨memory, hmemory, hrelated⟩ := hresult.exists_ok_right
  obtain ⟨kept, hkept, hfinal⟩ := close_of_related hk hrelated hclose
  obtain ⟨segments, hsegments, rfl⟩ := areEntries_of_packArchive hrequests hmemory hkept
  refine ⟨_, hfinal, fun stub hstub source hsource readingOptions => ?_⟩
  obtain ⟨opened, unpacking, hstart, hheader, hrest, hbetween⟩ :=
    startReading_of_yields hstub hsource readingOptions
  exact ⟨opened, unpacking, hstart, hheader,
    givesBack_of_areEntries hsink hsegments hrest hbetween⟩

/-- A file that is packed whole and one that is packed in three pieces, one of them empty. -/
theorem givesBack_of_packArchive_files :
    let whole : PackRequest MemoryStream :=
      ⟨.regular "a", [104, 105], .whole ⟨[104, 105], by decide⟩⟩
    let pieces : PackRequest MemoryStream :=
      ⟨.regular "b", [1, 2, 3], .pieces ⟨⟨[1, 2], by decide⟩, true⟩
        [⟨⟨[], by decide⟩, true⟩, ⟨⟨[3], by decide⟩, false⟩]⟩
    ∃ (packed : Archive MemoryStream) (final : MemoryStream),
      packArchive [whole, pieces] (Archive.ofStream ({} : MemoryStream) {}) = .ok () packed ∧
      close packed = .ok final ∧ ∃ opened unpacking,
        startReading (Archive.ofStream (MemoryStream.ofList final.toList) {}) = .ok () opened ∧
        readArchiveHeader opened = .ok ArchiveHeader.current unpacking ∧
        GivesBack (fun (sink : BoundedSink) held => sink.room? = none ∧ sink.bytes.toList = held)
          [(.regular "a", [104, 105]), (.regular "b", [1, 2, 3])] unpacking := by
  intro whole pieces
  have hconsistent : ∀ request ∈ [whole, pieces], request.IsConsistent :=
    List.forall_mem_cons.mpr ⟨⟨rfl, nofun, nofun⟩,
      List.forall_mem_singleton.mpr ⟨rfl, nofun, nofun⟩⟩
  obtain ⟨written, hwritten⟩ : ∃ written,
    Marker.bytes ++ ArchiveHeader.current.record.fixed.toBytes = written := ⟨_, rfl⟩
  have hinit := initArchive_ofStream {} {}
  rw [hwritten] at hinit
  -- Both entries are written, as names, file headers and records fit.
  have hfirst := (@addFile_eq_ok {} written { packer := .fileHeader } (.regular "a") _ [104, 105]
    (by decide)).mpr ⟨by decide, ⟨by decide +kernel, fun _ => Nat.zero_le _, by decide +kernel⟩,
      ⟨by decide +kernel, by decide +kernel⟩, rfl⟩
  obtain ⟨behind, hbehind⟩ : ∃ behind, written ++ (Draft.whole
    ((ArchiveOptions.requestCrc {}) (EntryInfo.regular "a").header.fixed) [104, 105]).segment.toBytes
      = behind := ⟨_, rfl⟩
  rw [hbehind] at hfirst
  have hdrafts : ∀ draft ∈ pieceDrafts (.regular "b") ⟨⟨[1, 2], by decide⟩, true⟩
      [⟨⟨[], by decide⟩, true⟩, ⟨⟨[3], by decide⟩, false⟩], draft.record.Fits :=
    List.forall_mem_cons.mpr ⟨⟨by decide +kernel, by decide +kernel⟩,
      List.forall_mem_cons.mpr ⟨⟨by decide +kernel, by decide +kernel⟩,
        List.forall_mem_singleton.mpr ⟨by decide +kernel, by decide +kernel⟩⟩⟩
  have hsecond := (@packPieces_eq_ok MemoryStream {} behind { packer := .fileHeader } (.regular "b")
    _ _ _ _).mpr ⟨⟨by decide +kernel, fun _ => Nat.zero_le _, by decide +kernel⟩, hdrafts, rfl⟩
  obtain ⟨all, hall⟩ : ∃ all, behind ++ segmentBytes ((pieceDrafts (.regular "b")
    ⟨⟨[1, 2], by decide⟩, true⟩ [⟨⟨[], by decide⟩, true⟩, ⟨⟨[3], by decide⟩, false⟩]).map
      Draft.segment) = all := ⟨_, rfl⟩
  rw [hall] at hsecond
  have hpack : packArchive [whole, pieces] (Archive.ofStream ({} : MemoryStream) {})
      = .ok () (betweenRecords {} all { packer := .fileHeader }) := by
    refine (bind_of_ok hinit).trans ((bind_of_ok hfirst).trans ?_)
    exact (bind_of_ok hsecond).trans rfl
  obtain ⟨produced, hproduced, hread⟩ := givesBack_of_packArchive (σ := MemoryStream)
    BoundedSink.isCollector isStorage_eq hconsistent rfl hpack close_betweenRecords
  have hnil : ¬ Marker.bytes <:+: [] := by decide
  refine ⟨_, _, hpack, close_betweenRecords, hread [] hnil _ ?_ {}⟩
  rw [hproduced, MemoryStream.toList_write_empty]
  exact MemoryStream.yields _

end Archive

end RecordArchive
