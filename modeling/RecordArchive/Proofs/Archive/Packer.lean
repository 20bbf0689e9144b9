import RecordArchive.Archive.Packer
import RecordArchive.Proofs.Archive.RecordWriter
import RecordArchive.Proofs.Entry.Codec
import RecordArchive.Proofs.Entry.Grammar
import RecordArchive.Proofs.Stream.Delivery

/-! # What the packer puts on the stream

An entry is packed in one record, in three steps that copy its content from a stream, or by hand as a
file header and data fragments (`Packing`). Whatever the way, what is left on the stream are the
drafts of that entry (`IsDraftedAs`), and these are read back as the records of an entry
(`IsDraftedAs.isEntry`).

* `Archive.addFile_eq_ok`, `Archive.packPieces_eq_ok`: records that are written with their whole
  payloads.
* `Archive.insertFileData_of_ok`: the loop that copies a stream adds its chunks to the open draft.
* `Archive.isDraftedAs_of_packEntry`: a success of any of the three ways leaves the drafts of the
  entry. -/

namespace RecordArchive

open Program Call

variable {ι σ τ : Type}

/-! ## Drafts of an entry -/

/-- The record of a draft as it is read back, with its payload. -/
def Draft.asRead (draft : Draft) : Segment := draft.segment.normalForm

/-- What is read back takes the same bytes. -/
theorem segmentBytes_asRead (drafts : List Draft) :
    segmentBytes (drafts.map Draft.asRead) = segmentBytes (drafts.map Draft.segment) := by
  induction drafts with
  | nil => rfl
  | cons draft more ih =>
    rw [List.map_cons, List.map_cons, segmentBytes_cons, segmentBytes_cons, ih, Draft.asRead,
      Segment.toBytes_normalForm]

/-- What is read back has the same payloads. -/
theorem contentOf_asRead (drafts : List Draft) :
    contentOf (drafts.map Draft.asRead) = drafts.flatMap Draft.payload := by
  induction drafts with
  | nil => rfl
  | cons draft more ih =>
    rw [List.map_cons, contentOf_cons, ih, List.flatMap_cons]
    rfl

/-- **The drafts of an entry**: a file header with the metadata and data fragments, all of which fit
and say that they are continued except for the last, with the content as their payloads. -/
structure IsDraftedAs (info : EntryInfo) (content : List UInt8) (first : Draft)
    (later : List Draft) : Prop where
  name : (Text.Utf8.bytesOf info.name).length ≤ 65535
  header : first.record.kind = .fileHeader
  metadata : first.record.data = info.toBytes
  fragments : ∀ draft ∈ later, draft.record.kind = .dataFragment
  fits : ∀ draft ∈ first :: later, draft.Fits
  continued : (first :: later).map (fun draft => draft.record.isContinued)
    = List.replicate later.length true ++ [false]
  content : (first :: later).flatMap Draft.payload = content

namespace Draft

variable (draft : Draft)

/-- A kind that its letter names is read back. -/
theorem kind_asRead (h : RecordKind.ofByte draft.record.kind.toByte = draft.record.kind) :
    draft.asRead.record.kind = draft.record.kind := by
  obtain ⟨hkind, -, -⟩ := draft.record.describing_frame draft.payload
  show RecordKind.ofByte (draft.record.describing draft.payload).kind.toByte = _
  rw [hkind, h]

/-- The data are read as they were drafted. -/
theorem data_asRead : draft.asRead.record.data = draft.record.data :=
  (draft.record.describing_frame draft.payload).2.2

/-- Whether an entry goes on is read as it was drafted. -/
theorem isContinued_asRead : draft.asRead.record.isContinued = draft.record.isContinued := by
  obtain ⟨-, hflags, -⟩ := draft.record.describing_frame draft.payload
  show RecordFlags.has (draft.record.describing draft.payload).flags RecordFlags.continued = _
  rw [hflags]
  rfl

/-- A record that fits is read without damage. -/
theorem Fits.isValid_asRead {draft : Draft} (h : draft.Fits) :
    draft.asRead.record.isValid = true :=
  (Record.isValid_normalForm _).trans h.isComplete.valid

end Draft

namespace IsDraftedAs

variable {info : EntryInfo} {content : List UInt8} {first : Draft} {later : List Draft}

/-- The metadata is read back in normal form. -/
theorem ofRecord_asRead (h : IsDraftedAs info content first later) :
    EntryInfo.ofRecord first.asRead.record = .ok info.normalForm := by
  refine ofRecord_eq_ok.mpr ⟨(h.fits first List.mem_cons_self).isValid_asRead, ?_, ?_⟩
  · rw [first.kind_asRead (by rw [h.header]; rfl), h.header]
  · rw [first.data_asRead, h.metadata]
    exact EntryInfo.parse_read_toBytes h.name

/-- The first record of an entry is read as the writer makes it. -/
theorem isSound_asRead (h : IsDraftedAs info content first later) : first.asRead.IsSound :=
  (h.fits first List.mem_cons_self).isComplete.isSound

/-- The data fragments are read back as such, and just the last record says that it is not
continued. -/
theorem isContinuation_asRead (h : IsDraftedAs info content first later) :
    IsContinuation first.asRead.record.isContinued (later.map Draft.asRead) := by
  refine isContinuation_iff.mpr ⟨?_, ?_⟩
  · intro segment hmem
    obtain ⟨draft, hdraft, rfl⟩ := List.mem_map.mp hmem
    have hkind := h.fragments draft hdraft
    have hfits := h.fits draft (List.mem_cons_of_mem _ hdraft)
    refine ⟨?_, hfits.isValid_asRead, hfits.isComplete.isSound⟩
    rw [draft.kind_asRead (by rw [hkind]; rfl), hkind]
  · rw [List.length_map, ← h.continued, List.map_cons, List.map_map, first.isContinued_asRead]
    exact congrArg _ (List.map_congr_left fun draft _ => draft.isContinued_asRead)

/-- The content of an entry is read as it was drafted. -/
theorem content_asRead (h : IsDraftedAs info content first later) :
    contentOf (first.asRead :: later.map Draft.asRead) = content := by
  rw [← List.map_cons, contentOf_asRead, h.content]

/-- **The drafts of an entry are read back** as its records if the metadata is right about the
content. -/
theorem isEntry (h : IsDraftedAs info content first later)
    (hsize : ∀ size, info.unpackedSize? = some size → size.toNat = content.length)
    (hcrc : ∀ crc, info.crc? = some crc → crc = crc32c 0 content) :
    IsEntry info.normalForm first.asRead (later.map Draft.asRead) := by
  refine isEntry_iff.mpr
    ⟨h.ofRecord_asRead, h.isSound_asRead, h.isContinuation_asRead, EntryInfo.verify_eq_ok.mpr ?_⟩
  rw [h.content_asRead, EntryProgress.consume, Nat.zero_add]
  exact ⟨hsize, hcrc⟩

end IsDraftedAs

/-! ## Ways to pack an entry -/

/-- A piece of content for a record of its own. -/
structure Piece where
  payload : Slice
  /-- Whether the record asks for a checksum of the piece. -/
  withCrc : Bool := false

/-- The record for a piece, with the flags that the piece asks for. -/
def Piece.mark (piece : Piece) (continued : Bool) (record : Record) : Record :=
  { record with
    flags := record.flags ||| (if continued then RecordFlags.continued else 0)
      ||| (if piece.withCrc then RecordFlags.payloadCrc else 0) }

/-- A piece is marked as continued or not. -/
theorem Piece.isContinued_mark (piece : Piece) (continued : Bool) {record : Record}
    (h : record.flags = 0) : (piece.mark continued record).isContinued = continued := by
  have hall : ∀ continued withCrc : Bool, RecordFlags.has (0
      ||| (if continued then RecordFlags.continued else 0)
      ||| (if withCrc then RecordFlags.payloadCrc else 0)) RecordFlags.continued = continued := by
    decide
  rw [Record.isContinued, mark, h]
  exact hall continued piece.withCrc

/-- A way to pack an entry. -/
inductive Packing (ι : Type)
  /-- The content is written with the file header. -/
  | whole (content : Slice)
  /-- The content is copied from a stream behind the file header. -/
  | copied (input : ι)
  /-- The content is written in pieces, the first one with the file header and each further one with a
  data fragment. -/
  | pieces (first : Piece) (later : List Piece)

/-- What a packing has to give the entry as its content. -/
def Packing.Provides [ByteSource ι] : Packing ι → List UInt8 → Prop
  | whole slice, content => content = slice.bytes
  | copied input, content => Yields input content
  | pieces first later, content =>
    content = (first :: later).flatMap fun piece => piece.payload.bytes

/-- What is kept of content that is copied: as much as the metadata announces, and all of it if that
announces nothing. -/
def EntryInfo.kept (info : EntryInfo) (content : List UInt8) : List UInt8 :=
  if 0 < (info.unpackedSize?.getD 0).toNat then content.take (info.unpackedSize?.getD 0).toNat
  else content

/-- All the content is kept if no less is announced. -/
theorem EntryInfo.kept_eq {info : EntryInfo} {content : List UInt8}
    (h : ∀ size, info.unpackedSize? = some size → content.length ≤ size.toNat) :
    info.kept content = content := by
  unfold kept
  cases hsize : info.unpackedSize? with
  | none => exact if_neg (by decide)
  | some size =>
    rw [Option.getD_some, List.take_of_length_le (h size hsize), ite_self]

namespace Archive

section Programs

variable [ByteSource ι] [ByteSink σ] [Seekable σ]

/-- Writes further pieces of content, each with a data fragment. -/
def writeFragments : List Piece → Call σ Unit
  | [] => pure ()
  | piece :: more => do
    CallWith.withValue (piece.mark (!more.isEmpty) { kind := .dataFragment })
      (writeRecordWithAddedData piece.payload.bytes)
    writeFragments more

/-- Packs an entry. -/
def packEntry (info : EntryInfo) : Packing ι → Call σ Unit
  | .whole slice => addFile info slice.bytes
  | .copied input => do
    beginFile info
    CallWith.withValue { stream := input } insertFileData
    endFile
  | .pieces first later => do
    let header ← ofResult info.toRecord
    CallWith.withValue (first.mark (!later.isEmpty) header)
      (writeRecordWithAddedData first.payload.bytes)
    writeFragments later

end Programs

variable {base : MemoryStream} {written front : List UInt8} {draft : Draft} {state : HandleState}
  {info : EntryInfo} {final : Archive MemoryStream}

/-! ## Pieces -/

/-- The drafts of further pieces. -/
def fragmentDrafts : List Piece → List Draft
  | [] => []
  | piece :: more =>
    .whole (piece.mark (!more.isEmpty) { kind := .dataFragment }) piece.payload.bytes
      :: fragmentDrafts more

/-- Further pieces are written if their records fit. -/
theorem writeFragments_eq_ok {pieces : List Piece} :
    writeFragments pieces (betweenRecords base written state) = .ok () final ↔
      (∀ draft ∈ fragmentDrafts pieces, draft.record.Fits) ∧
        betweenRecords base (written ++ segmentBytes ((fragmentDrafts pieces).map Draft.segment))
          state = final := by
  -- Each record starts where the one in front of it ends.
  induction pieces generalizing written with
  | nil =>
    rw [writeFragments, pure_eq_ok, fragmentDrafts, List.map_nil, segmentBytes_nil, List.append_nil]
    exact ⟨fun h => ⟨fun _ hmem => absurd hmem List.not_mem_nil, h.2⟩, fun h => ⟨rfl, h.2⟩⟩
  | cons piece more ih =>
    rw [writeFragments, bind_eq_ok, fragmentDrafts, List.forall_mem_cons, List.map_cons,
      segmentBytes_cons, ← List.append_assoc]
    constructor
    · rintro ⟨_, middle, hfirst, hmore⟩
      obtain ⟨hfits, rfl⟩ := (writeRecordWithAddedData_eq_ok piece.payload.bounded).mp hfirst
      obtain ⟨hlater, hfinal⟩ := ih.mp hmore
      exact ⟨⟨hfits, hlater⟩, hfinal⟩
    · rintro ⟨⟨hfits, hlater⟩, hfinal⟩
      exact ⟨(), _, (writeRecordWithAddedData_eq_ok piece.payload.bounded).mpr ⟨hfits, rfl⟩,
        ih.mpr ⟨hlater, hfinal⟩⟩

/-! ## Entries in one record -/

/-- The check is passed in the states it allows, and it changes nothing. -/
theorem expectPacker_eq_ok {allowed : List PackerState} {call : String} {stream : σ}
    {place : WriterState} (hmode : state.mode = .writing place) {value : Unit} {final : Archive σ} :
    expectPacker allowed call ⟨stream, state⟩ = .ok value final ↔
      state.packer ∈ allowed ∧ ⟨stream, state⟩ = final := by
  rw [expectPacker, bind_of_ok (state_apply _)]
  simp only [hmode]
  exact require_eq_ok

/-- **A whole entry** is written if the packing stands between two entries, and name and record
fit. -/
theorem addFile_eq_ok {content : List UInt8} (hlength : content.length < UInt64.size) :
    addFile info content (betweenRecords base written state) = .ok () final ↔
      state.packer ∈ [PackerState.idle, .fileHeader] ∧
      ((Text.Utf8.bytesOf info.name).length ≤ 65535 ∧ info.header.Fits) ∧
      ((state.options.requestCrc info.header.fixed).announcing content).Fits ∧
      betweenRecords base (written
        ++ (Draft.whole (state.options.requestCrc info.header.fixed) content).segment.toBytes)
        { state with packer := .fileHeader } = final := by
  rw [addFile, bind_eq_ok]
  constructor
  · rintro ⟨_, _, hexpect, h⟩
    obtain ⟨hpacker, rfl⟩ := (expectPacker_eq_ok rfl).mp hexpect
    obtain ⟨header, _, hheader, h⟩ := bind_eq_ok.mp h
    obtain ⟨hrecord, rfl⟩ := ofResult_eq_ok.mp hheader
    obtain ⟨hname, hfits, rfl⟩ := EntryInfo.toRecord_eq_ok.mp hrecord
    rw [bind_of_ok (state_apply _), bind_eq_ok] at h
    obtain ⟨_, _, hwrite, hpack⟩ := h
    obtain ⟨hwhole, rfl⟩ := (writeRecordWithAddedData_eq_ok hlength).mp hwrite
    cases hpack
    exact ⟨hpacker, ⟨hname, hfits⟩, hwhole, rfl⟩
  · rintro ⟨hpacker, ⟨hname, hfits⟩, hwhole, rfl⟩
    refine ⟨(), betweenRecords base written state, (expectPacker_eq_ok rfl).mpr ⟨hpacker, rfl⟩,
      bind_eq_ok.mpr ⟨info.header.fixed, betweenRecords base written state, ofResult_eq_ok.mpr
        ⟨EntryInfo.toRecord_eq_ok.mpr ⟨hname, hfits, rfl⟩, rfl⟩, ?_⟩⟩
    rw [bind_of_ok (state_apply _), bind_eq_ok]
    exact ⟨(), _, (writeRecordWithAddedData_eq_ok hlength).mpr ⟨hwhole, rfl⟩, rfl⟩

/-! ## Entries that are copied -/

/-- The record with which the packer opens the content of an entry. -/
def openingRecord (options : ArchiveOptions) (info : EntryInfo) : Record :=
  options.requestCrc (info.announceContent info.header.fixed)

/-- The size that is announced for the content, zero if it is not known. -/
theorem openingRecord_spec (options : ArchiveOptions) (info : EntryInfo) :
    (openingRecord options info).kind = .fileHeader ∧
      (openingRecord options info).data = info.toBytes ∧
      (openingRecord options info).addedSize = info.unpackedSize?.getD 0 ∧
      (openingRecord options info).hasAddedSize = true ∧
      (openingRecord options info).isContinued = false := by
  -- Whatever is known of the length, the announcement sets one of the two size flags.
  obtain ⟨flags, hflags, hrecord⟩ : ∃ flags, flags ∈ [RecordFlags.wideSize, RecordFlags.narrowSize] ∧
      info.announceContent info.header.fixed = { info.header.fixed with
        flags := 0 ||| flags, addedSize := info.unpackedSize?.getD 0 } := by
    rw [EntryInfo.announceContent]
    rcases info.unpackedSize? with _ | size
    · exact ⟨_, List.mem_cons_self, rfl⟩
    · by_cases hzero : size = 0
      · refine ⟨_, List.mem_cons_self, ?_⟩
        simp only [hzero, if_true]
        rfl
      · simp only [hzero, if_false]
        by_cases hlarge : EntryInfo.narrowSizeMax < size.toNat
        · exact ⟨_, List.mem_cons_self, by rw [if_pos hlarge]; rfl⟩
        · exact ⟨_, List.mem_cons_of_mem _ List.mem_cons_self, by rw [if_neg hlarge]; rfl⟩
  have hall : ∀ flags ∈ [RecordFlags.wideSize, RecordFlags.narrowSize], ∀ withCrc : Bool,
      (SizeWidth.ofFlags (if withCrc then 0 ||| flags ||| RecordFlags.payloadCrc
          else 0 ||| flags) != .absent) = true ∧
        RecordFlags.has (if withCrc then 0 ||| flags ||| RecordFlags.payloadCrc else 0 ||| flags)
          RecordFlags.continued = false := by
    decide +kernel
  obtain ⟨hsize, hcontinued⟩ := hall flags hflags options.payloadCrc
  rw [openingRecord, ArchiveOptions.requestCrc, hrecord]
  cases hcrc : options.payloadCrc with
  | true =>
    rw [hcrc] at hsize hcontinued
    exact ⟨rfl, rfl, rfl, hsize, hcontinued⟩
  | false =>
    rw [hcrc] at hsize hcontinued
    exact ⟨rfl, rfl, rfl, hsize, hcontinued⟩

/-- The size field is narrow for a stated length that needs no wide one, and wide otherwise. -/
theorem sizeWidth_openingRecord (options : ArchiveOptions) (info : EntryInfo) :
    (openingRecord options info).sizeWidth =
      if 0 < (info.unpackedSize?.getD 0).toNat ∧
          (info.unpackedSize?.getD 0).toNat ≤ EntryInfo.narrowSizeMax then .four
      else .eight := by
  have hall : ∀ withCrc : Bool,
      SizeWidth.ofFlags (if withCrc then 0 ||| RecordFlags.wideSize ||| RecordFlags.payloadCrc
        else 0 ||| RecordFlags.wideSize) = .eight ∧
      SizeWidth.ofFlags (if withCrc then 0 ||| RecordFlags.narrowSize ||| RecordFlags.payloadCrc
        else 0 ||| RecordFlags.narrowSize) = .four := by decide
  obtain ⟨hwide, hnarrow⟩ := hall options.payloadCrc
  have hwidth (flags : UInt8) (h : (info.announceContent info.header.fixed).flags = 0 ||| flags) :
      (openingRecord options info).sizeWidth = SizeWidth.ofFlags (if options.payloadCrc then
        0 ||| flags ||| RecordFlags.payloadCrc else 0 ||| flags) := by
    rw [Record.sizeWidth, openingRecord, ArchiveOptions.requestCrc, ← h]
    cases options.payloadCrc <;> rfl
  rcases hsize : info.unpackedSize? with _ | size
  · have hflags : (info.announceContent info.header.fixed).flags = 0 ||| RecordFlags.wideSize := by
      rw [EntryInfo.announceContent, hsize]
      rfl
    rw [hwidth _ hflags, hwide]
    exact (if_neg fun h => Nat.lt_irrefl 0 h.1).symm
  rw [Option.getD_some]
  by_cases hzero : size = 0
  · have hnothing : ¬ 0 < size.toNat := by
      rw [hzero]
      exact Nat.lt_irrefl 0
    have hflags : (info.announceContent info.header.fixed).flags = 0 ||| RecordFlags.wideSize := by
      rw [EntryInfo.announceContent, hsize]
      exact congrArg Record.flags (if_pos hzero)
    rw [hwidth _ hflags, hwide, if_neg fun h => hnothing h.1]
  have hpos : 0 < size.toNat :=
    Nat.pos_of_ne_zero fun hnothing => hzero (UInt64.toNat_inj.mp hnothing)
  have hflags : (info.announceContent info.header.fixed).flags = 0 |||
      if EntryInfo.narrowSizeMax < size.toNat then RecordFlags.wideSize else RecordFlags.narrowSize := by
    rw [EntryInfo.announceContent, hsize]
    exact congrArg Record.flags (if_neg hzero)
  by_cases hlarge : EntryInfo.narrowSizeMax < size.toNat
  · rw [if_pos hlarge] at hflags
    rw [hwidth _ hflags, hwide, if_neg fun h => Nat.not_le.mpr hlarge h.2]
  · rw [if_neg hlarge] at hflags
    rw [hwidth _ hflags, hnarrow, if_pos ⟨hpos, Nat.le_of_not_lt hlarge⟩]

/-- **The content of an entry is opened** if the packing stands between two entries, and name and
record fit. -/
theorem beginFile_eq_ok :
    beginFile info (betweenRecords base written state) = .ok () final ↔
      state.packer ∈ [PackerState.idle, .fileHeader] ∧
      ((Text.Utf8.bytesOf info.name).length ≤ 65535 ∧ info.header.Fits) ∧
      (openingRecord state.options info).Fits ∧
      insidePayload base written ⟨openingRecord state.options info, []⟩
        { state with currentFile? := some info, packer := .fileData } = final := by
  -- the opening record always has room for a size, so the writer stands inside a payload
  have hstarted : started base written (openingRecord state.options info) state
      = insidePayload base written ⟨openingRecord state.options info, []⟩ state :=
    if_pos (openingRecord_spec state.options info).2.2.2.1
  rw [beginFile, bind_eq_ok]
  constructor
  · rintro ⟨_, _, hexpect, h⟩
    obtain ⟨hpacker, rfl⟩ := (expectPacker_eq_ok rfl).mp hexpect
    obtain ⟨header, _, hheader, h⟩ := bind_eq_ok.mp h
    obtain ⟨hrecord, rfl⟩ := ofResult_eq_ok.mp hheader
    obtain ⟨hname, hfits, rfl⟩ := EntryInfo.toRecord_eq_ok.mp hrecord
    rw [bind_of_ok (state_apply _), bind_eq_ok] at h
    obtain ⟨_, _, hwrite, hpack⟩ := h
    obtain ⟨hopening, rfl⟩ := writeRecord_eq_ok.mp hwrite
    refine ⟨hpacker, ⟨hname, hfits⟩, hopening, ?_⟩
    have hupdate : Call.update _ (started base written (openingRecord state.options info) state)
      = .ok () final := hpack
    rw [hstarted] at hupdate
    cases hupdate
    rfl
  · rintro ⟨hpacker, ⟨hname, hfits⟩, hopening, rfl⟩
    refine ⟨(), betweenRecords base written state, (expectPacker_eq_ok rfl).mpr ⟨hpacker, rfl⟩,
      bind_eq_ok.mpr ⟨info.header.fixed, betweenRecords base written state, ofResult_eq_ok.mpr
        ⟨EntryInfo.toRecord_eq_ok.mpr ⟨hname, hfits, rfl⟩, rfl⟩, ?_⟩⟩
    rw [bind_of_ok (state_apply _), bind_eq_ok]
    exact ⟨(), _, writeRecord_eq_ok.mpr ⟨hopening, hstarted⟩, rfl⟩

section Source

variable [ByteSource ι]

/-- What is fetched is the next part of the stream; nothing is fetched only at its end, and an
interruption takes nothing. -/
theorem fetch_of_yields {count : Nat} (hcount : 0 < count) {source next : CopySource ι}
    {fetched? : Option (List UInt8)} {rest : List UInt8} (h : Yields source.stream rest)
    (hrun : fetch count source = .ok fetched? next) :
    (fetched? = none ∧ Yields next.stream rest) ∨
      ∃ taken more, fetched? = some taken ∧ rest = taken ++ more ∧ Yields next.stream more ∧
        (taken = [] → rest = []) := by
  unfold fetch at hrun
  split at hrun
  next bytes stream hread =>
    cases hrun
    obtain ⟨more, hrest, hmore, hend⟩ := Yields.isDelivery.read_ok h hread
    exact .inr ⟨bytes, more, rfl, hrest, hmore, fun hnil => (hend hnil).resolve_left (by omega)⟩
  next error stream hread =>
    obtain ⟨hagain, hstream⟩ := Yields.isDelivery.read_error h hread
    rw [if_pos hagain] at hrun
    cases hrun
    exact .inl ⟨rfl, hstream⟩

/-- **Where copying stands**: some of the content was accepted for the open draft, and the rest is
still to be copied. -/
structure IsCopying (base : MemoryStream) (front : List UInt8) (state : HandleState)
    (record : Record) (content rest : List UInt8) (chunks : List (List UInt8))
    (pair : CopySource ι × Archive MemoryStream) : Prop where
  source : Yields pair.1.stream rest
  handle : pair.2 = insidePayload base front ⟨record, chunks⟩ state
  fits : (⟨record, chunks⟩ : Draft).Fits
  content : content = chunks.flatten ++ rest

/-- A round of copying moves some bytes from the stream to the draft, and stops only when there are
none left. -/
theorem isCopying_of_insertRound {count : Nat} (hcount : 0 < count) {record : Record}
    (hsize : record.hasAddedSize = true) {content rest : List UInt8} {chunks : List (List UInt8)}
    {start final : CopySource ι × Archive MemoryStream} {round : Option Unit}
    (h : IsCopying base front state record content rest chunks start)
    (hrun : insertRound count start = .ok round final) :
    ∃ left chunks, IsCopying base front state record content left chunks final ∧
      (round = some () → left = []) := by
  obtain ⟨source, handle⟩ := start
  obtain ⟨hsource, rfl, hfits, hcontent⟩ := h
  rw [insertRound, bind_eq_ok] at hrun
  obtain ⟨fetched?, _, hvalue, hrun⟩ := hrun
  obtain ⟨next, hfetch, rfl⟩ := CallWith.onValue_eq_ok.mp hvalue
  obtain ⟨rfl, hnext⟩ | ⟨taken, more, rfl, hrest, hnext, hend⟩ :=
    fetch_of_yields hcount hsource hfetch
  · -- After an interruption everything stands where it stood.
    obtain ⟨rfl, rfl⟩ := pure_eq_ok.mp hrun
    exact ⟨rest, chunks, ⟨hnext, rfl, hfits, hcontent⟩, nofun⟩
  rcases taken with _ | ⟨byte, bytes⟩
  · -- The stream is at its end.
    obtain ⟨rfl, rfl⟩ := pure_eq_ok.mp hrun
    have hnil : more = [] := hrest.symm.trans (hend rfl)
    exact ⟨more, chunks, ⟨hnext, rfl, hfits, by rw [hcontent, hrest, List.nil_append]⟩,
      fun _ => hnil⟩
  · -- The bytes fit the open draft, or the round would have failed.
    obtain ⟨_, _, hlift, hrun⟩ := bind_eq_ok.mp hrun
    obtain ⟨handle, hwrite, rfl⟩ := lift_eq_ok.mp hlift
    rw [writeAddedData_insidePayload] at hwrite
    split at hwrite
    next hchunk =>
      cases hwrite
      obtain ⟨_, _, hcount, hpure⟩ := bind_eq_ok.mp hrun
      obtain ⟨_, hcounted, rfl⟩ := CallWith.onValue_eq_ok.mp hcount
      cases hcounted
      obtain ⟨rfl, rfl⟩ := pure_eq_ok.mp hpure
      refine ⟨more, chunks ++ [byte :: bytes], ⟨hnext, rfl, hfits.add hsize hchunk, ?_⟩, nofun⟩
      rw [hcontent, hrest, List.flatten_append, List.flatten_singleton, List.append_assoc]
    next => cases hwrite

/-- **Copying a stream** to its end adds all that it gives to the open draft. -/
theorem insertFileData_of_ok {input : ι} {content : List UInt8} (hinput : Yields input content)
    {record : Record} (hsize : record.hasAddedSize = true) (hrecord : (⟨record, []⟩ : Draft).Fits)
    (hrun : CallWith.withValue { stream := input } insertFileData
      (insidePayload base front ⟨record, []⟩ state) = .ok () final) :
    ∃ chunks, (⟨record, chunks⟩ : Draft).Fits ∧ chunks.flatten = content ∧
      insidePayload base front ⟨record, chunks⟩ { state with packer := .afterFileData } = final := by
  obtain ⟨copied, hrun⟩ := CallWith.withValue_eq_ok.mp hrun
  obtain ⟨_, _, hlift, hrun⟩ := bind_eq_ok.mp hrun
  obtain ⟨_, hexpect, rfl⟩ := lift_eq_ok.mp hlift
  obtain ⟨-, rfl⟩ := (expectPacker_eq_ok rfl).mp hexpect
  obtain ⟨_, _, hread, hrun⟩ := bind_eq_ok.mp hrun
  obtain ⟨_, hstate, rfl⟩ := lift_eq_ok.mp hread
  cases hstate
  obtain ⟨_, ⟨source, handle⟩, hloop, hend⟩ := bind_eq_ok.mp hrun
  obtain ⟨_, hpack, heq⟩ := lift_eq_ok.mp hend
  have hcount : 0 < state.options.copySize := by
    rw [ArchiveOptions.copySize]
    omega
  -- Every round keeps what was copied and what is left in step.
  obtain ⟨last, ⟨left, chunks, hlast⟩, hround⟩ := exists_of_repeatUntil_eq_ok
    (fun pair : CopySource ι × Archive MemoryStream => ∃ left chunks,
      IsCopying base front state record content left chunks pair)
    (fun pair middle ⟨left, chunks, hpair⟩ hround => by
      obtain ⟨left, chunks, hmiddle, -⟩ := isCopying_of_insertRound hcount hsize hpair hround
      exact ⟨left, chunks, hmiddle⟩)
    ⟨content, [], hinput, rfl, hrecord, rfl⟩ hloop
  obtain ⟨left, chunks, ⟨-, rfl, hfits, hcontent⟩, hnothing⟩ :=
    isCopying_of_insertRound hcount hsize hlast hround
  rw [hnothing rfl, List.append_nil] at hcontent
  cases hpack
  cases heq
  exact ⟨chunks, hfits, hcontent.symm, rfl⟩

end Source

/-- **The content of an entry is sealed** behind a copy. -/
theorem endFile_eq_ok (h : draft.Fits) (hsize : draft.record.hasAddedSize = true) :
    endFile (insidePayload base front draft state) = .ok () final ↔
      state.packer ∈ [PackerState.afterFileData] ∧
      betweenRecords base (front ++ draft.segment.toBytes)
        { state with currentFile? := none, packer := .fileHeader } = final := by
  have hseal : finishAddedData (insidePayload base front draft state)
      = .ok () (betweenRecords base (front ++ draft.segment.toBytes) state) :=
    finishAddedData_insidePayload h hsize
  rw [endFile, bind_eq_ok]
  constructor
  · rintro ⟨_, _, hexpect, hrun⟩
    obtain ⟨hpacker, rfl⟩ := (expectPacker_eq_ok rfl).mp hexpect
    have hupdate := (bind_of_ok hseal).symm.trans hrun
    cases hupdate
    exact ⟨hpacker, rfl⟩
  · rintro ⟨hpacker, rfl⟩
    exact ⟨(), insidePayload base front draft state, (expectPacker_eq_ok rfl).mpr ⟨hpacker, rfl⟩,
      bind_of_ok hseal⟩

/-! ## Entries packed in any way -/

/-- One draft is that of an entry if it has the metadata and the content and is not continued. -/
theorem isDraftedAs_singleton {content : List UInt8}
    (hname : (Text.Utf8.bytesOf info.name).length ≤ 65535)
    (hkind : draft.record.kind = .fileHeader) (hdata : draft.record.data = info.toBytes)
    (hcontinued : draft.record.isContinued = false) (hfits : draft.Fits)
    (hcontent : draft.payload = content) : IsDraftedAs info content draft [] where
  name := hname
  header := hkind
  metadata := hdata
  fragments := fun _ hmem => absurd hmem List.not_mem_nil
  fits := List.forall_mem_singleton.mpr hfits
  continued := by
    rw [List.map_singleton, hcontinued]
    rfl
  content := by
    rw [List.flatMap_cons, List.flatMap_nil, List.append_nil, hcontent]

/-- A whole entry leaves its draft. -/
theorem isDraftedAs_of_addFile {slice : Slice}
    (hrun : addFile info slice.bytes (betweenRecords base written state) = .ok () final) :
    ∃ first, IsDraftedAs info slice.bytes first [] ∧
      betweenRecords base (written ++ first.segment.toBytes) { state with packer := .fileHeader }
        = final := by
  obtain ⟨-, ⟨hname, -⟩, hfits, hfinal⟩ := (addFile_eq_ok slice.bounded).mp hrun
  -- neither the request for a checksum nor the payload changes what the record says of the entry
  obtain ⟨hkind, hdata⟩ :=
    (state.options.requestCrc info.header.fixed).announcing_frame slice.bytes
  have hrequest : (state.options.requestCrc info.header.fixed).kind = .fileHeader ∧
      (state.options.requestCrc info.header.fixed).data = info.toBytes ∧
      (state.options.requestCrc info.header.fixed).isContinued = false := by
    have hwith : RecordFlags.has (0 ||| RecordFlags.payloadCrc) RecordFlags.continued = false := by
      decide
    have hwithout : RecordFlags.has 0 RecordFlags.continued = false := by decide
    rw [ArchiveOptions.requestCrc]
    cases state.options.payloadCrc with
    | true => exact ⟨rfl, rfl, hwith⟩
    | false => exact ⟨rfl, rfl, hwithout⟩
  refine ⟨.whole (state.options.requestCrc info.header.fixed) slice.bytes,
    isDraftedAs_singleton hname (hkind.trans hrequest.1) (hdata.trans hrequest.2.1) ?_
      (Draft.fits_whole slice.bounded hfits) (Draft.payload_whole slice.bounded _), hfinal⟩
  exact (Record.isContinued_announcing _ _).trans hrequest.2.2

/-- A copied entry leaves a draft of what is kept of the content. -/
theorem isDraftedAs_kept [ByteSource ι] {input : ι} {content : List UInt8}
    (hinput : Yields input content)
    (hrun : packEntry info (.copied input) (betweenRecords base written state) = .ok () final) :
    ∃ first next, IsDraftedAs info (info.kept content) first [] ∧
      betweenRecords base (written ++ first.segment.toBytes) next = final := by
  obtain ⟨hkind, hdata, hdeclared, hroom, hcontinued⟩ := openingRecord_spec state.options info
  obtain ⟨_, _, hbegin, hrun⟩ := bind_eq_ok.mp hrun
  obtain ⟨-, ⟨hname, -⟩, hfits, rfl⟩ := beginFile_eq_ok.mp hbegin
  obtain ⟨_, _, hinsert, hend⟩ := bind_eq_ok.mp hrun
  have hstart := Draft.fits_start hfits
  obtain ⟨chunks, hchunks, hflatten, rfl⟩ := insertFileData_of_ok hinput hroom hstart hinsert
  obtain ⟨-, hfinal⟩ := (endFile_eq_ok hchunks hroom).mp hend
  -- What was copied is the payload of the draft, which the announced size cuts.
  refine ⟨⟨openingRecord state.options info, chunks⟩, _,
    isDraftedAs_singleton hname hkind hdata hcontinued hchunks ?_, hfinal⟩
  rw [Draft.payload, hflatten, hdeclared, EntryInfo.kept]

/-- A copied entry leaves its draft if the metadata is right about the length of the content. -/
theorem isDraftedAs_of_copy [ByteSource ι] {input : ι} {content : List UInt8}
    (hinput : Yields input content)
    (hsize : ∀ size, info.unpackedSize? = some size → size.toNat = content.length)
    (hrun : packEntry info (.copied input) (betweenRecords base written state) = .ok () final) :
    ∃ first next, IsDraftedAs info content first [] ∧
      betweenRecords base (written ++ first.segment.toBytes) next = final := by
  have hkept := isDraftedAs_kept hinput hrun
  rw [EntryInfo.kept_eq fun size hstated => Nat.le_of_eq (hsize size hstated).symm] at hkept
  exact hkept

/-- Just the last one of the further pieces is not continued. -/
theorem continued_fragmentDrafts (pieces : List Piece) :
    (!pieces.isEmpty) :: (fragmentDrafts pieces).map (fun draft => draft.record.isContinued)
      = List.replicate (fragmentDrafts pieces).length true ++ [false] := by
  induction pieces with
  | nil => rfl
  | cons piece more ih =>
    have hmark : (Draft.whole (piece.mark (!more.isEmpty) { kind := .dataFragment })
        piece.payload.bytes).record.isContinued = !more.isEmpty :=
      (Record.isContinued_announcing _ _).trans (piece.isContinued_mark _ rfl)
    rw [fragmentDrafts, List.map_cons, hmark, ih]
    rfl

/-- What the drafts of further pieces have in common. -/
theorem forall_mem_fragmentDrafts {pieces : List Piece}
    (hfits : ∀ draft ∈ fragmentDrafts pieces, draft.record.Fits) :
    ∀ draft ∈ fragmentDrafts pieces, draft.record.kind = .dataFragment ∧ draft.Fits := by
  induction pieces with
  | nil => exact fun _ hmem => absurd hmem List.not_mem_nil
  | cons piece more ih =>
    rw [fragmentDrafts, List.forall_mem_cons] at hfits ⊢
    exact ⟨⟨(Record.announcing_frame _ _).1, Draft.fits_whole piece.payload.bounded hfits.1⟩,
      ih hfits.2⟩

/-- The fragments hold the pieces in a row. -/
theorem flatMap_payload_fragmentDrafts (pieces : List Piece) :
    (fragmentDrafts pieces).flatMap Draft.payload
      = pieces.flatMap fun piece => piece.payload.bytes := by
  induction pieces with
  | nil => rfl
  | cons piece more ih =>
    rw [fragmentDrafts, List.flatMap_cons, List.flatMap_cons, ih,
      Draft.payload_whole piece.payload.bounded]

/-- The drafts of an entry in pieces. -/
def pieceDrafts (info : EntryInfo) (first : Piece) (later : List Piece) : List Draft :=
  .whole (first.mark (!later.isEmpty) info.header.fixed) first.payload.bytes
    :: fragmentDrafts later

/-- **An entry in pieces** is written if name, file header and records fit. -/
theorem packPieces_eq_ok [ByteSource ι] {first : Piece} {later : List Piece} :
    packEntry info (.pieces first later : Packing ι) (betweenRecords base written state)
        = .ok () final ↔
      ((Text.Utf8.bytesOf info.name).length ≤ 65535 ∧ info.header.Fits) ∧
      (∀ draft ∈ pieceDrafts info first later, draft.record.Fits) ∧
      betweenRecords base
        (written ++ segmentBytes ((pieceDrafts info first later).map Draft.segment)) state
          = final := by
  rw [packEntry, bind_eq_ok, pieceDrafts, List.forall_mem_cons, List.map_cons, segmentBytes_cons,
    ← List.append_assoc]
  constructor
  · rintro ⟨header, _, hheader, hrun⟩
    obtain ⟨hrecord, rfl⟩ := ofResult_eq_ok.mp hheader
    obtain ⟨hname, hfits, rfl⟩ := EntryInfo.toRecord_eq_ok.mp hrecord
    obtain ⟨_, _, hfirst, hlater⟩ := bind_eq_ok.mp hrun
    obtain ⟨hwhole, rfl⟩ := (writeRecordWithAddedData_eq_ok first.payload.bounded).mp hfirst
    obtain ⟨hrecords, hfinal⟩ := writeFragments_eq_ok.mp hlater
    exact ⟨⟨hname, hfits⟩, ⟨hwhole, hrecords⟩, hfinal⟩
  · rintro ⟨⟨hname, hfits⟩, ⟨hwhole, hrecords⟩, hfinal⟩
    refine ⟨info.header.fixed, betweenRecords base written state, ofResult_eq_ok.mpr
      ⟨EntryInfo.toRecord_eq_ok.mpr ⟨hname, hfits, rfl⟩, rfl⟩, bind_eq_ok.mpr ⟨(), _,
        (writeRecordWithAddedData_eq_ok first.payload.bounded).mpr ⟨hwhole, rfl⟩, ?_⟩⟩
    exact writeFragments_eq_ok.mpr ⟨hrecords, hfinal⟩

/-- An entry in pieces leaves a draft for each of them. -/
theorem isDraftedAs_of_pieces [ByteSource ι] {first : Piece} {later : List Piece}
    (hrun : packEntry info (.pieces first later : Packing ι) (betweenRecords base written state)
      = .ok () final) :
    ∃ header drafts,
      IsDraftedAs info ((first :: later).flatMap fun piece => piece.payload.bytes) header drafts ∧
      betweenRecords base (written ++ segmentBytes ((header :: drafts).map Draft.segment)) state
        = final := by
  obtain ⟨⟨hname, -⟩, hrecords, hfinal⟩ := packPieces_eq_ok.mp hrun
  obtain ⟨hfits, hmore⟩ := List.forall_mem_cons.mp hrecords
  -- the file header is the first draft, and each further piece has one of its own
  have hall := forall_mem_fragmentDrafts hmore
  obtain ⟨hkind, hdata⟩ :=
    (first.mark (!later.isEmpty) info.header.fixed).announcing_frame first.payload.bytes
  have hmark : (Draft.whole (first.mark (!later.isEmpty) info.header.fixed)
      first.payload.bytes).record.isContinued = !later.isEmpty :=
    (Record.isContinued_announcing _ _).trans (first.isContinued_mark _ rfl)
  refine ⟨.whole (first.mark (!later.isEmpty) info.header.fixed) first.payload.bytes,
    fragmentDrafts later, ⟨hname, hkind, hdata, fun draft hmem => (hall draft hmem).1, ?_, ?_, ?_⟩,
    hfinal⟩
  · exact List.forall_mem_cons.mpr ⟨Draft.fits_whole first.payload.bounded hfits,
      fun draft hmem => (hall draft hmem).2⟩
  · rw [List.map_cons, hmark, continued_fragmentDrafts]
  · rw [List.flatMap_cons, List.flatMap_cons, flatMap_payload_fragmentDrafts,
      Draft.payload_whole first.payload.bounded]

/-- **Whatever the way**, an entry that was packed leaves its drafts. -/
theorem isDraftedAs_of_packEntry [ByteSource ι] {packing : Packing ι} {content : List UInt8}
    (hprovides : packing.Provides content)
    (hsize : ∀ size, info.unpackedSize? = some size → size.toNat = content.length)
    (hrun : packEntry info packing (betweenRecords base written state) = .ok () final) :
    ∃ first later next, IsDraftedAs info content first later ∧
      betweenRecords base (written ++ segmentBytes ((first :: later).map Draft.segment)) next
        = final := by
  cases packing with
  | whole slice =>
    obtain ⟨first, hdrafts, hfinal⟩ := isDraftedAs_of_addFile hrun
    obtain rfl : content = slice.bytes := hprovides
    exact ⟨first, [], _, hdrafts, by
      rw [List.map_singleton, segmentBytes_cons, segmentBytes_nil, List.append_nil]
      exact hfinal⟩
  | copied input =>
    obtain ⟨first, next, hdrafts, hfinal⟩ := isDraftedAs_of_copy hprovides hsize hrun
    exact ⟨first, [], next, hdrafts, by
      rw [List.map_singleton, segmentBytes_cons, segmentBytes_nil, List.append_nil]
      exact hfinal⟩
  | pieces first later =>
    obtain ⟨header, drafts, hdrafts, hfinal⟩ := isDraftedAs_of_pieces hrun
    obtain rfl : content = (first :: later).flatMap fun piece => piece.payload.bytes := hprovides
    exact ⟨header, drafts, _, hdrafts, hfinal⟩

/-! ## Packing on streams that are written alike -/

section Simulations

variable [ByteSink σ] [Seekable σ] [ByteSink τ] [Seekable τ] {streams : σ → τ → Prop}

omit [ByteSink σ] [Seekable σ] [ByteSink τ] [Seekable τ] in
/-- The check is passed by both or by none. -/
theorem simulates_expectPacker (allowed : List PackerState) (call : String) :
    Simulates (Related streams) (expectPacker allowed call) (expectPacker allowed call) := by
  refine simulates_state.bind fun state => ?_
  rcases state.mode with _ | _ | _
  case writing => exact simulates_require _ _
  all_goals exact .throw _

/-- **An archive is started** alike on streams that are written alike. -/
theorem simulates_initArchive (h : WritesAlike streams) :
    Simulates (Related streams) initArchive initArchive := by
  have hfresh : Simulates (Related streams) (expectFresh "init_archive")
      (expectFresh "init_archive") := by
    refine simulates_state.bind fun state => ?_
    rcases state.mode with _ | _ | _
    case writing => exact simulates_require _ _
    all_goals exact .pure ()
  exact hfresh.bind fun _ => (simulates_startWriting h).bind fun _ =>
    (simulates_ofResult _).bind fun _ =>
    (CallWith.simulates_withValue _ (simulates_writeRecord h)).bind fun _ => simulates_update _

/-- **A file is added** alike on streams that are written alike. -/
theorem simulates_addFile (h : WritesAlike streams) (info : EntryInfo) (content : List UInt8) :
    Simulates (Related streams) (addFile info content) (addFile info content) :=
  (simulates_expectPacker _ _).bind fun _ => (simulates_ofResult _).bind fun _ =>
    simulates_state.bind fun _ =>
    (CallWith.simulates_withValue _ (simulates_writeRecordWithAddedData h _)).bind fun _ =>
    simulates_update _

/-- **An entry begins** alike on streams that are written alike. -/
theorem simulates_beginFile (h : WritesAlike streams) (info : EntryInfo) :
    Simulates (Related streams) (beginFile info) (beginFile info) :=
  (simulates_expectPacker _ _).bind fun _ => (simulates_ofResult _).bind fun _ =>
    simulates_state.bind fun _ =>
    (CallWith.simulates_withValue _ (simulates_writeRecord h)).bind fun _ => simulates_update _

/-- **An entry ends** alike on streams that are written alike. -/
theorem simulates_endFile (h : WritesAlike streams) :
    Simulates (Related streams) endFile endFile :=
  (simulates_expectPacker _ _).bind fun _ => (simulates_finishAddedData h).bind fun _ =>
    simulates_update _

/-- Fragments are written alike on streams that are written alike. -/
theorem simulates_writeFragments (h : WritesAlike streams) (pieces : List Piece) :
    Simulates (Related streams) (writeFragments pieces) (writeFragments pieces) := by
  induction pieces with
  | nil => exact .pure ()
  | cons piece more ih =>
    exact (CallWith.simulates_withValue _ (simulates_writeRecordWithAddedData h _)).bind fun _ => ih

variable [ByteSource ι]

/-- A round of copying from the same stream does the same. -/
theorem simulates_insertRound (h : WritesAlike streams) (count : Nat) :
    Simulates (Paired Eq streams) (insertRound count : CallWith (CopySource ι) σ (Option Unit))
      (insertRound count) := by
  refine (CallWith.simulates_onValue (.refl (fetch count))).bind fun fetched? => ?_
  rcases fetched? with _ | (_ | ⟨byte, bytes⟩)
  · exact .pure _
  · exact .pure _
  · exact (simulates_lift (simulates_writeAddedData h _)).bind fun _ =>
      (CallWith.simulates_onValue (.refl (countBytes _))).bind fun _ => .pure _

/-- **A stream is copied** alike into streams that are written alike. -/
theorem simulates_insertFileData (h : WritesAlike streams) :
    Simulates (Paired Eq streams) (insertFileData : CallWith (CopySource ι) σ Unit)
      insertFileData :=
  (simulates_lift (simulates_expectPacker _ _)).bind fun _ =>
    (simulates_lift simulates_state).bind fun _ =>
    (Simulates.repeatUntil (simulates_insertRound h _)).bind fun _ =>
    simulates_lift (simulates_update _)

/-- **An entry is packed** alike. -/
theorem simulates_packEntry (h : WritesAlike streams) (info : EntryInfo) (packing : Packing ι) :
    Simulates (Related streams) (packEntry info packing) (packEntry info packing) := by
  cases packing with
  | whole slice => exact simulates_addFile h info slice.bytes
  | copied input =>
    exact (simulates_beginFile h info).bind fun _ =>
      (CallWith.simulates_withValue _ (simulates_insertFileData h)).bind fun _ =>
      simulates_endFile h
  | pieces first later =>
    exact (simulates_ofResult _).bind fun _ =>
      (CallWith.simulates_withValue _ (simulates_writeRecordWithAddedData h _)).bind fun _ =>
      simulates_writeFragments h later

end Simulations

end Archive

end RecordArchive
