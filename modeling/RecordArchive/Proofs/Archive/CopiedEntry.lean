import RecordArchive.Proofs.Archive.Contradiction
import RecordArchive.Proofs.Archive.RoundTrip

/-! # A copied entry and its stated length

The length of an entry that is copied from a stream stands in two places. The record announces it in
front of the payload, and there it is corrected when the entry is sealed; the metadata states it in
the data of the record, and there it stays. So the records of a sealed entry are sound whatever came
out of the stream, and only the metadata may be wrong about them: then the content is delivered and
refused.

* `EntryInfo.kept` is the content that is stored, and `EntryInfo.IsMetBy` says when the metadata is
  right about it.
* `Archive.exists_ok_of_packCopy`: a copied entry can be sealed as soon as there is room for the
  content.
* `Archive.givesKept_of_packCopy`: an entry that was copied and sealed is extracted as it was stored,
  and what comes of the extraction is decided by the metadata alone. -/

namespace RecordArchive

open Program Call

variable {ι ρ σ τ : Type}

/-! ## The stated length -/

namespace EntryInfo

variable {info : EntryInfo} {content : List UInt8}

/-- **The stated length is met** by content that is at least as long, and only by empty content if it
is zero. -/
def IsMetBy (info : EntryInfo) (content : List UInt8) : Prop :=
  ∀ size, info.unpackedSize? = some size →
    size.toNat ≤ content.length ∧ (size.toNat = 0 → content = [])

/-- What is kept has the stated length if that is met, and only then. -/
theorem isMetBy_iff : info.IsMetBy content ↔
    ∀ size, info.unpackedSize? = some size → size.toNat = (info.kept content).length := by
  refine forall₂_congr fun size hsize => ?_
  rw [kept, hsize, Option.getD_some]
  by_cases hpos : 0 < size.toNat
  · -- a length that is announced cuts the content
    rw [if_pos hpos, List.length_take]
    omega
  · rw [if_neg hpos, ← List.length_eq_zero_iff]
    omega

/-- All the content is kept if it does not meet the stated length. -/
theorem kept_of_not_isMetBy (h : ¬ info.IsMetBy content) : info.kept content = content := by
  unfold kept
  split
  next hpos =>
    refine List.take_of_length_le (Nat.le_of_not_lt fun hlt => h fun size hsize => ?_)
    rw [hsize, Option.getD_some] at hpos hlt
    exact ⟨Nat.le_of_lt hlt, fun hzero => absurd hzero (Nat.ne_of_gt hpos)⟩
  next => rfl

/-- The metadata of an entry without a checksum refuses what is kept of content that does not meet the
stated length. -/
theorem verify_kept_of_not_isMetBy {size : UInt64} (hsize : info.unpackedSize? = some size)
    (h : ¬ info.IsMetBy content) :
    info.normalForm.verify (EntryProgress.consume {} (info.kept content))
      = .error (.invalidData (.entrySize info.name size.toNat content.length)) := by
  have hne : size.toNat ≠ content.length := by
    intro heq
    refine h (isMetBy_iff.mpr fun found hfound => ?_)
    obtain rfl : size = found := Option.some.inj (hsize.symm.trans hfound)
    rw [kept_of_not_isMetBy h, heq]
  have hstated : info.normalForm.unpackedSize? = some size := hsize
  rw [kept_of_not_isMetBy h, verify, hstated, EntryProgress.consume, Nat.zero_add]
  exact if_pos (bne_iff_ne.mpr hne)

end EntryInfo

namespace Archive

/-! ## Packing one entry -/

/-- Packs an archive with one entry, whose content is copied from a stream. -/
def packCopy [ByteSource ι] [ByteSink σ] [Seekable σ] (info : EntryInfo) (input : ι) :
    Call σ Unit := do
  initArchive
  packEntry info (.copied input)

/-- **A copied entry** is the same on any storage as in memory. -/
theorem simulates_packCopy [ByteSource ι] [ByteSink σ] [Seekable σ]
    {keeps : σ → MemoryStream → Prop} (hk : IsStorage keeps) (info : EntryInfo) (input : ι) :
    Simulates (Related keeps) (packCopy info input) (packCopy info input) :=
  (simulates_initArchive hk.writesAlike).bind fun _ =>
    simulates_packEntry hk.writesAlike info (.copied input)

variable {info : EntryInfo} {content : List UInt8}

/-- What is left in memory: the marker, the archive header, and the record of the entry. -/
theorem isDraftedAs_of_packCopy [ByteSource ι] {input : ι} (hinput : Yields input content)
    {base kept : MemoryStream} {options : ArchiveOptions} {packed : Archive MemoryStream}
    (hpack : packCopy info input (Archive.ofStream base options) = .ok () packed)
    (hclose : close packed = .ok kept) :
    ∃ first, IsDraftedAs info (info.kept content) first [] ∧
      base.write (Marker.bytes ++ (ArchiveHeader.current.record.fixed.toBytes
        ++ segmentBytes [first.asRead])) = kept := by
  have hentry := (bind_of_ok (initArchive_ofStream base options)).symm.trans hpack
  obtain ⟨first, next, hdraft, rfl⟩ := isDraftedAs_kept hinput hentry
  refine ⟨first, hdraft, ?_⟩
  rw [close_betweenRecords, List.append_assoc] at hclose
  have hbytes : segmentBytes [first.asRead] = first.segment.toBytes := by
    rw [← List.map_singleton, segmentBytes_asRead, List.map_singleton, segmentBytes_cons,
      segmentBytes_nil, List.append_nil]
  rw [hbytes]
  exact Except.ok.inj hclose

/-! ### Copies that succeed -/

/-- **There is room for the content** behind a record: what is announced cuts it, or it fits the size
field. -/
def HasRoom (record : Record) (content : List UInt8) : Prop :=
  0 < record.addedSize.toNat ∨ content.length ≤ record.sizeWidth.maxValue

section Source

variable [ByteSource ι] {base : MemoryStream} {front : List UInt8} {state : HandleState}
  {record : Record}

/-- A round of copying succeeds if there is room for all the content. -/
theorem exists_ok_of_insertRound {count : Nat} (hcount : 0 < count) (hroom : HasRoom record content)
    {rest : List UInt8} {chunks : List (List UInt8)}
    {start : CopySource ι × Archive MemoryStream}
    (h : IsCopying base front state record content rest chunks start) :
    ∃ round final, insertRound count start = .ok round final := by
  obtain ⟨source, handle⟩ := start
  obtain ⟨hsource, rfl, -, rfl⟩ := h
  obtain ⟨fetched?, next, hfetch⟩ : ∃ fetched? next, fetch count source = .ok fetched? next := by
    unfold fetch
    split
    next => exact ⟨_, _, rfl⟩
    next error stream hread =>
      rw [if_pos (Yields.isDelivery.read_error hsource hread).1]
      exact ⟨_, _, rfl⟩
  rw [insertRound, bind_of_ok (CallWith.onValue_eq_ok.mpr ⟨next, hfetch, rfl⟩)]
  obtain ⟨rfl, -⟩ | ⟨taken, more, rfl, rfl, -, -⟩ := fetch_of_yields hcount hsource hfetch
  · exact ⟨none, _, rfl⟩
  rcases taken with _ | ⟨byte, bytes⟩
  · exact ⟨some (), _, rfl⟩
  · -- What was fetched fits behind the chunks so far, as the whole content does.
    have hchunk : ((⟨record, chunks⟩ : Draft).account (some (base.position + front.length))).fits
        (byte :: bytes) = true := by
      rw [PendingPayload.fits, Bool.or_eq_true, decide_eq_true_eq, decide_eq_true_eq]
      refine hroom.imp id fun hlength => ?_
      have hpayload : (⟨record, chunks⟩ : Draft).payload.length ≤ chunks.flatten.length := by
        unfold Draft.payload
        split
        · exact List.length_take_le' _ _
        · exact Nat.le_refl _
      rw [List.length_append, List.length_append] at hlength
      show (⟨record, chunks⟩ : Draft).payload.length + (byte :: bytes).length
        ≤ record.sizeWidth.maxValue
      omega
    have hwrite : writeAddedData (byte :: bytes) (insidePayload base front ⟨record, chunks⟩ state)
        = .ok () (insidePayload base front ((⟨record, chunks⟩ : Draft).add (byte :: bytes)) state) := by
      rw [writeAddedData_insidePayload, if_pos hchunk]
    exact ⟨none, _, bind_of_ok (lift_eq_ok.mpr ⟨_, hwrite, rfl⟩)⟩

/-- **Copying succeeds** if there is room for all the content. -/
theorem exists_ok_of_insertFileData {input : ι} (hinput : Yields input content)
    (hpacker : state.packer = .fileData) (hsize : record.hasAddedSize = true)
    (hrecord : (⟨record, []⟩ : Draft).Fits) (hroom : HasRoom record content) :
    ∃ final, CallWith.withValue { stream := input } insertFileData
      (insidePayload base front ⟨record, []⟩ state) = .ok () final := by
  have hcount : 0 < state.options.copySize := Nat.le_max_right _ 1
  have hloop : Outcome (fun _ _ => True) (fun _ _ => False)
      (repeatUntil (insertRound state.options.copySize) sourceBudget (insertRound_spends _)
        (({ stream := input } : CopySource ι), insidePayload base front ⟨record, []⟩ state)) := by
    refine Outcome.repeatUntil (fun pair : CopySource ι × Archive MemoryStream => ∃ left chunks,
      IsCopying base front state record content left chunks pair) ?_
      ⟨content, [], hinput, rfl, hrecord, rfl⟩
    rintro pair ⟨left, chunks, hpair⟩
    obtain ⟨round, final, hround⟩ := exists_ok_of_insertRound hcount hroom hpair
    obtain ⟨left, chunks, hfinal, -⟩ := isCopying_of_insertRound hcount hsize hpair hround
    rw [hround]
    cases round with
    | none => exact ⟨left, chunks, hfinal⟩
    | some value => exact trivial
  -- the repetition does not fail, and nothing before or behind it does
  have hexpect : expectPacker [.fileData] "insert_file_data"
      (insidePayload base front ⟨record, []⟩ state)
        = .ok () (insidePayload base front ⟨record, []⟩ state) :=
    (expectPacker_eq_ok rfl).mpr ⟨List.mem_singleton.mpr hpacker, rfl⟩
  have hstate : Call.state (insidePayload base front ⟨record, []⟩ state)
      = .ok (insidePayload base front ⟨record, []⟩ state).state
        (insidePayload base front ⟨record, []⟩ state) := rfl
  cases hrun : repeatUntil (insertRound state.options.copySize) sourceBudget (insertRound_spends _)
      (({ stream := input } : CopySource ι), insidePayload base front ⟨record, []⟩ state) with
  | error error final => exact (hloop.of_error hrun).elim
  | ok value final =>
    obtain ⟨source, handle⟩ := final
    refine ⟨⟨handle.stream, { handle.state with packer := .afterFileData }⟩,
      CallWith.withValue_eq_ok.mpr ⟨source, ?_⟩⟩
    rw [insertFileData, bind_of_ok (lift_eq_ok.mpr ⟨_, hexpect, rfl⟩),
      bind_of_ok (lift_eq_ok.mpr ⟨_, hstate, rfl⟩)]
    exact (bind_of_ok hrun).trans (lift_eq_ok.mpr ⟨_, rfl, rfl⟩)

/-- **A copied entry can be sealed** if name, file header and record fit and there is room for the
content. -/
theorem exists_ok_of_copied {input : ι} (hinput : Yields input content) {written : List UInt8}
    (hpacker : state.packer ∈ [PackerState.idle, .fileHeader])
    (hname : (Text.Utf8.bytesOf info.name).length ≤ 65535) (hheader : info.header.Fits)
    (hopening : (openingRecord state.options info).Fits)
    (hroom : HasRoom (openingRecord state.options info) content) :
    ∃ chunks, packEntry info (.copied input) (betweenRecords base written state)
      = .ok () (betweenRecords base
          (written ++ (⟨openingRecord state.options info, chunks⟩ : Draft).segment.toBytes)
          { state with currentFile? := none, packer := .fileHeader }) := by
  have hsize := (openingRecord_spec state.options info).2.2.2.1
  have hstart := Draft.fits_start hopening
  have hbegin := (@beginFile_eq_ok base written state info _).mpr
    ⟨hpacker, ⟨hname, hheader⟩, hopening, rfl⟩
  obtain ⟨copied, hinsert⟩ := @exists_ok_of_insertFileData _ _ _ base written
    { state with currentFile? := some info, packer := .fileData } _ _ hinput rfl hsize hstart hroom
  obtain ⟨chunks, hchunks, -, hcopied⟩ := insertFileData_of_ok hinput hsize hstart hinsert
  rw [← hcopied] at hinsert
  have hend := (@endFile_eq_ok base written ⟨openingRecord state.options info, chunks⟩
    { state with currentFile? := some info, packer := .afterFileData } _ hchunks hsize).mpr
      ⟨List.mem_singleton.mpr rfl, rfl⟩
  exact ⟨chunks, (bind_of_ok hbegin).trans ((bind_of_ok hinsert).trans hend)⟩

/-- An archive with a copied entry can be packed and closed on the same conditions. -/
theorem exists_ok_of_packCopy {input : ι} (hinput : Yields input content) (base : MemoryStream)
    (options : ArchiveOptions) (hname : (Text.Utf8.bytesOf info.name).length ≤ 65535)
    (hheader : info.header.Fits) (hopening : (openingRecord options info).Fits)
    (hroom : HasRoom (openingRecord options info) content) :
    ∃ packed kept, packCopy info input (Archive.ofStream base options) = .ok () packed ∧
      close packed = .ok kept := by
  obtain ⟨chunks, hentry⟩ := @exists_ok_of_copied _ _ _ _ base
    { options, packer := .fileHeader } _ hinput
    (Marker.bytes ++ ArchiveHeader.current.record.fixed.toBytes)
    (List.mem_cons_of_mem _ List.mem_cons_self) hname hheader hopening hroom
  exact ⟨_, _, (bind_of_ok (initArchive_ofStream base options)).trans hentry, close_betweenRecords⟩

end Source

/-! ## Extracting it -/

/-- **A handle gives the kept content**, in front of the entry and to any sink: all of it is delivered,
with a success if the stated length is met, and otherwise with a failure that says which length is
stated and which one was found. -/
def GivesKept [ByteSource σ] [ByteSink τ] (holds : τ → List UInt8 → Prop) (info : EntryInfo)
    (content : List UInt8) (handle : Archive σ) : Prop :=
  ∀ sink held, holds sink held → ∃ (copy : CopySink τ) (left : Archive σ),
    holds copy.stream (held ++ info.kept content) ∧ copy.total = (info.kept content).length ∧
    (info.IsMetBy content →
      extract ((⟨sink, 0⟩ : CopySink τ), handle) = .ok () (copy, left) ∧
      Yields left.stream [] ∧ left.state.IsBetweenEntries) ∧
    ∀ size, info.unpackedSize? = some size → ¬ info.IsMetBy content →
      extract ((⟨sink, 0⟩ : CopySink τ), handle)
        = .error (.invalidData (.entrySize info.name size.toNat content.length)) (copy, left)

variable [ByteSource σ] [ByteSink τ] {holds : τ → List UInt8 → Prop}

/-- The record of a copied entry gives what was kept. -/
theorem givesKept_of_isDraftedAs (hsink : IsCollector holds) (hcrc : info.crc? = none)
    {first : Draft} (hdraft : IsDraftedAs info (info.kept content) first []) {handle : Archive σ}
    (hstream : Yields handle.stream (segmentBytes [first.asRead]))
    (hstate : handle.state.IsBetweenEntries) : GivesKept holds info content handle := by
  intro sink held hheld
  have hcontent : contentOf [first.asRead] = info.kept content := hdraft.content_asRead
  rw [← List.append_nil (segmentBytes _)] at hstream
  by_cases hmet : info.IsMetBy content
  · have hentry := hdraft.isEntry (EntryInfo.isMetBy_iff.mp hmet) fun crc hstated => by
      rw [hcrc] at hstated
      cases hstated
    obtain ⟨copy, left, hrun, hcopy, htotal, hrest, hbetween⟩ :=
      extract_of_isEntry hsink hheld hstate hstream hentry
    rw [← hcontent]
    exact ⟨copy, left, hcopy, htotal, fun _ => ⟨hrun, hrest, hbetween⟩,
      fun _ _ hnot => absurd hmet hnot⟩
  · -- A length that is not met is stated, and the comparison with it fails.
    obtain ⟨size, hstated⟩ := Classical.not_forall.mp hmet
    obtain ⟨hsize, -⟩ := Classical.not_imp.mp hstated
    have hverify := EntryInfo.verify_kept_of_not_isMetBy hsize hmet
    rw [← hcontent] at hverify
    obtain ⟨copy, left, hrun, hcopy, htotal⟩ := extract_of_contradiction hsink hheld hstate hstream
      hdraft.ofRecord_asRead hdraft.isSound_asRead hdraft.isContinuation_asRead hverify
    rw [← hcontent]
    refine ⟨copy, left, hcopy, htotal, fun h => absurd h hmet, fun found hfound _ => ?_⟩
    obtain rfl : size = found := Option.some.inj (hsize.symm.trans hfound)
    exact hrun

/-- **A copied entry is extracted as it was sealed.** An entry without a checksum is copied from a
stream, with or without a stated length, and it is sealed and closed on a stream that keeps what is
written. Then from the bytes that were written, behind anything that holds no marker and in transfers
of any length, extraction delivers what was kept: the content, cut to the stated length if that is not
zero. It succeeds if there is no stated length or the content meets it, and otherwise it fails with the
length that is stated and the one that was found. -/
theorem givesKept_of_packCopy [ByteSource ι] [ByteSink ρ] [Seekable ρ] [ByteSink σ] [Seekable σ]
    (hsink : IsCollector holds) {keeps : ρ → MemoryStream → Prop} (hk : IsStorage keeps)
    (hcrc : info.crc? = none) {input : ι} (hinput : Yields input content) {stream : ρ}
    {base : MemoryStream} (hstream : keeps stream base) {options : ArchiveOptions}
    {packed : Archive ρ} {final : ρ}
    (hpack : packCopy info input (Archive.ofStream stream options) = .ok () packed)
    (hclose : close packed = .ok final) :
    ∃ produced, keeps final (base.write produced) ∧
      ∀ stub : List UInt8, ¬ Marker.bytes <:+: stub → ∀ source : σ, Yields source (stub ++ produced) →
        ∀ readingOptions, ∃ opened unpacking,
          startReading (Archive.ofStream source readingOptions) = .ok () opened ∧
          readArchiveHeader opened = .ok ArchiveHeader.current unpacking ∧
          GivesKept holds info content unpacking := by
  -- What happens on the stream happens in memory, where every byte is known.
  have hresult := simulates_packCopy hk info input (Archive.ofStream stream options)
    (Archive.ofStream base options) ⟨hstream, rfl⟩
  rw [hpack] at hresult
  obtain ⟨memory, hmemory, hrelated⟩ := hresult.exists_ok_right
  obtain ⟨kept, hkept, hfinal⟩ := close_of_related hk hrelated hclose
  obtain ⟨first, hdraft, rfl⟩ := isDraftedAs_of_packCopy hinput hmemory hkept
  refine ⟨_, hfinal, fun stub hstub source hsource readingOptions => ?_⟩
  obtain ⟨opened, unpacking, hstart, hheader, hrest, hbetween⟩ :=
    startReading_of_yields hstub hsource readingOptions
  exact ⟨opened, unpacking, hstart, hheader,
    givesKept_of_isDraftedAs hsink hcrc hdraft hrest hbetween⟩

/-- An entry with a stated length of two bytes can be sealed in memory whatever is copied. -/
theorem exists_ok_of_packCopy_two (content : List UInt8) : ∃ packed kept,
    packCopy ((EntryInfo.regular "a").withUnpackedSize 2) (MemoryStream.ofList content)
        (Archive.ofStream ({} : MemoryStream) {}) = .ok () packed ∧
      close packed = .ok kept :=
  exists_ok_of_packCopy (MemoryStream.yields _) {} {} (by decide +kernel)
    ⟨fun _ => Nat.zero_le _, by decide +kernel⟩ ⟨by decide +kernel, by decide +kernel⟩
    (.inl (by decide +kernel))

/-- Of three bytes the two that are stated are kept and extracted. -/
theorem givesKept_of_packCopy_longer :
    ∃ (packed : Archive MemoryStream) (final : MemoryStream),
      packCopy ((EntryInfo.regular "a").withUnpackedSize 2) (MemoryStream.ofList [1, 2, 3])
        (Archive.ofStream ({} : MemoryStream) {}) = .ok () packed ∧
      close packed = .ok final ∧ ∃ opened unpacking,
        startReading (Archive.ofStream (MemoryStream.ofList final.toList) {}) = .ok () opened ∧
        readArchiveHeader opened = .ok ArchiveHeader.current unpacking ∧
        ∃ (copy : CopySink BoundedSink) (left : Archive MemoryStream),
          extract ((⟨{}, 0⟩ : CopySink BoundedSink), unpacking) = .ok () (copy, left) ∧
          copy.stream.bytes.toList = [1, 2] := by
  obtain ⟨packed, final, hpack, hclose⟩ := exists_ok_of_packCopy_two [1, 2, 3]
  obtain ⟨produced, hproduced, hread⟩ := givesKept_of_packCopy (σ := MemoryStream)
    BoundedSink.isCollector isStorage_eq rfl (MemoryStream.yields _) rfl hpack hclose
  have hnil : ¬ Marker.bytes <:+: [] := by decide
  have hsource : Yields (MemoryStream.ofList final.toList) ([] ++ produced) := by
    rw [hproduced, MemoryStream.toList_write_empty]
    exact MemoryStream.yields _
  obtain ⟨opened, unpacking, hstart, hheader, hgives⟩ := hread [] hnil _ hsource {}
  obtain ⟨copy, left, hcopy, -, hok, -⟩ := hgives {} [] ⟨rfl, rfl⟩
  have hmet : ((EntryInfo.regular "a").withUnpackedSize 2).IsMetBy [1, 2, 3] :=
    EntryInfo.isMetBy_iff.mpr fun size hsize => by
      cases hsize
      decide +kernel
  exact ⟨packed, final, hpack, hclose, opened, unpacking, hstart, hheader, copy, left, (hok hmet).1,
    hcopy.2⟩

/-- **A stated length that is not met**: one byte is copied where two are stated. All of packing
succeeds, the byte is delivered, and the extraction fails. -/
theorem extract_of_packCopy_shorter :
    ∃ (packed : Archive MemoryStream) (final : MemoryStream),
      packCopy ((EntryInfo.regular "a").withUnpackedSize 2) (MemoryStream.ofList [1])
        (Archive.ofStream ({} : MemoryStream) {}) = .ok () packed ∧
      close packed = .ok final ∧ ∃ opened unpacking,
        startReading (Archive.ofStream (MemoryStream.ofList final.toList) {}) = .ok () opened ∧
        readArchiveHeader opened = .ok ArchiveHeader.current unpacking ∧
        ∃ (copy : CopySink BoundedSink) (left : Archive MemoryStream),
          extract ((⟨{}, 0⟩ : CopySink BoundedSink), unpacking)
            = .error (.invalidData (.entrySize "a" 2 1)) (copy, left) ∧
          copy.stream.bytes.toList = [1] := by
  obtain ⟨packed, final, hpack, hclose⟩ := exists_ok_of_packCopy_two [1]
  obtain ⟨first, hdraft, hfinal⟩ := isDraftedAs_of_packCopy (MemoryStream.yields _) hpack hclose
  have hnil : ¬ Marker.bytes <:+: [] := by decide
  have hsource : Yields (MemoryStream.ofList final.toList) ([] ++ (Marker.bytes
      ++ (ArchiveHeader.current.record.fixed.toBytes ++ segmentBytes [first.asRead]))) := by
    rw [← hfinal, MemoryStream.toList_write_empty]
    exact MemoryStream.yields _
  obtain ⟨opened, unpacking, hstart, hheader, hrest, hbetween⟩ :=
    startReading_of_yields hnil hsource {}
  obtain ⟨copy, left, hcopy, -, -, hfails⟩ :=
    givesKept_of_isDraftedAs BoundedSink.isCollector rfl hdraft hrest hbetween {} [] ⟨rfl, rfl⟩
  have hmet : ¬ ((EntryInfo.regular "a").withUnpackedSize 2).IsMetBy [1] := fun h =>
    absurd (h 2 rfl).1 (by decide)
  exact ⟨packed, final, hpack, hclose, opened, unpacking, hstart, hheader, copy, left,
    hfails 2 rfl hmet, hcopy.2⟩

end Archive

end RecordArchive
