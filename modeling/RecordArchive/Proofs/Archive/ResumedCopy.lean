import RecordArchive.Proofs.Archive.ChunkSize
import RecordArchive.Proofs.Archive.CopiedEntry
import RecordArchive.Proofs.Archive.EntryStart
import RecordArchive.Proofs.Archive.PacedCopy
import RecordArchive.Stream.Faults

/-! # Copies that are cut and resumed

An entry is copied from streams: in reads that are as long as the caller's buffer or shorter, and from
one stream after another if a read fails. What is left is decided by the content alone.

* `ByteSource.Gives`: what a stream gives to a copy, and how it ends.
* `Archive.Supplies`: streams that give the content together, each of them up to a failure but for the
  last.
* `Archive.insertInputs_copied`: in memory, what is copied is the content, however it is cut.
* `Archive.packResumed_eq_ok`: when an entry is packed, and the bytes of it.
* `Archive.packResumed_iff_addFile`: when it could have been packed at once.
* `Archive.agree_packResumed`: **on any seekable stream that does not fail** copies of the same content
  succeed together and leave the same, whatever the buffers and the streams, and the same as a call
  that is given the content at once, if its length is stated and needs no wide field. -/

namespace RecordArchive

open Program Call

variable {ι κ σ τ : Type}

/-! ## What a stream gives -/

/-- **What a stream gives** to reads of a number of bytes: content in parts, and then its end or a
failure. An interruption gives nothing and the stream is read again. -/
inductive ByteSource.Gives [ByteSource ι] (count : Nat) : ι → List UInt8 → Option IoError → Prop
  | ended {stream rest : ι} (hrun : read count stream = .ok [] rest) : Gives count stream [] none
  | failed {stream rest : ι} {error : IoError} (hrun : read count stream = .error error rest)
    (hsettled : error.isInterrupted = false) : Gives count stream [] (some error)
  | interrupted {stream rest : ι} {error : IoError} {content : List UInt8} {ending : Option IoError}
    (hrun : read count stream = .error error rest) (hagain : error.isInterrupted = true)
    (hrest : Gives count rest content ending) : Gives count stream content ending
  | part {stream rest : ι} {byte : UInt8} {bytes content : List UInt8} {ending : Option IoError}
    (hrun : read count stream = .ok (byte :: bytes) rest) (hrest : Gives count rest content ending) :
    Gives count stream (byte :: bytes ++ content) ending

/-- Every stream gives something, since its budget is spent. -/
theorem ByteSource.exists_gives [ByteSource ι] (count : Nat) (stream : ι) :
    ∃ content ending, Gives count stream content ending := by
  induction hm : readBudget stream using Nat.strongRecOn generalizing stream with
  | _ bound ih =>
    cases hrun : read count stream with
    | ok bytes rest =>
      rcases bytes with _ | ⟨byte, bytes⟩
      · exact ⟨_, _, .ended hrun⟩
      · have hlt := readBudget_ok hrun
        rw [List.length_cons] at hlt
        obtain ⟨content, ending, hrest⟩ := ih _ (by omega) rest rfl
        exact ⟨_, _, .part hrun hrest⟩
    | error error rest =>
      cases hagain : error.isInterrupted with
      | false => exact ⟨_, _, .failed hrun hagain⟩
      | true =>
        have hlt := readBudget_error hrun
        rw [hagain, Bool.toNat_true] at hlt
        obtain ⟨content, ending, hrest⟩ := ih _ (by omega) rest rfl
        exact ⟨_, _, .interrupted hrun hagain hrest⟩

/-- A stream that does not fail gives its content to reads of any length. -/
theorem Yields.gives [ByteSource ι] {stream : ι} {content : List UInt8} (h : Yields stream content)
    {count : Nat} (hcount : count ≠ 0) : ByteSource.Gives count stream content none := by
  obtain ⟨found, ending, hgives⟩ := ByteSource.exists_gives count stream
  suffices hsame : found = content ∧ ending = none by
    rwa [hsame.1, hsame.2] at hgives
  induction hgives generalizing content with
  | ended hrun =>
    obtain ⟨rest, rfl, -, hend⟩ := Yields.isDelivery.read_ok h hrun
    exact ⟨((hend rfl).resolve_left hcount).symm, rfl⟩
  | failed hrun hsettled =>
    rw [(Yields.isDelivery.read_error h hrun).1] at hsettled
    cases hsettled
  | interrupted hrun hagain hrest ih => exact ih (Yields.isDelivery.read_error h hrun).2
  | part hrun hrest ih =>
    obtain ⟨rest, rfl, hmore, -⟩ := Yields.isDelivery.read_ok h hrun
    obtain ⟨rfl, hending⟩ := ih hmore
    exact ⟨rfl, hending⟩

/-- The flag of a narrow size is set anew when a payload is announced. -/
theorem RecordFlags.announce_or_narrow (flags : UInt8) :
    (flags ||| narrowSize) &&& ~~~sizeMask = flags &&& ~~~sizeMask ∧
      has (flags ||| narrowSize) payloadCrc = has flags payloadCrc := by
  revert flags
  apply forall_of_fin
  decide +kernel

/-- A narrow size that was announced makes no difference to the announcement of a payload. -/
theorem Record.announcing_or_narrow (record : Record) (size : UInt64) {payload : List UInt8}
    (hne : payload ≠ []) :
    ({ record with flags := record.flags ||| RecordFlags.narrowSize, addedSize := size } :
      Record).announcing payload = record.announcing payload := by
  obtain ⟨hflags, hcrc⟩ := RecordFlags.announce_or_narrow record.flags
  have hsame : ({ record with flags := record.flags ||| RecordFlags.narrowSize, addedSize := size } :
      Record).hasAddedCrc = record.hasAddedCrc := hcrc
  rw [announcing_of_ne_nil hne, announcing_of_ne_nil hne, hsame]
  dsimp only
  rw [hflags]

namespace Archive

/-- **Streams that supply content** to a copy that is resumed with the next one after each failure: the
last one ends. -/
inductive Supplies [ByteSource ι] (count : Nat) : List ι → List UInt8 → Prop
  | last {input : ι} {content : List UInt8} (h : ByteSource.Gives count input content none) :
    Supplies count [input] content
  | more {input : ι} {inputs : List ι} {content rest : List UInt8} {error : IoError}
    (h : ByteSource.Gives count input content (some error)) (hrest : Supplies count inputs rest) :
    Supplies count (input :: inputs) (content ++ rest)

/-! ## Programs -/

section Programs

variable [ByteSource ι] [ByteSink σ]

/-- Copies one stream after another into the open content: when a stream fails, the copy is resumed with
the next one. -/
def insertInputs : List ι → Call σ Unit
  | [] => pure ()
  | input :: inputs => fun handle =>
    match CallWith.withValue ({ stream := input } : CopySource ι) insertFileData handle with
    | .error (.read _) left => insertInputs inputs left
    | result => result

/-- The first stream is copied as far as it goes, and then the others are. -/
theorem insertInputs_cons (input : ι) (inputs : List ι) (handle : Archive σ) :
    insertInputs (input :: inputs) handle
      = match CallWith.withValue ({ stream := input } : CopySource ι) insertFileData handle with
        | .error (.read _) left => insertInputs inputs left
        | result => result := rfl

/-- Packs an entry whose content is copied from one stream after another. -/
def packResumed [Seekable σ] (info : EntryInfo) (inputs : List ι) : Call σ Unit := do
  beginFile info
  insertInputs inputs
  endFile

end Programs

/-! ## Copying in memory -/

section Memory

variable [ByteSource ι] {base : MemoryStream} {front done content : List UInt8}
  {state : HandleState} {record : Record}

/-- The failure of a copy for which there is no room. -/
def noRoom (record : Record) : ArchiveError :=
  .invalidParameter (.payloadTooLong record.sizeWidth.length)

/-- The result of a copy from a stream that ends in the given way. -/
def endedBy {α : Type} (ending : Option IoError) (final : α) : EStateM.Result ArchiveError α Unit :=
  match ending with
  | none => .ok () final
  | some error => .error (.read error) final

/-- Only the chunks in a row count for what is inside a payload. -/
theorem insidePayload_congr {chunks chunks' : List (List UInt8)}
    (h : chunks.flatten = chunks'.flatten) :
    insidePayload base front ⟨record, chunks⟩ state
      = insidePayload base front ⟨record, chunks'⟩ state := by
  have hpayload : (⟨record, chunks⟩ : Draft).payload = (⟨record, chunks'⟩ : Draft).payload := by
    rw [Draft.payload, Draft.payload, h]
  have hrecord : (⟨record, chunks⟩ : Draft).record = (⟨record, chunks'⟩ : Draft).record := rfl
  rw [insidePayload, insidePayload, Draft.account_congr hrecord hpayload, hrecord, hpayload]

/-- Room for more is room for less. -/
theorem HasRoom.of_append {rest : List UInt8} (h : HasRoom record (content ++ rest)) :
    HasRoom record content := by
  refine h.imp_right fun hlength => ?_
  rw [List.length_append] at hlength
  omega

/-- A chunk fits if there is room for what was copied so far and the chunk. -/
theorem fits_iff_hasRoom (offset? : Option Nat) (chunk : List UInt8) :
    ((⟨record, [done]⟩ : Draft).account offset?).fits chunk = true ↔
      HasRoom record (done ++ chunk) := by
  have hwritten (h : ¬ 0 < record.addedSize.toNat) :
      (⟨record, [done]⟩ : Draft).payload = done := by
    rw [Draft.payload, if_neg h, List.flatten_singleton]
  rw [PendingPayload.fits, Bool.or_eq_true, decide_eq_true_eq, decide_eq_true_eq, HasRoom,
    List.length_append]
  show (0 < record.addedSize.toNat ∨
    (⟨record, [done]⟩ : Draft).payload.length + chunk.length ≤ record.sizeWidth.maxValue) ↔ _
  by_cases hdeclared : 0 < record.addedSize.toNat
  · exact iff_of_true (.inl hdeclared) (.inl hdeclared)
  · rw [hwritten hdeclared]

/-- What a chunk does depends on whether there is room for it behind what was copied. -/
theorem writeAddedData_copied (chunk : List UInt8) :
    (HasRoom record (done ++ chunk) →
      writeAddedData chunk (insidePayload base front ⟨record, [done]⟩ state)
        = .ok () (insidePayload base front ⟨record, [done ++ chunk]⟩ state)) ∧
    (¬ HasRoom record (done ++ chunk) →
      writeAddedData chunk (insidePayload base front ⟨record, [done]⟩ state)
        = .error (noRoom record) (insidePayload base front ⟨record, [done]⟩ state)) := by
  have hfits := @fits_iff_hasRoom done record (some (base.position + front.length)) chunk
  have hchunks : [done, chunk].flatten = [done ++ chunk].flatten := by
    rw [List.flatten_cons, List.flatten_singleton, List.flatten_singleton]
  rw [writeAddedData_insidePayload]
  constructor
  · intro hroom
    rw [if_pos (hfits.mpr hroom)]
    exact congrArg (EStateM.Result.ok ()) (insidePayload_congr hchunks)
  · intro hfull
    rw [if_neg (hfits.not.mpr hfull)]
    rfl

/-- **A copy** leaves the content that the stream gives behind what was copied before, and ends as the
stream does. If there is no room for it the copy is refused. -/
theorem copyRounds_insidePayload {count : Nat} {stream : ι} {ending : Option IoError}
    (h : ByteSource.Gives count stream content ending) (hdone : HasRoom record done) (total : Nat) :
    (HasRoom record (done ++ content) → ∃ source,
      copyRounds count ((⟨stream, total⟩ : CopySource ι),
          insidePayload base front ⟨record, [done]⟩ state)
        = endedBy ending (source, insidePayload base front ⟨record, [done ++ content]⟩ state)) ∧
    (¬ HasRoom record (done ++ content) → ∃ final,
      copyRounds count ((⟨stream, total⟩ : CopySource ι),
          insidePayload base front ⟨record, [done]⟩ state)
        = .error (noRoom record) final) := by
  induction h generalizing done total with
  | ended hrun =>
    rw [copyRounds_apply, hrun, List.append_nil]
    exact ⟨fun _ => ⟨_, rfl⟩, fun hfull => absurd hdone hfull⟩
  | failed hrun hsettled =>
    rw [copyRounds_apply, hrun, List.append_nil]
    dsimp only
    rw [if_neg (Bool.eq_false_iff.mp hsettled)]
    exact ⟨fun _ => ⟨_, rfl⟩, fun hfull => absurd hdone hfull⟩
  | interrupted hrun hagain _ ih =>
    rw [copyRounds_apply, hrun]
    dsimp only
    rw [if_pos hagain]
    exact ih hdone total
  | @part _ _ byte bytes _ _ hrun _ ih =>
    obtain ⟨hwritten, hrefused⟩ := @writeAddedData_copied base front done state record (byte :: bytes)
    rw [copyRounds_apply, hrun, ← List.append_assoc]
    dsimp only
    by_cases hroom : HasRoom record (done ++ byte :: bytes)
    · rw [hwritten hroom]
      exact ih hroom _
    · -- What does not fit here does not fit with more behind it.
      rw [hrefused hroom]
      exact ⟨fun hall => absurd hall.of_append hroom, fun _ => ⟨_, rfl⟩⟩

/-- **Copying a stream** does what the copy does, and the packing goes on behind the content if the
stream has ended. -/
theorem insertFileData_copied {input : ι} {ending : Option IoError}
    (h : ByteSource.Gives state.options.copySize input content ending)
    (hpacker : state.packer = .fileData) (hdone : HasRoom record done) :
    (HasRoom record (done ++ content) →
      CallWith.withValue ({ stream := input } : CopySource ι) insertFileData
          (insidePayload base front ⟨record, [done]⟩ state)
        = endedBy ending (insidePayload base front ⟨record, [done ++ content]⟩
            { state with packer := if ending = none then .afterFileData else .fileData })) ∧
    (¬ HasRoom record (done ++ content) → ∃ final,
      CallWith.withValue ({ stream := input } : CopySource ι) insertFileData
          (insidePayload base front ⟨record, [done]⟩ state) = .error (noRoom record) final) := by
  have hexpect : expectPacker [.fileData] "insert_file_data"
      (insidePayload base front ⟨record, [done]⟩ state)
        = .ok () (insidePayload base front ⟨record, [done]⟩ state) :=
    (expectPacker_eq_ok rfl).mpr ⟨List.mem_singleton.mpr hpacker, rfl⟩
  have hstate : Call.state (insidePayload base front ⟨record, [done]⟩ state)
      = .ok (insidePayload base front ⟨record, [done]⟩ state).state
        (insidePayload base front ⟨record, [done]⟩ state) := rfl
  have hstart : insertFileData (({ stream := input } : CopySource ι),
      insidePayload base front ⟨record, [done]⟩ state)
        = (copyRounds state.options.copySize >>= fun _ => Call.lift (setPacker .afterFileData))
          (({ stream := input } : CopySource ι), insidePayload base front ⟨record, [done]⟩ state) := by
    rw [insertFileData, bind_of_ok (lift_eq_ok.mpr ⟨_, hexpect, rfl⟩),
      bind_of_ok (lift_eq_ok.mpr ⟨_, hstate, rfl⟩)]
    rfl
  obtain ⟨hcopied, hrefused⟩ := @copyRounds_insidePayload ι _ base front done content state record
    _ input ending h hdone 0
  constructor
  · intro hroom
    obtain ⟨source, hcopy⟩ := hcopied hroom
    cases ending with
    | none =>
      have hrun := hstart.trans (bind_of_ok hcopy)
      exact CallWith.withValue_of_ok hrun
    | some error =>
      have hrun := hstart.trans (bind_of_error hcopy)
      have hsame : { state with packer := .fileData } = state := by rw [← hpacker]
      rw [if_neg (Option.some_ne_none error), hsame]
      exact CallWith.withValue_of_error hrun
  · intro hfull
    obtain ⟨⟨source, final⟩, hcopy⟩ := hrefused hfull
    exact ⟨final, CallWith.withValue_of_error (hstart.trans (bind_of_error hcopy))⟩

/-- **A copy that is cut and resumed** leaves the content as one that is not. -/
theorem insertInputs_copied {inputs : List ι} (h : Supplies state.options.copySize inputs content)
    (hpacker : state.packer = .fileData) (hdone : HasRoom record done) :
    (HasRoom record (done ++ content) →
      insertInputs inputs (insidePayload base front ⟨record, [done]⟩ state)
        = .ok () (insidePayload base front ⟨record, [done ++ content]⟩
            { state with packer := .afterFileData })) ∧
    (¬ HasRoom record (done ++ content) → ∃ final,
      insertInputs inputs (insidePayload base front ⟨record, [done]⟩ state)
        = .error (noRoom record) final) := by
  induction h generalizing done with
  | last hgives =>
    obtain ⟨hcopied, hrefused⟩ := @insertFileData_copied _ _ base front _ _ _ record _ _ hgives
      hpacker hdone
    rw [insertInputs_cons]
    constructor
    · intro hroom
      rw [hcopied hroom]
      rfl
    · intro hfull
      obtain ⟨final, hrun⟩ := hrefused hfull
      rw [hrun]
      exact ⟨final, rfl⟩
  | @more input inputs content rest error hgives _ ih =>
    obtain ⟨hcopied, hrefused⟩ := @insertFileData_copied _ _ base front _ _ _ record _ _ hgives
      hpacker hdone
    rw [insertInputs_cons, ← List.append_assoc]
    by_cases hroom : HasRoom record (done ++ content)
    · -- The next stream goes on where this one has failed.
      have hsame : { state with packer := if some error = none then .afterFileData else .fileData }
          = state := by rw [if_neg (Option.some_ne_none error), ← hpacker]
      rw [hcopied hroom, hsame]
      exact ih hroom
    · obtain ⟨final, hrun⟩ := hrefused hroom
      rw [hrun]
      exact ⟨fun hall => absurd hall.of_append hroom, fun _ => ⟨final, rfl⟩⟩

end Memory

/-! ## Whole entries in memory -/

section Entries

variable [ByteSource ι] {info : EntryInfo} {content : List UInt8} {inputs : List ι}
  {handle final : Archive MemoryStream} {memory : MemoryStream} {state : HandleState} {record : Record}

/-- There is room behind an opening record for whatever is shorter than `2 ^ 64` bytes. -/
theorem hasRoom_openingRecord (options : ArchiveOptions) (info : EntryInfo)
    (hlength : content.length < UInt64.size) : HasRoom (openingRecord options info) content := by
  by_cases hdeclared : 0 < (openingRecord options info).addedSize.toNat
  · exact .inl hdeclared
  · -- Where no length is announced the size field is wide.
    rw [(openingRecord_spec options info).2.2.1] at hdeclared
    have hwide : (openingRecord options info).sizeWidth = .eight := by
      rw [sizeWidth_openingRecord, if_neg fun hnarrow => hdeclared hnarrow.1]
    refine .inr ?_
    rw [hwide]
    exact Nat.le_sub_one_of_lt hlength

/-- The draft of an entry with all of its content fits if its record does and there is room. -/
theorem HasRoom.fits (h : HasRoom record content) (hfits : record.Fits)
    (hsize : record.hasAddedSize = true) : (⟨record, [content]⟩ : Draft).Fits := by
  refine ⟨hfits, ?_⟩
  show (⟨record, [content]⟩ : Draft).payload.length ≤ record.sizeWidth.maxValue
  rw [Draft.payload, List.flatten_singleton]
  split
  next => exact Nat.le_trans (List.length_take_le _ _) (hfits.addedSize hsize)
  next hdeclared => exact h.resolve_left hdeclared

/-- **The content of an opened entry** is copied, resumed and sealed if there is room for it. -/
theorem packResumed_of_beginFile
    (hbegin : beginFile info handle = .ok () (insidePayload memory [] ⟨record, []⟩ state))
    (hpacker : state.packer = .fileData) (hfits : record.Fits) (hsize : record.hasAddedSize = true)
    (hinputs : Supplies state.options.copySize inputs content) :
    (HasRoom record content → packResumed info inputs handle
      = .ok () (betweenRecords memory (⟨record, [content]⟩ : Draft).segment.toBytes
          { state with currentFile? := none, packer := .fileHeader })) ∧
    (¬ HasRoom record content →
      ∃ left, packResumed info inputs handle = .error (noRoom record) left) := by
  have hstart : HasRoom record [] := .inr (Nat.zero_le _)
  obtain ⟨hcopied, hrefused⟩ := @insertInputs_copied _ _ memory [] _ _ _ record inputs hinputs hpacker
    hstart
  have hopened : insidePayload memory [] ⟨record, []⟩ state
      = insidePayload memory [] ⟨record, [[]]⟩ state := insidePayload_congr rfl
  rw [hopened] at hbegin
  rw [packResumed, bind_of_ok hbegin]
  constructor
  · intro hroom
    rw [bind_of_ok (hcopied hroom)]
    exact (endFile_eq_ok (hroom.fits hfits hsize) hsize).mpr ⟨List.mem_singleton.mpr rfl, rfl⟩
  · intro hfull
    obtain ⟨left, hrun⟩ := hrefused hfull
    exact ⟨left, bind_of_error hrun⟩

/-- **An entry is packed** where one can start, if the record fits and there is room for the
content. -/
theorem packResumed_eq_ok (hinputs : Supplies handle.state.options.copySize inputs content) :
    packResumed info inputs handle = .ok () final ↔
    ∃ memory, CanPack info handle memory ∧ (openingRecord handle.state.options info).Fits ∧
      HasRoom (openingRecord handle.state.options info) content ∧
      betweenRecords memory
        (⟨openingRecord handle.state.options info, [content]⟩ : Draft).segment.toBytes
        { handle.state with currentFile? := none, packer := .fileHeader } = final := by
  have hsize := (openingRecord_spec handle.state.options info).2.2.2.1
  constructor
  · intro h
    obtain ⟨_, opened, hbegin, -⟩ := bind_eq_ok.mp h
    obtain ⟨memory, hplace, hfits, rfl⟩ := beginFile_eq_ok_iff.mp hbegin
    obtain ⟨hpacked, hrefused⟩ := packResumed_of_beginFile hbegin rfl hfits hsize hinputs
    by_cases hroom : HasRoom (openingRecord handle.state.options info) content
    · exact ⟨memory, hplace, hfits, hroom, (EStateM.Result.ok.inj ((hpacked hroom).symm.trans h)).2⟩
    · obtain ⟨left, hrun⟩ := hrefused hroom
      cases hrun.symm.trans h
  · rintro ⟨memory, hplace, hfits, hroom, rfl⟩
    have hbegin := beginFile_eq_ok_iff.mpr ⟨memory, hplace, hfits, rfl⟩
    exact (packResumed_of_beginFile hbegin rfl hfits hsize hinputs).1 hroom

/-! ### Content of a stated length -/

/-- A stated length that needs no wide field is announced in a narrow one. -/
theorem openingRecord_of_narrow (options : ArchiveOptions) {size : UInt64}
    (hstated : info.unpackedSize? = some size) (hpos : 0 < size.toNat)
    (hnarrow : size.toNat ≤ EntryInfo.narrowSizeMax) :
    openingRecord options info =
      { options.requestCrc info.header.fixed with
        flags := (options.requestCrc info.header.fixed).flags ||| RecordFlags.narrowSize
        addedSize := size } := by
  have hne : size ≠ 0 := fun hzero => by
    rw [hzero] at hpos
    exact Nat.lt_irrefl 0 hpos
  have hannounce : info.announceContent info.header.fixed
      = { info.header.fixed with
          flags := info.header.fixed.flags ||| RecordFlags.narrowSize
          addedSize := size } := by
    rw [EntryInfo.announceContent, hstated]
    dsimp only
    rw [if_neg hne, if_neg (Nat.not_lt.mpr hnarrow)]
  have hswap (flags : UInt8) : flags ||| RecordFlags.narrowSize ||| RecordFlags.payloadCrc
      = flags ||| RecordFlags.payloadCrc ||| RecordFlags.narrowSize := by
    rw [UInt8.or_assoc, UInt8.or_assoc, UInt8.or_comm RecordFlags.narrowSize]
  rw [openingRecord, hannounce, ArchiveOptions.requestCrc, ArchiveOptions.requestCrc]
  by_cases hcrc : options.payloadCrc = true
  · rw [if_pos hcrc, if_pos hcrc]
    dsimp only
    rw [hswap]
  · rw [if_neg hcrc, if_neg hcrc]

/-- Behind such a record content of that length is not cut, and is a payload in one piece. -/
theorem isNarrow_openingRecord (options : ArchiveOptions) {size : UInt64}
    (hstated : info.unpackedSize? = some size) (hpos : 0 < size.toNat)
    (hnarrow : size.toNat ≤ EntryInfo.narrowSizeMax) (hlength : content.length = size.toNat) :
    (⟨openingRecord options info, [content]⟩ : Draft).payload = content ∧
      IsNarrow (openingRecord options info) [content] := by
  have hdeclared : (openingRecord options info).addedSize = size := by
    rw [(openingRecord_spec options info).2.2.1, hstated, Option.getD_some]
  have hpayload : (⟨openingRecord options info, [content]⟩ : Draft).payload = content := by
    rw [Draft.payload, List.flatten_singleton, hdeclared, if_pos hpos, ← hlength, List.take_length]
  refine ⟨hpayload, ?_, ?_, ?_, ?_⟩
  · rw [sizeWidth_openingRecord, hstated, Option.getD_some, if_pos ⟨hpos, hnarrow⟩]
  · rw [hdeclared]
    exact Nat.lt_of_le_of_lt hnarrow (by decide)
  · rw [hpayload, ← List.length_pos_iff, hlength]
    exact hpos
  · rw [hpayload, hlength]
    exact hnarrow

/-- The record that is opened fits if the record that is written at once does. -/
theorem fits_openingRecord_iff (options : ArchiveOptions) {size : UInt64}
    (hstated : info.unpackedSize? = some size) (hpos : 0 < size.toNat)
    (hnarrow : size.toNat ≤ EntryInfo.narrowSizeMax) (hlength : content.length = size.toNat) :
    (openingRecord options info).Fits ↔
      ((options.requestCrc info.header.fixed).announcing content).Fits := by
  obtain ⟨hpayload, hpieces⟩ := isNarrow_openingRecord options hstated hpos hnarrow hlength
  have hne : content ≠ [] := hpayload ▸ hpieces.ne_nil
  have hmost : content.length ≤ Record.narrowPayloadMax := hpayload ▸ hpieces.length
  have hsame := Record.announcing_or_narrow (options.requestCrc info.header.fixed) size hne
  rw [← openingRecord_of_narrow options hstated hpos hnarrow] at hsame
  rw [← hsame, Record.announcing_of_narrow hpieces.width hne hmost]
  have hroom (value : UInt64) (hvalue : value.toNat < UInt32.size) :
      value.toNat ≤ (openingRecord options info).sizeWidth.maxValue := by
    rw [hpieces.width]
    exact Nat.le_sub_one_of_lt hvalue
  have hcounted : (UInt64.ofNat content.length).toNat < UInt32.size := by
    rw [UInt64.toNat_ofNat_of_lt' (Nat.lt_of_le_of_lt hmost (by decide))]
    exact Nat.lt_of_le_of_lt hmost (by decide)
  -- the header takes as many bytes either way
  exact ⟨fun h => ⟨fun _ => hroom _ hcounted, h.length⟩,
    fun h => ⟨fun _ => hroom _ hpieces.declared, h.length⟩⟩

/-- Behind an entry that was written at once nothing is kept of a payload. -/
theorem pending?_of_addFile (hkeeps : handle.state.KeepsPending)
    (h : addFile info content handle = .ok () final) : final.state.pending? = none := by
  rw [((effect_addFile info content handle).of_ok h).2.2]
  exact hkeeps.pending?_writingAt

/-- **A copied entry is one that is written at once**, if its content has the stated length and that
needs no wide field. -/
theorem packResumed_iff_addFile (hinputs : Supplies handle.state.options.copySize inputs content)
    {size : UInt64} (hstated : info.unpackedSize? = some size) (hpos : 0 < size.toNat)
    (hnarrow : size.toNat ≤ EntryInfo.narrowSizeMax) (hlength : content.length = size.toNat) :
    packResumed info inputs handle = .ok () final ↔ ∃ added : Archive MemoryStream,
      addFile info content handle = .ok () added ∧
      ⟨added.stream, { added.state with pending? := none, currentFile? := none }⟩ = final := by
  obtain ⟨hpayload, hpieces⟩ :=
    isNarrow_openingRecord handle.state.options hstated hpos hnarrow hlength
  have hne : content ≠ [] := hpayload ▸ hpieces.ne_nil
  have hbounded : content.length < UInt64.size := hlength ▸ size.toNat_lt
  have hroom := hasRoom_openingRecord handle.state.options info hbounded
  have hbytes :
      (Draft.whole (handle.state.options.requestCrc info.header.fixed) content).segment.toBytes
        = (⟨openingRecord handle.state.options info, [content]⟩ : Draft).segment.toBytes := by
    have hwhole := Draft.toBytes_whole_payload ⟨openingRecord handle.state.options info, [content]⟩
      hpieces.width hpieces.ne_nil hpieces.length
    rw [hpayload] at hwhole
    rw [← hwhole, Draft.whole, Draft.whole,
      openingRecord_of_narrow handle.state.options hstated hpos hnarrow,
      Record.announcing_or_narrow _ size hne]
  rw [packResumed_eq_ok hinputs]
  constructor
  · rintro ⟨memory, hplace, hfits, -, rfl⟩
    refine ⟨_, (addFile_eq_ok_iff hbounded).mpr ⟨memory, hplace, ?_, rfl⟩, ?_⟩
    · exact (fits_openingRecord_iff handle.state.options hstated hpos hnarrow hlength).mp hfits
    · rw [hbytes]
      rfl
  · rintro ⟨added, hadd, rfl⟩
    obtain ⟨memory, hplace, hfits, rfl⟩ := (addFile_eq_ok_iff hbounded).mp hadd
    refine ⟨memory, hplace, ?_, hroom, ?_⟩
    · exact (fits_openingRecord_iff handle.state.options hstated hpos hnarrow hlength).mpr hfits
    · rw [hbytes]
      rfl

end Entries

/-! ## Two copies of the same content -/

section Copies

variable [ByteSource ι] [ByteSource κ] {info : EntryInfo} {content : List UInt8} {inputs : List ι}
  {inputs' : List κ}

/-- In memory copies of the same content do the same, whatever the chunk sizes are. If there is no room
for the content both are refused. -/
theorem agree_packResumed_memory {handle : Archive MemoryStream} (size : Nat)
    (hinputs : Supplies handle.state.options.copySize inputs content)
    (hinputs' : Supplies (handle.withChunkSize size).state.options.copySize inputs' content) :
    Agree (fun packed packed' => HasRoom (openingRecord handle.state.options info) content →
        Resized size packed packed')
      (packResumed info inputs handle) (packResumed info inputs' (handle.withChunkSize size)) := by
  have hbegin := resized_beginFile info handle (handle.withChunkSize size) rfl
  cases hrun : beginFile info handle with
  | error error final =>
    rw [hrun] at hbegin
    obtain ⟨final', hrun', hfinal⟩ := hbegin.exists_error_right
    rw [packResumed, packResumed, bind_of_error hrun, bind_of_error hrun']
    exact .error fun _ => hfinal
  | ok _ opened =>
    rw [hrun] at hbegin
    obtain ⟨opened', hrun', rfl⟩ := hbegin.exists_ok_right
    obtain ⟨memory, -, hfits, rfl⟩ := beginFile_eq_ok_iff.mp hrun
    have hsize := (openingRecord_spec handle.state.options info).2.2.2.1
    obtain ⟨hpacked, hrefused⟩ := packResumed_of_beginFile hrun rfl hfits hsize hinputs
    obtain ⟨hpacked', hrefused'⟩ := @packResumed_of_beginFile _ _ _ _ _ _ _
      { handle.state with
        options := { handle.state.options with chunkSize := size }
        currentFile? := some info, packer := .fileData } _ hrun' rfl hfits hsize hinputs'
    by_cases hroom : HasRoom (openingRecord handle.state.options info) content
    · rw [hpacked hroom, hpacked' hroom]
      exact .ok fun _ => rfl
    · obtain ⟨left, hleft⟩ := hrefused hroom
      obtain ⟨left', hleft'⟩ := hrefused' hroom
      rw [hleft, hleft']
      exact .error fun h => absurd h hroom

variable [ByteSink σ] [Seekable σ] [ByteSink τ] [Seekable τ] {streams : σ → τ → Prop}

/-- Copies from one stream after another do the same on streams that are written alike. -/
theorem simulates_insertInputs (h : WritesAlike streams) (inputs : List ι) :
    Simulates (Related streams) (insertInputs inputs) (insertInputs inputs) := by
  induction inputs with
  | nil => exact .pure ()
  | cons input inputs ih =>
    intro first second hrelated
    have hcopy := CallWith.simulates_withValue ({ stream := input } : CopySource ι)
      (simulates_insertFileData h) first second hrelated
    rw [insertInputs_cons, insertInputs_cons]
    revert hcopy
    generalize CallWith.withValue ({ stream := input } : CopySource ι) insertFileData first = result
    generalize CallWith.withValue ({ stream := input } : CopySource ι) insertFileData second = result'
    rintro (⟨hfinal⟩ | ⟨hfinal⟩)
    next => exact .ok hfinal
    next error final final' =>
      cases error with
      | read cause => exact ih final final' hfinal
      | _ => exact .error hfinal

/-- **A resumed copy** is the same on streams that are written alike. -/
theorem simulates_packResumed (h : WritesAlike streams) (info : EntryInfo) (inputs : List ι) :
    Simulates (Related streams) (packResumed info inputs) (packResumed info inputs) :=
  (simulates_beginFile h info).bind fun _ => (simulates_insertInputs h inputs).bind fun _ =>
    simulates_endFile h

/-! ## On any storage -/

variable {keeps : σ → MemoryStream → Prop} {keeps' : τ → MemoryStream → Prop}

/-- **The bytes of a copied entry depend only on the content.** Take two handles on infallible seekable
streams that keep the same bytes, in the same state but for the chunk size, and for each of them
streams that supply the same content: in any parts, and any number of them failing on the way. Opening
an entry, copying one stream after another and sealing the entry gives the same result on both.

* Both succeed and leave the same bytes and position of the stream and the same state of the handle but
  for the chunk size, or both fail with the same error. Only where there is no room for the content, so
  never below `2 ^ 64` bytes, may failures leave different bytes.
* They succeed if and only if the entry can be opened and there is room for the content.
* What they leave behind the place where the entry starts is its record, which describes the content,
  and the content, cut to the length that is announced if there is one.
* If the metadata states the length of the content and that is from 1 to `0x7FFFFFFF`, then packing the
  entry at once succeeds if and only if they do, and leaves the same bytes and position, and the same
  state but for the entry that the handle has open. No payload is open then, on a handle that keeps what
  sealing needs exactly inside payloads, as every handle in use does. -/
theorem agree_packResumed (hk : IsStorage keeps) (hk' : IsStorage keeps') {first : Archive σ}
    {second : Archive τ} {start : Archive MemoryStream} {size : Nat}
    (hfirst : Related keeps first start) (hsecond : Related keeps' second (start.withChunkSize size))
    (info : EntryInfo) (hinputs : Supplies first.state.options.copySize inputs content)
    (hinputs' : Supplies second.state.options.copySize inputs' content) :
    Agree (fun packed packed' => HasRoom (openingRecord first.state.options info) content →
        ∃ kept, Related keeps packed kept ∧ Related keeps' packed' (kept.withChunkSize size))
      (packResumed info inputs first) (packResumed info inputs' second) ∧
    ((∃ packed, packResumed info inputs first = .ok () packed) ↔
      (∃ opened, beginFile info first = .ok () opened) ∧
        HasRoom (openingRecord first.state.options info) content) ∧
    (∀ packed, packResumed info inputs first = .ok () packed → ∃ memory, CanPack info start memory ∧
      Related keeps packed (betweenRecords memory
        (⟨openingRecord first.state.options info, [content]⟩ : Draft).segment.toBytes
        { first.state with currentFile? := none, packer := .fileHeader })) ∧
    ∀ stated, info.unpackedSize? = some stated → 0 < stated.toNat → stated.toNat ≤ 0x7FFFFFFF →
      content.length = stated.toNat →
      ((∃ packed, packResumed info inputs first = .ok () packed) ↔
        ∃ added, addFile info content first = .ok () added) ∧
      ∀ packed added, packResumed info inputs first = .ok () packed →
        addFile info content first = .ok () added →
        ∃ kept : Archive MemoryStream, Related keeps added kept ∧
          (first.state.KeepsPending → kept.state.pending? = none) ∧
          Related keeps packed
            ⟨kept.stream, { kept.state with pending? := none, currentFile? := none }⟩ := by
  obtain ⟨stream, state⟩ := first
  obtain ⟨memory, _⟩ := start
  obtain rfl : state = _ := hfirst.state
  rw [hsecond.state] at hinputs'
  have hsame := @agree_packResumed_memory _ _ _ _ info content inputs inputs' ⟨memory, state⟩ size
    hinputs hinputs'
  have hrun := simulates_packResumed hk.writesAlike info inputs _ _ hfirst
  have hrun' := simulates_packResumed hk'.writesAlike info inputs' _ _ hsecond
  have hbegin := simulates_beginFile hk.writesAlike info _ _ hfirst
  have hadd := simulates_addFile hk.writesAlike info content _ _ hfirst
  refine ⟨?_, ?_, ?_, fun stated hstated hpos hnarrow hlength => ⟨?_, ?_⟩⟩
  · refine ((hrun.trans hsame).join hrun').mono ?_
    rintro packed packed' ⟨_, ⟨kept, hkept, hresized⟩, hkept'⟩ hroom
    obtain rfl : kept.withChunkSize size = _ := hresized hroom
    exact ⟨kept, hkept, hkept'⟩
  · rw [hrun.exists_ok_iff, hbegin.exists_ok_iff]
    constructor
    · rintro ⟨packed, hpacked⟩
      obtain ⟨place, hplace, hfits, hroom, -⟩ := (packResumed_eq_ok hinputs).mp hpacked
      exact ⟨⟨_, beginFile_eq_ok_iff.mpr ⟨place, hplace, hfits, rfl⟩⟩, hroom⟩
    · rintro ⟨⟨opened, hopened⟩, hroom⟩
      obtain ⟨place, hplace, hfits, -⟩ := beginFile_eq_ok_iff.mp hopened
      exact ⟨_, (packResumed_eq_ok hinputs).mpr ⟨place, hplace, hfits, hroom, rfl⟩⟩
  · intro packed hpacked
    rw [hpacked] at hrun
    obtain ⟨kept, hkept, hfinal⟩ := hrun.exists_ok_right
    obtain ⟨place, hplace, -, -, rfl⟩ := (packResumed_eq_ok hinputs).mp hkept
    exact ⟨place, hplace, hfinal⟩
  · rw [hrun.exists_ok_iff, hadd.exists_ok_iff]
    constructor
    · rintro ⟨packed, hpacked⟩
      obtain ⟨added, hadded, -⟩ :=
        (packResumed_iff_addFile hinputs hstated hpos hnarrow hlength).mp hpacked
      exact ⟨added, hadded⟩
    · rintro ⟨added, hadded⟩
      exact ⟨_, (packResumed_iff_addFile hinputs hstated hpos hnarrow hlength).mpr ⟨added, hadded, rfl⟩⟩
  · intro packed added hpacked hadded
    rw [hpacked] at hrun
    rw [hadded] at hadd
    obtain ⟨kept, hkept, hadded'⟩ := hadd.exists_ok_right
    obtain ⟨kept', hpacked', hfinal⟩ := hrun.exists_ok_right
    obtain ⟨added', hmemory, rfl⟩ :=
      (packResumed_iff_addFile hinputs hstated hpos hnarrow hlength).mp hpacked'
    obtain rfl := (EStateM.Result.ok.inj (hkept.symm.trans hmemory)).2
    exact ⟨kept, hadded', fun hkeeps => pending?_of_addFile hkeeps hmemory, hfinal⟩

/-- Three bytes, once from a stream that is interrupted and fails behind the second of them and one that
gives the third, and once byte by byte as the chunk size zero demands. -/
theorem agree_packResumed_three :
    let start : Archive MemoryStream :=
      ⟨{}, { mode := .writing .atRecord, packer := .fileHeader }⟩
    let info : EntryInfo := { EntryInfo.regular "a" with unpackedSize? := some 3 }
    let inputs : List FaultyStream := [
      ⟨.ofList [1, 2, 9], { readInterrupts := [1], readFailAt? := some 2 }⟩, ⟨.ofList [3], {}⟩]
    ∃ packed packed' added, packResumed info inputs start = .ok () packed ∧
      packResumed info [MemoryStream.ofList [1, 2, 3]] (start.withChunkSize 0) = .ok () packed' ∧
      addFile info [1, 2, 3] start = .ok () added ∧
      packed.stream = packed'.stream ∧ packed.stream = added.stream := by
  intro start info inputs
  -- the first stream gives a byte, an interruption, another byte and a failure
  have hcut : ByteSource.Gives 65536 (⟨.ofList [1, 2, 9],
      { readInterrupts := [1], readFailAt? := some 2 }⟩ : FaultyStream) [1, 2]
        (some (.worded .other "read fault")) :=
    @ByteSource.Gives.part _ _ _ _ _ 1 [] [2] _ rfl (.interrupted rfl rfl
      (@ByteSource.Gives.part _ _ _ _ _ 2 [] [] _ rfl (.failed rfl rfl)))
  have hrest : ByteSource.Gives 65536 (⟨.ofList [3], {}⟩ : FaultyStream) [3] none :=
    @ByteSource.Gives.part _ _ _ _ _ 3 [] [] _ rfl (.ended rfl)
  have hinputs : Supplies start.state.options.copySize inputs [1, 2, 3] := .more hcut (.last hrest)
  have hinputs' : Supplies (start.withChunkSize 0).state.options.copySize
      [MemoryStream.ofList [1, 2, 3]] [1, 2, 3] := .last ((MemoryStream.yields _).gives (by decide))
  obtain ⟨hagree, hopens, -, hadds⟩ := agree_packResumed isStorage_eq isStorage_eq
    (⟨rfl, rfl⟩ : Related Eq start start) (⟨rfl, rfl⟩ : Related Eq (start.withChunkSize 0) _) info
    hinputs hinputs'
  have hroom : HasRoom (openingRecord start.state.options info) [1, 2, 3] := .inl (by decide)
  have hbegin : ∃ opened, beginFile info start = .ok () opened :=
    ⟨_, beginFile_eq_ok_iff.mpr ⟨{},
      ⟨by decide, by decide +kernel, ⟨by decide, by decide +kernel⟩, rfl⟩,
      ⟨by decide, by decide +kernel⟩, rfl⟩⟩
  obtain ⟨packed, hpacked⟩ := hopens.mpr ⟨hbegin, hroom⟩
  obtain ⟨hsame, hbytes⟩ := hadds 3 rfl (by decide) (by decide) rfl
  obtain ⟨added, hadded⟩ := hsame.mp ⟨packed, hpacked⟩
  obtain ⟨kept, hkept, -, hkept'⟩ := hbytes packed added hpacked hadded
  rw [hpacked] at hagree
  obtain ⟨packed', hpacked', hfinal⟩ := hagree.exists_ok_right
  obtain ⟨left, hleft, hleft'⟩ := hfinal hroom
  exact ⟨packed, packed', added, hpacked, hpacked', hadded, hleft.stream.trans hleft'.stream.symm,
    hkept'.stream.trans hkept.stream.symm⟩

end Copies

end Archive

end RecordArchive
