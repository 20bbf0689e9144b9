import RecordArchive.Entry.Record
import RecordArchive.Proofs.Record.Codec

/-! # Metadata and its bytes

Metadata that was written is read back up to its normal form: the kind is the one that its letter
names, and `wide` says whether the length of the content took eight bytes.

* `EntryInfo.flags_spec`: what the flags say about each field.
* `EntryInfo.parse_read_toBytes`: reading back what was written.
* `EntryInfo.toRecord_eq`: writing field by field into a buffer fills it with these bytes.
* `EntryInfo.toRecord_eq_ok`: a record is made of metadata if and only if the name fits its length. -/

namespace RecordArchive

open Program

/-- A text is read back from its bytes. -/
theorem Text.Utf8.textOf?_bytesOf (text : String) : textOf? (bytesOf text) = .ok text := by
  have hbytes : String.fromUTF8? ⟨(bytesOf text).toArray⟩ = some text := by
    show String.fromUTF8? text.toByteArray = some text
    rw [String.fromUTF8?, dif_pos text.isValidUTF8]
    rfl
  rw [textOf?, hbytes]

/-- Bytes that are read as a text are those of the text. -/
theorem Text.Utf8.textOf?_eq_ok {bytes : List UInt8} {text : String} :
    textOf? bytes = .ok text ↔ bytesOf text = bytes := by
  constructor
  · intro h
    rw [textOf?, String.fromUTF8?] at h
    split at h
    next found hfound =>
      split at hfound
      · obtain rfl := Except.ok.inj h
        obtain rfl := Option.some.inj hfound
        rfl
      · cases hfound
    next => cases h
  · rintro rfl
    exact textOf?_bytesOf text

namespace EntryInfo

open Cursor.Reader

/-- The metadata as it is read back. -/
def normalForm (info : EntryInfo) : EntryInfo :=
  { info with
    kind := .ofByte info.kind.toByte
    wide := decide (info.sizeWidth = 8) }

/-- The length of the content takes no bytes, four, or eight. -/
theorem sizeWidth_cases (info : EntryInfo) :
    info.unpackedSize? = none ∧ info.sizeWidth = 0 ∨
      ∃ size, info.unpackedSize? = some size ∧
        (info.sizeWidth = 8 ∨ info.sizeWidth = 4 ∧ size.toNat < UInt32.size) := by
  rcases hsize : info.unpackedSize? with _ | size
  · refine .inl ⟨rfl, ?_⟩
    simp only [sizeWidth, hsize]
  · refine .inr ⟨size, rfl, ?_⟩
    simp only [sizeWidth, hsize]
    by_cases hwide : info.wide = true ∨ UInt32.size ≤ size.toNat
    · rw [if_pos hwide]
      exact .inl rfl
    · rw [if_neg hwide]
      exact .inr ⟨rfl, Nat.lt_of_not_le fun hle => hwide (.inr hle)⟩

/-- The flags keep apart what they say about the three optional fields. -/
theorem flags_apart (time crc : Bool) {width : UInt8}
    (hwidth : width = wideSizeFlag ∨ width = narrowSizeFlag ∨ width = 0) :
    ((if time then timeFlag else 0) ||| (if crc then crcFlag else 0) ||| width) &&& sizeMask = width ∧
    RecordFlags.has ((if time then timeFlag else 0) ||| (if crc then crcFlag else 0) ||| width)
      crcFlag = crc ∧
    RecordFlags.has ((if time then timeFlag else 0) ||| (if crc then crcFlag else 0) ||| width)
      timeFlag = time := by
  rcases hwidth with rfl | rfl | rfl
  all_goals
    revert time crc
    decide

/-- The flags say how many bytes the length of the content takes, and which of checksum and time are
there. -/
theorem flags_spec (info : EntryInfo) :
    info.flags &&& sizeMask = (if info.sizeWidth = 8 then wideSizeFlag
      else if info.sizeWidth = 4 then narrowSizeFlag else 0) ∧
    RecordFlags.has info.flags crcFlag = info.crc?.isSome ∧
    RecordFlags.has info.flags timeFlag = info.timeStamp?.isSome := by
  refine flags_apart _ _ ?_
  by_cases hwide : info.sizeWidth = 8
  · exact .inl (if_pos hwide)
  · by_cases hnarrow : info.sizeWidth = 4
    · exact .inr (.inl ((if_neg hwide).trans (if_pos hnarrow)))
    · exact .inr (.inr ((if_neg hwide).trans (if_neg hnarrow)))

/-! ## Reading back -/

/-- The bytes of the length of the content. -/
def sizeField (info : EntryInfo) : List UInt8 :=
  info.unpackedSize?.elim [] fun size => LittleEndian.encode info.sizeWidth size.toNat

/-- The length of the content is read back from its bytes. -/
theorem readUnpackedSize_sizeField (info : EntryInfo) (front rest : List UInt8) :
    readUnpackedSize info.flags (between front (info.sizeField ++ rest))
      = .ok (info.unpackedSize?, decide (info.sizeWidth = 8))
          (between (front ++ info.sizeField) rest) := by
  rw [readUnpackedSize, info.flags_spec.1, sizeField]
  rcases info.sizeWidth_cases with ⟨hnone, hwidth⟩ | ⟨size, hsome, hwide | ⟨hnarrow, hlt⟩⟩
  · rw [hnone, hwidth]
    simp [wideSizeFlag, narrowSizeFlag, pure_eq_ok]
  · rw [hsome, hwide, if_pos rfl, if_pos rfl, map_eq_ok]
    exact ⟨size, readWord64_eq_ok.mpr ⟨rest, rfl, rfl⟩, rfl⟩
  · have hflags : narrowSizeFlag ≠ wideSizeFlag := by decide
    have hwidth : info.sizeWidth ≠ 8 := by rw [hnarrow]; decide
    rw [if_neg hwidth, if_pos hnarrow, if_neg hflags, if_pos rfl, decide_eq_false hwidth, hsome,
      hnarrow, map_eq_ok]
    refine ⟨size.toNat, readNumber_eq_ok.mpr ⟨hlt, rest, rfl, rfl⟩, ?_⟩
    rw [UInt64.ofNat_toNat]

/-- A value that is there is read back from its bytes, and one that is not takes none. -/
theorem readIf_elim {α : Type} {read : EStateM OutOfBounds Cursor.Reader α} {bytes : α → List UInt8}
    (hread : ∀ value front rest, read (between front (bytes value ++ rest))
      = .ok value (between (front ++ bytes value) rest))
    (value? : Option α) (front rest : List UInt8) :
    readIf value?.isSome read (between front (value?.elim [] bytes ++ rest))
      = .ok value? (between (front ++ value?.elim [] bytes) rest) := by
  rcases value? with _ | value
  · show EStateM.Result.ok none (between front rest) = .ok none (between (front ++ []) rest)
    rw [List.append_nil]
  · exact map_eq_ok.mpr ⟨value, hread value front rest, rfl⟩

/-- **Metadata is read back** from its bytes in normal form. -/
theorem parse_read_toBytes {info : EntryInfo}
    (hname : (Text.Utf8.bytesOf info.name).length ≤ 65535) :
    Record.parse read info.toBytes = .ok info.normalForm := by
  have hbytes : info.toBytes = [info.flags] ++ ([info.kind.toByte] ++ (info.sizeField
      ++ (info.crc?.elim [] LittleEndian.word32 ++ (LittleEndian.word32 info.compressionInfo
      ++ (info.timeStamp?.elim [] LittleEndian.word64
      ++ (LittleEndian.encode 2 (Text.Utf8.bytesOf info.name).length
      ++ (Text.Utf8.bytesOf info.name ++ []))))))) := by
    simp only [toBytes, sizeField, List.append_assoc, List.append_nil, List.cons_append,
      List.nil_append]
  -- the flags say of both optional fields whether they are there
  have hcrc : ∀ front rest, readIf (RecordFlags.has info.flags crcFlag) readWord32 (between front
      (info.crc?.elim [] LittleEndian.word32 ++ rest))
        = .ok info.crc? (between (front ++ info.crc?.elim [] LittleEndian.word32) rest) := by
    rw [info.flags_spec.2.1]
    exact readIf_elim (fun _ _ rest => readWord32_eq_ok.mpr ⟨rest, rfl, rfl⟩) info.crc?
  have htime : ∀ front rest, readIf (RecordFlags.has info.flags timeFlag) readWord64 (between front
      (info.timeStamp?.elim [] LittleEndian.word64 ++ rest))
        = .ok info.timeStamp? (between (front ++ info.timeStamp?.elim [] LittleEndian.word64)
          rest) := by
    rw [info.flags_spec.2.2]
    exact readIf_elim (fun _ _ rest => readWord64_eq_ok.mpr ⟨rest, rfl, rfl⟩) info.timeStamp?
  have hlength : (Text.Utf8.bytesOf info.name).length < LittleEndian.capacity 2 :=
    Nat.lt_succ_of_le hname
  -- field after field the cursor moves behind the bytes of the field
  rw [Record.parse_eq_ok, hbytes]
  simp only [read, bind_eq_ok, Record.access_eq_ok]
  refine ⟨between ([] ++ [info.flags] ++ [info.kind.toByte] ++ info.sizeField
      ++ info.crc?.elim [] LittleEndian.word32 ++ LittleEndian.word32 info.compressionInfo
      ++ info.timeStamp?.elim [] LittleEndian.word64
      ++ LittleEndian.encode 2 (Text.Utf8.bytesOf info.name).length
      ++ Text.Utf8.bytesOf info.name) [],
    info.flags, _, readWord8_eq_ok.mpr ⟨_, rfl, rfl⟩, info.kind.toByte, _,
    readWord8_eq_ok.mpr ⟨_, rfl, rfl⟩, _, _, info.readUnpackedSize_sizeField _ _, _, _, hcrc _ _,
    info.compressionInfo, _, readWord32_eq_ok.mpr ⟨_, rfl, rfl⟩, _, _, htime _ _, _, _,
    readNumber_eq_ok.mpr ⟨hlength, _, rfl, rfl⟩, _, _, readBytes_eq_ok.mpr ⟨rfl, _, rfl, rfl⟩, ?_⟩
  rw [Text.Utf8.textOf?_bytesOf]
  exact pure_eq_ok.mpr ⟨rfl, rfl⟩

/-! ## Writing -/

open Cursor.Writer

/-- A value that is there is put down, and one that is not takes no bytes. -/
theorem puts_writeIf {α : Type} {write : α → EStateM OutOfBounds Cursor.Writer Unit}
    {bytes : α → List UInt8} (value? : Option α)
    (hwrite : ∀ value, value? = some value → Puts (write value) (bytes value)) :
    Puts (writeIf write value?) (value?.elim [] bytes) := by
  cases value? with
  | some value => exact hwrite value rfl
  | none => exact puts_pure

/-- The length of the content is put down in its width. -/
theorem puts_writeUnpackedSize (info : EntryInfo) : Puts info.writeUnpackedSize info.sizeField := by
  refine puts_writeIf info.unpackedSize? fun size hsize => ?_
  rcases info.sizeWidth_cases with ⟨hnone, -⟩ | ⟨found, hfound, hwide | ⟨hnarrow, hlt⟩⟩
  · cases hnone.symm.trans hsize
  · rw [if_pos hwide, hwide]
    exact puts_writeBytes _
  · obtain rfl : size = found := Option.some.inj (hsize.symm.trans hfound)
    have hwidth : info.sizeWidth ≠ 8 := by
      rw [hnarrow]
      decide
    have hvalue : size.toUInt32.toNat = size.toNat := Nat.mod_eq_of_lt hlt
    rw [if_neg hwidth, hnarrow, ← hvalue]
    exact puts_writeBytes _

/-- **The metadata is put down** field by field, if the name fits its length. -/
theorem puts_write {info : EntryInfo} (hname : (Text.Utf8.bytesOf info.name).length ≤ 65535) :
    Puts info.write info.toBytes := by
  have hlength : LittleEndian.word16 (UInt16.ofNat (Text.Utf8.bytesOf info.name).length)
      = LittleEndian.encode 2 (Text.Utf8.bytesOf info.name).length := by
    rw [LittleEndian.word16, UInt16.toNat_ofNat_of_lt' (Nat.lt_succ_of_le hname)]
  have hbytes : info.toBytes = [info.flags] ++ ([info.kind.toByte] ++ (info.sizeField
      ++ (info.crc?.elim [] LittleEndian.word32 ++ (LittleEndian.word32 info.compressionInfo
      ++ (info.timeStamp?.elim [] LittleEndian.word64
      ++ (LittleEndian.word16 (UInt16.ofNat (Text.Utf8.bytesOf info.name).length)
      ++ Text.Utf8.bytesOf info.name)))))) := by
    simp only [toBytes, sizeField, hlength, List.append_assoc, List.cons_append, List.nil_append]
  rw [hbytes, write]
  exact (puts_writeBytes _).bind <| (puts_writeBytes _).bind <| info.puts_writeUnpackedSize.bind <|
    (puts_writeIf _ fun _ _ => puts_writeBytes _).bind <| (puts_writeBytes _).bind <|
    (puts_writeIf _ fun _ _ => puts_writeBytes _).bind <| (puts_writeBytes _).bind
    (puts_writeBytes _)

/-- **The length of the metadata** is the one that is computed for the buffer. -/
@[simp] theorem length_toBytes (info : EntryInfo) : info.toBytes.length = info.byteLength := by
  have hsize : info.sizeField.length = info.sizeWidth := by
    rcases info.sizeWidth_cases with ⟨hnone, hwidth⟩ | ⟨size, hsome, -⟩
    · rw [sizeField, hnone, hwidth]
      rfl
    · rw [sizeField, hsome]
      exact LittleEndian.length_encode _ _
  have hcrc : (info.crc?.elim [] LittleEndian.word32).length
      = if info.crc?.isSome then 4 else 0 := by
    cases info.crc? <;> rfl
  have htime : (info.timeStamp?.elim [] LittleEndian.word64).length
      = if info.timeStamp?.isSome then 8 else 0 := by
    cases info.timeStamp? <;> rfl
  rw [toBytes, ← sizeField]
  simp only [List.length_append, List.length_cons, List.length_nil, hsize, hcrc, htime,
    LittleEndian.length_word32, LittleEndian.length_encode, byteLength]

/-! ## File headers -/

/-- The file header of an entry before it is fixed. -/
def header (info : EntryInfo) : Record := { kind := .fileHeader, data := info.toBytes }

/-- **The buffer holds the metadata** in the end, and none of its accesses is refused. -/
theorem toRecord_eq (info : EntryInfo) : info.toRecord =
    if 65535 < (Text.Utf8.bytesOf info.name).length then
      .error (.invalidParameter (.nameTooLong (Text.Utf8.bytesOf info.name).length))
    else info.header.fix := by
  rw [toRecord]
  split
  next => rfl
  next hname =>
    rw [(puts_write (Nat.le_of_not_lt hname)).fills info.length_toBytes]
    rfl

/-- **A file header is made** of metadata if and only if the name and the header fit their length
fields. -/
theorem toRecord_eq_ok {info : EntryInfo} {record : Record} : info.toRecord = .ok record ↔
    (Text.Utf8.bytesOf info.name).length ≤ 65535 ∧ info.header.Fits ∧ info.header.fixed = record := by
  rw [toRecord_eq]
  by_cases hname : 65535 < (Text.Utf8.bytesOf info.name).length
  · rw [if_pos hname]
    constructor
    · nofun
    · exact fun h => absurd h.1 (Nat.not_le.mpr hname)
  · rw [if_neg hname, Record.fix_eq_ok]
    exact (and_iff_right (Nat.le_of_not_lt hname)).symm

/-- A file header that cannot be made is refused as a parameter. -/
theorem toRecord_eq_error {info : EntryInfo} {error : ArchiveError}
    (h : info.toRecord = .error error) : ∃ fault, error = .invalidParameter fault := by
  rw [toRecord_eq] at h
  split at h
  next => exact ⟨_, (Except.error.inj h).symm⟩
  next => exact Record.fix_eq_error h

end EntryInfo

end RecordArchive
