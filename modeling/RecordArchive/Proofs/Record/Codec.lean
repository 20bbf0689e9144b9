import RecordArchive.Proofs.Buffer
import RecordArchive.Record.Decode

/-! # Records and their bytes

Reading a record from a buffer is exact. `Record.IsNormal` collects what is true of a record that
was read: its size agrees with its layout and a field that the header lacks is zero.

* `Record.decode_eq_ok`: a record is read from a buffer if and only if it is normal and the buffer
  starts with its bytes.
* `Record.fixInPlace_apply`: a record that fits its fields gets size and checksum, any other one stays
  as it was.
* `Record.fix_eq_ok`: a record can be fixed if and only if it fits its fields, and `Record.fixed` is
  then what comes out, a valid record of which only size and checksum have changed.
* `Record.normalForm`: what is read back of a record that was written. -/

namespace RecordArchive

open Program

/-- The front part of a list that is long enough. -/
theorem exists_front {α : Type} {count : Nat} {members : List α} (h : count ≤ members.length) :
    ∃ front back, members = front ++ back ∧ front.length = count :=
  ⟨_, _, (List.take_append_drop count members).symm, List.length_take_of_le h⟩

/-! ## Reading records -/

namespace Record

open Cursor.Reader

/-- The bytes of a header, up to the data. -/
def headerBytes (record : Record) : List UInt8 :=
  LittleEndian.word16 record.checksum ++ record.coveredHeader

/-- The header of a record comes in front of its data. -/
theorem toBytes_eq (record : Record) : record.toBytes = record.headerBytes ++ record.data := rfl

/-- The header takes as many bytes as its flags say. -/
@[simp] theorem length_headerBytes (record : Record) :
    record.headerBytes.length = record.headerLength := by
  have h := record.length_coveredHeader
  simp only [headerBytes, List.length_append, LittleEndian.length_word16]
  omega

/-- No header is written in no bytes. -/
theorem headerBytes_ne_nil (record : Record) : record.headerBytes ≠ [] := by
  have hheader := RecordFlags.fixedHeaderLength_le_headerLength record.flags
  rw [RecordFlags.fixedHeaderLength] at hheader
  apply List.ne_nil_of_length_pos
  rw [length_headerBytes, headerLength]
  omega

/-- No record is written in no bytes. -/
theorem toBytes_ne_nil (record : Record) : record.toBytes ≠ [] :=
  List.append_ne_nil_of_left_ne_nil record.headerBytes_ne_nil record.data

/-- A record whose header fields are such as reading gives: its kind is the one that its letter
names, its size has room for the header, and a field that the header lacks is zero. -/
structure IsNormalHeader (record : Record) : Prop where
  kind : RecordKind.ofByte record.kind.toByte = record.kind
  size : record.headerLength ≤ record.size.toNat
  addedSize : record.addedSize.toNat ≤ record.sizeWidth.maxValue
  addedCrc : record.hasAddedCrc = false → record.addedCrc = 0

/-- **A record in the normal form of reading**: moreover its size agrees with its layout. -/
structure IsNormal (record : Record) : Prop where
  kind : RecordKind.ofByte record.kind.toByte = record.kind
  size : record.size.toNat = record.encodedLength
  addedSize : record.addedSize.toNat ≤ record.sizeWidth.maxValue
  addedCrc : record.hasAddedCrc = false → record.addedCrc = 0

/-- An access succeeds just where the cursor does. -/
theorem access_eq_ok {α : Type} {read : EStateM OutOfBounds Cursor.Reader α}
    {start final : Cursor.Reader} {value : α} :
    access read start = .ok value final ↔ read start = .ok value final := adaptExcept_eq_ok

/-- The payload size is read from the bytes that its width leaves for it. -/
theorem readAddedSize_eq_ok {width : SizeWidth} {value : UInt64} {front rest : List UInt8}
    {final : Cursor.Reader} : readAddedSize width (between front rest) = .ok value final ↔
      value.toNat ≤ width.maxValue ∧ ∃ more,
        rest = LittleEndian.encode width.length value.toNat ++ more ∧
          final = between (front ++ LittleEndian.encode width.length value.toNat) more := by
  cases width with
  | absent =>
    -- Without a field nothing is read, and zero is the one value that fits.
    simp only [readAddedSize, pure_eq_ok, SizeWidth.maxValue, SizeWidth.length,
      LittleEndian.encode_zero, List.nil_append, List.append_nil]
    constructor
    · rintro ⟨rfl, rfl⟩
      exact ⟨Nat.le_refl _, rest, rfl, rfl⟩
    · rintro ⟨hvalue, more, rfl, rfl⟩
      exact ⟨(UInt64.toNat_inj.mp (Nat.le_zero.mp hvalue)).symm, rfl⟩
  | four =>
    simp only [readAddedSize, map_eq_ok, readNumber_eq_ok, SizeWidth.maxValue, SizeWidth.length]
    constructor
    · rintro ⟨number, ⟨hnumber, more, rfl, rfl⟩, rfl⟩
      have hfits : number < UInt32.size := hnumber
      rw [UInt64.toNat_ofNat_of_lt' (Nat.lt_trans hfits (by decide))]
      exact ⟨Nat.le_sub_one_of_lt hfits, more, rfl, rfl⟩
    · rintro ⟨hvalue, more, rfl, rfl⟩
      exact ⟨value.toNat, ⟨Nat.lt_of_le_sub_one (by decide) hvalue, more, rfl, rfl⟩,
        UInt64.ofNat_toNat⟩
  | eight =>
    -- Every value fits eight bytes.
    have hvalue : value.toNat ≤ UInt64.size - 1 := Nat.le_sub_one_of_lt value.toNat_lt
    simp only [readAddedSize, readWord64_eq_ok, SizeWidth.maxValue, SizeWidth.length, hvalue,
      true_and]
    rfl

/-- The payload checksum is read from four bytes if there is one. -/
theorem readAddedCrc_eq_ok {present : Bool} {value : UInt32} {front rest : List UInt8}
    {final : Cursor.Reader} :
    (if present then readWord32 else pure 0 : EStateM OutOfBounds Cursor.Reader UInt32)
        (between front rest) = .ok value final ↔
      (present = false → value = 0) ∧ ∃ more,
        rest = (if present then LittleEndian.word32 value else []) ++ more ∧
          final = between (front ++ if present then LittleEndian.word32 value else []) more := by
  cases present with
  | true => simp [readWord32_eq_ok]
  | false =>
    simp only [Bool.false_eq_true, if_false, pure_eq_ok, forall_const, List.nil_append,
      List.append_nil]
    constructor
    · rintro ⟨rfl, rfl⟩
      exact ⟨rfl, rest, rfl, rfl⟩
    · rintro ⟨rfl, more, rfl, rfl⟩
      exact ⟨rfl, rfl⟩

/-- Bytes are parsed by a program on a cursor in front of them. -/
theorem parse_eq_ok {α : Type} {program : EStateM ArchiveError Cursor.Reader α}
    {bytes : List UInt8} {value : α} : parse program bytes = .ok value ↔
      ∃ final, program (between [] bytes) = .ok value final := by
  have hstart : program.run { bytes } = program (between [] bytes) := rfl
  rw [parse, hstart]
  cases program (between [] bytes) <;> simp

/-- The bytes of a header, field by field. -/
theorem headerBytes_eq (record : Record) : record.headerBytes =
    LittleEndian.word16 record.checksum ++ [record.kind.toByte] ++ [record.flags]
      ++ LittleEndian.word16 record.size ++ record.sizeField ++ record.crcField := by
  simp only [headerBytes, coveredHeader, List.append_assoc, List.cons_append, List.nil_append]

/-- A header is read from its bytes. -/
theorem readHeader_eq_ok {bytes : List UInt8} {header : Record} {final : Cursor.Reader} :
    readHeader (between [] bytes) = .ok header final ↔
      header.IsNormalHeader ∧ header.data = [] ∧ ∃ rest,
        bytes = header.headerBytes ++ rest ∧ final = between header.headerBytes rest := by
  simp only [readHeader, bind_eq_ok, access_eq_ok, readWord16_eq_ok, List.nil_append]
  constructor
  · -- Field after field moves its bytes to the front; a size without room for the header is refused.
    rintro ⟨checksum, _, ⟨_, rfl, rfl⟩, letter, _, hletter, flags, _, hflags, size, _, hsize, h⟩
    obtain ⟨_, rfl, rfl⟩ := readWord8_eq_ok.mp hletter
    obtain ⟨_, rfl, rfl⟩ := readWord8_eq_ok.mp hflags
    obtain ⟨_, rfl, rfl⟩ := readWord16_eq_ok.mp hsize
    split at h
    · simp only [bind_eq_ok, throw_eq_ok, false_and, exists_false] at h
    next hheader =>
    simp only [bind_eq_ok, access_eq_ok] at h
    obtain ⟨addedSize, _, hadded, addedCrc, _, hcrc, h⟩ := h
    obtain ⟨hmax, _, rfl, rfl⟩ := readAddedSize_eq_ok.mp hadded
    obtain ⟨hzero, rest, rfl, rfl⟩ := readAddedCrc_eq_ok.mp hcrc
    obtain ⟨rfl, rfl⟩ := pure_eq_ok.mp h
    refine ⟨⟨?_, Nat.le_of_not_lt hheader, hmax, hzero⟩, rfl, rest, ?_, ?_⟩
    · exact congrArg RecordKind.ofByte (RecordKind.toByte_ofByte letter)
    · simp only [headerBytes_eq, RecordKind.toByte_ofByte, List.append_assoc]
      rfl
    · simp only [headerBytes_eq, RecordKind.toByte_ofByte]
      rfl
  · -- The fields of a normal header are what the readers give for its bytes.
    rintro ⟨hnormal, hdata, rest, rfl, rfl⟩
    obtain ⟨checksum, kind, flags, size, addedSize, addedCrc, data⟩ := header
    obtain rfl : data = [] := hdata
    simp only [headerBytes_eq, List.append_assoc]
    refine ⟨checksum, _, ⟨_, rfl, rfl⟩, kind.toByte, _, readWord8_eq_ok.mpr ⟨_, rfl, rfl⟩, flags,
      _, readWord8_eq_ok.mpr ⟨_, rfl, rfl⟩, size, _, readWord16_eq_ok.mpr ⟨_, rfl, rfl⟩, ?_⟩
    have hsize : ¬ size.toNat < RecordFlags.headerLength flags := Nat.not_lt.mpr hnormal.size
    rw [if_neg hsize]
    simp only [bind_eq_ok, access_eq_ok]
    refine ⟨addedSize, _, readAddedSize_eq_ok.mpr ⟨hnormal.addedSize, _, rfl, rfl⟩, addedCrc, _,
      readAddedCrc_eq_ok.mpr ⟨hnormal.addedCrc, _, rfl, rfl⟩, ?_⟩
    rw [pure_eq_ok, show RecordKind.ofByte kind.toByte = kind from hnormal.kind]
    simp only [List.append_assoc, true_and]
    rfl

/-- **A header is read exactly**: from a buffer that starts with its bytes. -/
theorem decodeHeader_eq_ok {bytes : List UInt8} {header : Record} :
    decodeHeader bytes = .ok header ↔
      header.IsNormalHeader ∧ header.data = [] ∧ ∃ rest, bytes = header.headerBytes ++ rest := by
  simp only [decodeHeader, parse_eq_ok, readHeader_eq_ok]
  constructor
  · rintro ⟨_, hnormal, hdata, rest, rfl, -⟩
    exact ⟨hnormal, hdata, rest, rfl⟩
  · rintro ⟨hnormal, hdata, rest, rfl⟩
    exact ⟨_, hnormal, hdata, rest, rfl, rfl⟩

/-- A header with as many bytes of data as its size has room for is a normal record. -/
theorem IsNormalHeader.isNormal {header : Record} (h : header.IsNormalHeader) {data : List UInt8}
    (hdata : data.length = header.dataLength) : { header with data }.IsNormal where
  kind := h.kind
  size := by
    have hsize := h.size
    show header.size.toNat = header.headerLength + data.length
    rw [hdata, dataLength]
    omega
  addedSize := h.addedSize
  addedCrc := h.addedCrc

/-- The header of a normal record is normal. -/
theorem IsNormal.isNormalHeader {record : Record} (h : record.IsNormal) :
    { record with data := [] }.IsNormalHeader where
  kind := h.kind
  size := by
    show record.headerLength ≤ record.size.toNat
    rw [h.size, encodedLength]
    omega
  addedSize := h.addedSize
  addedCrc := h.addedCrc

/-- The size of a normal record has room for just its data. -/
theorem IsNormal.dataLength {record : Record} (h : record.IsNormal) :
    record.dataLength = record.data.length := by
  rw [Record.dataLength, h.size, encodedLength]
  omega

/-- **A record is read exactly**: from a buffer that starts with its bytes. -/
theorem decode_eq_ok {bytes : List UInt8} {record : Record} :
    decode bytes = .ok record ↔ record.IsNormal ∧ ∃ rest, bytes = record.toBytes ++ rest := by
  simp only [decode, parse_eq_ok, bind_eq_ok, readHeader_eq_ok, access_eq_ok]
  constructor
  · rintro ⟨_, header, _, ⟨hnormal, hnil, _, rfl, rfl⟩, data, _, hdata, h⟩
    obtain ⟨hlength, rest, rfl, rfl⟩ := readBytes_eq_ok.mp hdata
    obtain ⟨rfl, -⟩ := pure_eq_ok.mp h
    exact ⟨hnormal.isNormal hlength, rest, (List.append_assoc _ _ _).symm⟩
  · rintro ⟨hnormal, rest, rfl⟩
    have hheader : readHeader (between [] (record.toBytes ++ rest))
        = .ok { record with data := [] } (between record.headerBytes (record.data ++ rest)) :=
      readHeader_eq_ok.mpr ⟨hnormal.isNormalHeader, rfl, _, List.append_assoc _ _ _, rfl⟩
    have hdata : readBytes record.dataLength (between record.headerBytes (record.data ++ rest))
        = .ok record.data (between (record.headerBytes ++ record.data) rest) :=
      readBytes_eq_ok.mpr ⟨hnormal.dataLength.symm, rest, rfl, rfl⟩
    exact ⟨_, _, _, readHeader_eq_ok.mp hheader, record.data, _, hdata, rfl⟩

/-! ## Writing records -/

section Buffers

open Cursor.Writer

/-- The payload size is put down in its width. -/
theorem puts_writeAddedSize (record : Record) : Puts record.writeAddedSize record.sizeField := by
  rw [writeAddedSize, sizeField]
  cases record.sizeWidth with
  | absent => exact puts_pure
  | four =>
    -- four bytes hold of the size what they hold of its low half
    have hlow : LittleEndian.encode 4 record.addedSize.toNat
        = LittleEndian.word32 record.addedSize.toUInt32 :=
      (LittleEndian.encode_mod 4 record.addedSize.toNat).symm
    show Puts _ (LittleEndian.encode 4 record.addedSize.toNat)
    rw [hlow]
    exact puts_writeBytes _
  | eight => exact puts_writeBytes _

/-- The payload checksum is put down if the header has a field for it. -/
theorem puts_writeAddedCrc (record : Record) : Puts record.writeAddedCrc record.crcField := by
  rw [writeAddedCrc, crcField]
  split
  · exact puts_writeBytes _
  · exact puts_pure

/-- **The header behind its checksum** is put down field by field. -/
theorem puts_writeFields (record : Record) : Puts record.writeFields record.coveredHeader := by
  have hbytes : record.coveredHeader = [record.kind.toByte] ++ ([record.flags]
      ++ (LittleEndian.word16 record.size ++ (record.sizeField ++ record.crcField))) := by
    simp only [coveredHeader, List.append_assoc, List.cons_append, List.nil_append]
  rw [hbytes]
  exact (puts_writeBytes _).bind <| (puts_writeBytes _).bind <| (puts_writeBytes _).bind <|
    record.puts_writeAddedSize.bind record.puts_writeAddedCrc

/-- **Header and data** are put down in a row. -/
theorem puts_write (record : Record) : Puts record.write record.toBytes := by
  rw [toBytes, List.append_assoc]
  exact (puts_writeBytes _).bind (record.puts_writeFields.bind (puts_writeBytes _))

/-- **The checksum** is that of the header behind it and of the data: the buffer is as long as the
fields that are written into it. -/
theorem computeChecksum_def (record : Record) : record.computeChecksum
    = truncate16 (crc32c (crc32c 0 record.coveredHeader) record.data) := by
  have hlength : record.coveredHeader.length = record.headerLength - 2 := by
    have h := record.length_coveredHeader
    omega
  rw [computeChecksum, record.puts_writeFields.fills hlength]

/-- **A record whose size agrees with its layout is written** in its bytes, and no access of it to
the buffer is refused. -/
theorem encode?_eq (record : Record) : record.encode? =
    if record.size.toNat = record.encodedLength then .ok record.toBytes
    else .error (.invalidParameter (.layoutMismatch record.size record.encodedLength)) := by
  rw [encode?, record.puts_write.fills record.length_toBytes, ite_not]

end Buffers

/-- The record with a kind that its letter names and zero in the fields that its header lacks. It is
written in the same bytes. -/
def normalForm (record : Record) : Record :=
  { record with
    kind := .ofByte record.kind.toByte
    addedSize := if record.hasAddedSize then record.addedSize else 0
    addedCrc := if record.hasAddedCrc then record.addedCrc else 0 }

/-- A record fits its fields if the payload size fits its width and the length fits sixteen bits. -/
structure Fits (record : Record) : Prop where
  addedSize : record.hasAddedSize = true → record.addedSize.toNat ≤ record.sizeWidth.maxValue
  length : record.encodedLength ≤ 65535

/-- Whether a record fits depends on flags, payload size and data alone. -/
theorem Fits.congr {record other : Record} (h : record.Fits) (hflags : other.flags = record.flags)
    (hsize : other.addedSize = record.addedSize) (hdata : other.data = record.data) : other.Fits := by
  refine ⟨?_, ?_⟩
  · rw [hasAddedSize, sizeWidth, hflags, hsize]
    exact h.addedSize
  · rw [encodedLength, headerLength, hflags, hdata]
    exact h.length

/-- Without the flag there is no size. -/
theorem sizeWidth_of_hasAddedSize_eq_false {record : Record} (h : record.hasAddedSize = false) :
    record.sizeWidth = .absent := by
  simpa [hasAddedSize] using h

/-- The checksum covers nothing that the normal form drops. -/
theorem coveredHeader_normalForm (record : Record) :
    record.normalForm.coveredHeader = record.coveredHeader := by
  have hsize : record.normalForm.sizeField = record.sizeField := by
    show LittleEndian.encode record.sizeWidth.length
        (if record.hasAddedSize then record.addedSize else 0).toNat = record.sizeField
    by_cases h : record.hasAddedSize = true
    · rw [if_pos h, sizeField]
    · -- A size that has no field is written in no bytes, whatever it is.
      rw [sizeField, sizeWidth_of_hasAddedSize_eq_false (Bool.not_eq_true _ ▸ h)]
      rfl
  have hcrc : record.normalForm.crcField = record.crcField := by
    show (if record.hasAddedCrc then
        LittleEndian.word32 (if record.hasAddedCrc then record.addedCrc else 0) else []) = _
    by_cases h : record.hasAddedCrc = true
    · rw [if_pos h, if_pos h, crcField, if_pos h]
    · rw [if_neg h, crcField, if_neg h]
  rw [coveredHeader, coveredHeader, hsize, hcrc]
  simp [normalForm]

/-- The bytes do not hold what the normal form drops. -/
@[simp] theorem toBytes_normalForm (record : Record) :
    record.normalForm.toBytes = record.toBytes := by
  rw [toBytes, toBytes, coveredHeader_normalForm]
  rfl

/-- The normal form of a record is as valid as the record. -/
theorem isValid_normalForm (record : Record) : record.normalForm.isValid = record.isValid := by
  rw [isValid, isValid, computeChecksum_def, computeChecksum_def, coveredHeader_normalForm]
  rfl

/-- The normal form of a record that fits and whose size agrees with its layout is normal. -/
theorem Fits.isNormal_normalForm {record : Record} (h : record.Fits)
    (hsize : record.size.toNat = record.encodedLength) : record.normalForm.IsNormal where
  kind := congrArg RecordKind.ofByte (RecordKind.toByte_ofByte _)
  size := hsize
  addedSize := by
    show (if record.hasAddedSize then record.addedSize else 0).toNat ≤ record.sizeWidth.maxValue
    by_cases hadded : record.hasAddedSize = true
    · rw [if_pos hadded]
      exact h.addedSize hadded
    · rw [if_neg hadded]
      exact Nat.zero_le _
  addedCrc := fun hcrc => if_neg (Bool.not_eq_true _ ▸ hcrc)

/-- A normal record without a size field announces nothing. -/
theorem IsNormal.addedSize_eq_zero {record : Record} (h : record.IsNormal)
    (habsent : record.hasAddedSize = false) : record.addedSize = 0 := by
  have hmax := h.addedSize
  rw [sizeWidth_of_hasAddedSize_eq_false habsent] at hmax
  exact UInt64.toNat_inj.mp (Nat.le_zero.mp hmax)

/-- The record with size and checksum as its flags and data demand, whether it fits or not. -/
def fixed (record : Record) : Record :=
  let sized := { record with size := UInt16.ofNat record.encodedLength }
  { sized with checksum := sized.computeChecksum }

/-- **Fixing in place** refuses before it assigns, and then assigns both fields. -/
theorem fixInPlace_apply (record : Record) : fixInPlace record =
    if record.hasAddedSize ∧ record.sizeWidth.maxValue < record.addedSize.toNat then
      .error (.invalidParameter (.addedSizeTooLarge record.addedSize record.sizeWidth.length)) record
    else if 65535 < record.encodedLength then
      .error (.invalidParameter (.recordTooLong record.encodedLength)) record
    else .ok () record.fixed := by
  by_cases hadded : record.hasAddedSize ∧ record.sizeWidth.maxValue < record.addedSize.toNat
  · rw [if_pos hadded]
    exact bind_of_error (if_pos hadded)
  · rw [if_neg hadded]
    by_cases hlength : 65535 < record.encodedLength
    · rw [if_pos hlength]
      exact bind_of_error ((if_neg hadded).trans (if_pos hlength))
    · rw [if_neg hlength]
      exact bind_of_ok ((if_neg hadded).trans (if_neg hlength))

/-- A record that fits gets both fields. -/
theorem fixInPlace_of_fits {record : Record} (h : record.Fits) :
    fixInPlace record = .ok () record.fixed := by
  -- neither of the two refusals applies
  rw [fixInPlace_apply, if_neg fun hlt => Nat.not_lt.mpr (h.addedSize hlt.1) hlt.2,
    if_neg (Nat.not_lt.mpr h.length)]

/-- A record that does not fit stays as it was, and is refused as a parameter. -/
theorem fixInPlace_of_not_fits {record : Record} (h : ¬ record.Fits) :
    ∃ fault, fixInPlace record = .error (.invalidParameter fault) record := by
  rw [fixInPlace_apply]
  split
  next => exact ⟨_, rfl⟩
  next hadded =>
  split
  next => exact ⟨_, rfl⟩
  next hlength =>
    exact absurd ⟨fun hsize => Nat.le_of_not_lt fun hlt => hadded ⟨hsize, hlt⟩,
      Nat.le_of_not_lt hlength⟩ h

/-- **A record can be fixed** if and only if it fits. -/
theorem fix_eq_ok {record result : Record} :
    record.fix = .ok result ↔ record.Fits ∧ record.fixed = result := by
  by_cases h : record.Fits
  · rw [fix, fixInPlace_of_fits h]
    exact ⟨fun hfix => ⟨h, Except.ok.inj hfix⟩, fun hfix => congrArg _ hfix.2⟩
  · obtain ⟨fault, hfault⟩ := fixInPlace_of_not_fits h
    rw [fix, hfault]
    exact ⟨nofun, fun hfix => absurd hfix.1 h⟩

/-- A record that cannot be fixed is left as it was. -/
theorem fixInPlace_of_error {record : Record} {error : ArchiveError} (h : record.fix = .error error) :
    fixInPlace record = .error error record := by
  by_cases hfits : record.Fits
  · cases (fix_eq_ok.mpr ⟨hfits, rfl⟩).symm.trans h
  · obtain ⟨fault, hfault⟩ := fixInPlace_of_not_fits hfits
    rw [fix, hfault] at h
    rw [hfault, Except.error.inj h]

/-- A record that cannot be fixed is refused as a parameter. -/
theorem fix_eq_error {record : Record} {error : ArchiveError} (h : record.fix = .error error) :
    ∃ fault, error = .invalidParameter fault := by
  have hfits : ¬ record.Fits := fun hfits => nomatch (fix_eq_ok.mpr ⟨hfits, rfl⟩).symm.trans h
  obtain ⟨fault, hfault⟩ := fixInPlace_of_not_fits hfits
  rw [fix, hfault] at h
  exact ⟨fault, (Except.error.inj h).symm⟩

/-- A fixed record is fixed already. -/
theorem fixed_fixed (record : Record) : record.fixed.fixed = record.fixed := rfl

/-- What was assigned before leaves no trace in a record that is fixed again. -/
theorem fixed_fixed_with (record : Record) (addedSize : UInt64) (addedCrc : UInt32) :
    ({ record.fixed with addedSize, addedCrc } : Record).fixed
      = ({ record with addedSize, addedCrc } : Record).fixed := rfl

/-- **A fixed record is valid.** -/
theorem isValid_fixed (record : Record) : record.fixed.isValid = true := by
  rw [isValid, decide_eq_true_eq]
  rfl

/-- A fixed record that fits tells its own length. -/
theorem Fits.size_fixed {record : Record} (h : record.Fits) :
    record.fixed.size.toNat = record.fixed.encodedLength :=
  UInt16.toNat_ofNat_of_lt' (Nat.lt_succ_of_le h.length)

/-- **A record is encoded** if and only if its size is that of its bytes. -/
theorem encode?_eq_ok {record : Record} {bytes : List UInt8} : record.encode? = .ok bytes ↔
    record.size.toNat = record.encodedLength ∧ record.toBytes = bytes := by
  rw [encode?_eq]
  split
  next hsize => simp [hsize]
  next hsize => simp [hsize]

/-- Fixing a record leaves all but size and checksum, so it still fits. -/
theorem Fits.fixed {record : Record} (h : record.Fits) : record.fixed.Fits :=
  ⟨h.addedSize, h.length⟩

/-- Writing a fixed record and reading it back gives its normal form. -/
theorem Fits.isNormal_fixed {record : Record} (h : record.Fits) :
    record.fixed.normalForm.IsNormal :=
  h.fixed.isNormal_normalForm h.size_fixed

end Record

end RecordArchive
