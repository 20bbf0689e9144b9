import Mathlib.Data.List.GetD
import RecordArchive.Proofs.Archive.Effects
import RecordArchive.Proofs.Archive.RecordWriter

/-! # Where the fields of a record stand

The first six bytes of a record say all that is needed to find its end: the flags give the length of
the header, and the size field that of the whole record. Here a buffer is judged by these bytes alone,
whatever else it holds.

* `Record.exists_decodeHeader_iff`, `Record.exists_decode_iff`: the buffers that a header and a record
  can be read from.
* `Record.encode_decode_exact`: **reading is exact**, in that a record that was read is written in the
  bytes that it was read from.
* `Record.decode_encode_fix`: **fixing is exact**, in that a record that was fixed is written and read
  back up to the fields that it does not have. -/

namespace RecordArchive

open Program

namespace LittleEndian

/-- The bytes of a word stand for its number. -/
theorem decode_word16_eq (value : UInt16) : decode (word16 value) = value.toNat := by
  rw [word16, decode_encode]
  exact Nat.mod_eq_of_lt value.toNat_lt

/-- Any two bytes are a word. -/
theorem exists_word16 {field : List UInt8} (h : field.length = 2) :
    ∃ value, field = word16 value := by
  have hlt := decode_lt field
  rw [h] at hlt
  refine ⟨UInt16.ofNat (decode field), ?_⟩
  rw [word16, UInt16.toNat_ofNat_of_lt' hlt, ← h, encode_decode]

end LittleEndian

namespace Record

/-! ## The fields of the fixed header -/

/-- The number in the first two bytes, where a record has its checksum. -/
def checksumAt (bytes : List UInt8) : Nat := LittleEndian.decode (bytes.take 2)

/-- The fourth byte, where a record has its flags. -/
def flagsAt (bytes : List UInt8) : UInt8 := bytes.getD 3 0

/-- The number in the fifth and the sixth byte, where a record has its size. -/
def sizeAt (bytes : List UInt8) : Nat := LittleEndian.decode ((bytes.drop 4).take 2)

/-- What stands behind the flags does not change them. -/
theorem flagsAt_append {front : List UInt8} (h : 3 < front.length) (back : List UInt8) :
    flagsAt (front ++ back) = flagsAt front :=
  List.getD_append front back 0 3 h

/-- What stands behind the size field does not change it. -/
theorem sizeAt_append {front : List UInt8} (h : RecordFlags.fixedHeaderLength ≤ front.length)
    (back : List UInt8) : sizeAt (front ++ back) = sizeAt front := by
  rw [RecordFlags.fixedHeaderLength] at h
  rw [sizeAt, sizeAt, List.drop_append_of_le_length (by omega),
    List.take_append_of_le_length (by rw [List.length_drop]; omega)]

/-- Any six bytes are a checksum, a letter, flags and a size. -/
theorem exists_fixedHeader {bytes : List UInt8}
    (h : RecordFlags.fixedHeaderLength ≤ bytes.length) :
    ∃ (checksum : UInt16) (letter flags : UInt8) (size : UInt16) (rest : List UInt8),
      bytes = LittleEndian.word16 checksum ++ [letter] ++ [flags] ++ LittleEndian.word16 size
        ++ rest := by
  rw [RecordFlags.fixedHeaderLength] at h
  obtain ⟨first, rest, rfl, hfirst⟩ := exists_front (by omega : 2 ≤ bytes.length)
  rw [List.length_append, hfirst] at h
  obtain ⟨checksum, rfl⟩ := LittleEndian.exists_word16 hfirst
  obtain ⟨second, rest, rfl, hsecond⟩ := exists_front (by omega : 1 ≤ rest.length)
  rw [List.length_append, hsecond] at h
  obtain ⟨letter, rfl⟩ := List.length_eq_one_iff.mp hsecond
  obtain ⟨third, rest, rfl, hthird⟩ := exists_front (by omega : 1 ≤ rest.length)
  rw [List.length_append, hthird] at h
  obtain ⟨flags, rfl⟩ := List.length_eq_one_iff.mp hthird
  obtain ⟨fourth, rest, rfl, hfourth⟩ := exists_front (by omega : 2 ≤ rest.length)
  obtain ⟨size, rfl⟩ := LittleEndian.exists_word16 hfourth
  exact ⟨checksum, letter, flags, size, rest, by simp only [List.append_assoc]⟩

/-- Any bytes of its length are a payload size. -/
theorem exists_addedSize (width : SizeWidth) {field : List UInt8}
    (h : field.length = width.length) : ∃ value : UInt64, value.toNat ≤ width.maxValue ∧
      field = LittleEndian.encode width.length value.toNat := by
  have hlt := LittleEndian.decode_lt field
  have hwidth : LittleEndian.capacity width.length - 1 ≤ width.maxValue ∧
      LittleEndian.capacity width.length ≤ 2 ^ 64 := by
    cases width <;> decide
  rw [h] at hlt
  refine ⟨UInt64.ofNat (LittleEndian.decode field), ?_⟩
  rw [UInt64.toNat_ofNat_of_lt' (Nat.lt_of_lt_of_le hlt hwidth.2), ← h, LittleEndian.encode_decode]
  exact ⟨by omega, rfl⟩

/-- Any bytes of its length are a payload checksum. -/
theorem exists_addedCrc (present : Bool) {field : List UInt8}
    (h : field.length = if present then 4 else 0) : ∃ value : UInt32,
      (present = false → value = 0) ∧ field = if present then LittleEndian.word32 value else [] := by
  cases present with
  | false => exact ⟨0, fun _ => rfl, List.length_eq_zero_iff.mp h⟩
  | true =>
    have hlt := LittleEndian.decode_lt field
    have hlength : field.length = 4 := h
    refine ⟨UInt32.ofNat (LittleEndian.decode field), by simp, ?_⟩
    rw [hlength] at hlt
    rw [if_pos rfl, LittleEndian.word32, UInt32.toNat_ofNat_of_lt' hlt, ← hlength,
      LittleEndian.encode_decode]

/-! ## The fields of a record that is there -/

section Fields

variable (header : Record) (rest : List UInt8)

/-- The checksum of a header is at its place. -/
theorem checksumAt_headerBytes :
    checksumAt (header.headerBytes ++ rest) = header.checksum.toNat :=
  LittleEndian.decode_word16_eq header.checksum

/-- The flags of a header are at their place. -/
theorem flagsAt_headerBytes : flagsAt (header.headerBytes ++ rest) = header.flags := rfl

/-- The size of a record is at its place. -/
theorem sizeAt_headerBytes : sizeAt (header.headerBytes ++ rest) = header.size.toNat :=
  LittleEndian.decode_word16_eq header.size

end Fields

/-- **The bytes end inside a record**: inside the header that the flags ask for, or behind it, in front
of the end that a size with room for the header gives. -/
def EndsInside (bytes : List UInt8) : Prop :=
  bytes.length < RecordFlags.headerLength (flagsAt bytes) ∨
    RecordFlags.headerLength (flagsAt bytes) ≤ sizeAt bytes ∧ bytes.length < sizeAt bytes

/-- The bytes of a record that is cut end inside of it. -/
theorem IsNormal.endsInside {record : Record} (h : record.IsNormal) {front back : List UInt8}
    (hbytes : record.toBytes = front ++ back) (hback : back ≠ []) : EndsInside front := by
  have hpos := List.length_pos_iff.mpr hback
  have hlength : record.size.toNat = front.length + back.length := by
    rw [h.size, ← length_toBytes, hbytes, List.length_append]
  by_cases hfixed : front.length < RecordFlags.fixedHeaderLength
  · exact .inl (Nat.lt_of_lt_of_le hfixed (RecordFlags.fixedHeaderLength_le_headerLength _))
  · -- The fixed part is there, so flags and size are those of the record.
    have hsix : RecordFlags.fixedHeaderLength ≤ front.length := Nat.le_of_not_lt hfixed
    have hflags : flagsAt front = record.flags := by
      rw [← flagsAt_append (Nat.lt_of_lt_of_le (by decide) hsix) back, ← hbytes]
      rfl
    have hsize : sizeAt front = record.size.toNat := by
      rw [← sizeAt_append hsix back, ← hbytes, toBytes_eq, sizeAt_headerBytes]
    refine .inr ⟨?_, by omega⟩
    rw [hflags, hsize]
    exact h.isNormalHeader.size

/-! ## Reading records -/

/-- A header that is complete is that of some record. -/
theorem exists_headerBytes_append {checksum : UInt16} {letter flags : UInt8} {size : UInt16}
    {rest : List UInt8}
    (hlength : RecordFlags.headerLength flags ≤ RecordFlags.fixedHeaderLength + rest.length)
    (hsize : RecordFlags.headerLength flags ≤ size.toNat) :
    ∃ (header : Record) (more : List UInt8), header.IsNormalHeader ∧ header.data = [] ∧
      LittleEndian.word16 checksum ++ [letter] ++ [flags] ++ LittleEndian.word16 size ++ rest
        = header.headerBytes ++ more := by
  rw [RecordFlags.headerLength, RecordFlags.crcLength] at hlength
  -- the fields that the flags select stand in front of the data
  obtain ⟨sizeField, rest, rfl, hsizeField⟩ :=
    exists_front (by omega : (SizeWidth.ofFlags flags).length ≤ rest.length)
  rw [List.length_append] at hlength
  obtain ⟨crcField, more, rfl, hcrcField⟩ := exists_front
    (by omega : (if RecordFlags.has flags RecordFlags.payloadCrc then 4 else 0) ≤ rest.length)
  obtain ⟨addedSize, hmax, rfl⟩ := exists_addedSize _ hsizeField
  obtain ⟨addedCrc, hzero, rfl⟩ := exists_addedCrc _ hcrcField
  refine ⟨{ checksum, kind := .ofByte letter, flags, size, addedSize, addedCrc }, more,
    ⟨?_, hsize, hmax, hzero⟩, rfl, ?_⟩
  · exact congrArg RecordKind.ofByte (RecordKind.toByte_ofByte letter)
  · simp only [headerBytes_eq, RecordKind.toByte_ofByte, List.append_assoc]
    rfl

/-- **A header can be read** from a buffer that is as long as its flags ask for, if the size field has
room for it. -/
theorem exists_decodeHeader_iff {bytes : List UInt8} :
    (∃ header, decodeHeader bytes = .ok header) ↔
      RecordFlags.headerLength (flagsAt bytes) ≤ bytes.length ∧
        RecordFlags.headerLength (flagsAt bytes) ≤ sizeAt bytes := by
  constructor
  · rintro ⟨header, hheader⟩
    obtain ⟨hnormal, -, rest, rfl⟩ := decodeHeader_eq_ok.mp hheader
    rw [flagsAt_headerBytes, sizeAt_headerBytes, List.length_append, length_headerBytes]
    exact ⟨Nat.le_add_right _ _, hnormal.size⟩
  · rintro ⟨hlength, hsize⟩
    obtain ⟨checksum, letter, flags, size, rest, rfl⟩ := exists_fixedHeader
      (Nat.le_trans (RecordFlags.fixedHeaderLength_le_headerLength _) hlength)
    rw [List.length_append] at hlength
    have hroom : RecordFlags.headerLength flags ≤ size.toNat :=
      Nat.le_trans hsize (Nat.le_of_eq (LittleEndian.decode_word16_eq size))
    obtain ⟨header, more, hnormal, hdata, hbytes⟩ := exists_headerBytes_append hlength hroom
    exact ⟨header, decodeHeader_eq_ok.mpr ⟨hnormal, hdata, more, hbytes⟩⟩

/-- **A record can be read** from a buffer that has its fixed header, if the size field has room for
the header and does not reach beyond the buffer. -/
theorem exists_decode_iff {bytes : List UInt8} : (∃ record, decode bytes = .ok record) ↔
    RecordFlags.fixedHeaderLength ≤ bytes.length ∧
      RecordFlags.headerLength (flagsAt bytes) ≤ sizeAt bytes ∧ sizeAt bytes ≤ bytes.length := by
  constructor
  · rintro ⟨record, hrecord⟩
    obtain ⟨hnormal, rest, rfl⟩ := decode_eq_ok.mp hrecord
    have hheader := RecordFlags.fixedHeaderLength_le_headerLength record.flags
    have hsize := hnormal.size
    rw [toBytes_eq, List.append_assoc, flagsAt_headerBytes, sizeAt_headerBytes, hsize,
      ← List.append_assoc, ← toBytes_eq, List.length_append, length_toBytes, encodedLength,
      headerLength]
    omega
  · rintro ⟨-, hheader, hsize⟩
    obtain ⟨header, hdecode⟩ :=
      exists_decodeHeader_iff.mpr ⟨Nat.le_trans hheader hsize, hheader⟩
    obtain ⟨hnormal, hnil, more, rfl⟩ := decodeHeader_eq_ok.mp hdecode
    -- the data are the front part of what is left
    rw [sizeAt_headerBytes, List.length_append, length_headerBytes] at hsize
    have hroom : header.dataLength ≤ more.length := by
      rw [dataLength]
      omega
    obtain ⟨data, rest, rfl, hdata⟩ := exists_front hroom
    exact ⟨{ header with data }, decode_eq_ok.mpr
      ⟨hnormal.isNormal hdata, rest, (List.append_assoc _ _ _).symm⟩⟩

/-! ## Records that were read -/

/-- The checksum of the contents is taken over all bytes behind the stored one. -/
theorem computeChecksum_eq (record : Record) :
    record.computeChecksum = truncate16 (crc32c 0 (record.toBytes.drop 2)) := by
  rw [computeChecksum_def, ← crc32c_append]
  rfl

/-- The bytes of a record that was read are those up to its size. -/
theorem IsNormal.take_sizeAt {record : Record} (h : record.IsNormal) (rest : List UInt8) :
    (record.toBytes ++ rest).take (sizeAt (record.toBytes ++ rest)) = record.toBytes := by
  have hsize : sizeAt (record.toBytes ++ rest) = record.toBytes.length := by
    rw [length_toBytes, ← h.size, toBytes_eq, List.append_assoc, sizeAt_headerBytes]
  rw [hsize, List.take_left]

/-- The size of a record that was read stands in its place. -/
theorem size_of_decode {bytes : List UInt8} {record : Record} (h : decode bytes = .ok record) :
    record.size.toNat = sizeAt bytes := by
  obtain ⟨-, rest, rfl⟩ := decode_eq_ok.mp h
  rw [toBytes_eq, List.append_assoc, sizeAt_headerBytes]

/-- All bytes of a record that was read were there. -/
theorem size_le_of_decode {bytes : List UInt8} {record : Record} (h : decode bytes = .ok record) :
    record.size.toNat ≤ bytes.length := by
  obtain ⟨hnormal, rest, rfl⟩ := decode_eq_ok.mp h
  rw [hnormal.size, List.length_append, length_toBytes]
  exact Nat.le_add_right _ _

/-- A record that was read is valid if the stored checksum is that of the bytes behind it. -/
theorem isValid_iff_of_decode {bytes : List UInt8} {record : Record}
    (h : decode bytes = .ok record) : record.isValid = true ↔
      checksumAt bytes = (truncate16 (crc32c 0 ((bytes.take (sizeAt bytes)).drop 2))).toNat := by
  obtain ⟨hnormal, rest, rfl⟩ := decode_eq_ok.mp h
  rw [hnormal.take_sizeAt, ← computeChecksum_eq, toBytes_eq, List.append_assoc,
    checksumAt_headerBytes, UInt16.toNat_inj, isValid, decide_eq_true_eq]

/-- The header of a record that was read can be read alone. -/
theorem decodeHeader_of_decode {bytes : List UInt8} {record : Record}
    (h : decode bytes = .ok record) : decodeHeader bytes = .ok { record with data := [] } := by
  obtain ⟨hnormal, rest, rfl⟩ := decode_eq_ok.mp h
  exact decodeHeader_eq_ok.mpr
    ⟨hnormal.isNormalHeader, rfl, record.data ++ rest, List.append_assoc _ _ _⟩

/-- **Reading a record is exact.**

* A record is read from a buffer if and only if the fixed header is there, the size field has room for
  the header that the flags ask for, and the buffer is as long as the size field says.
* Otherwise the bytes are refused as invalid data.
* A record that was read is written in the bytes that it was read from. It is valid if and only if the
  stored checksum is that of the bytes behind it, and reading only its header gives the same fields and
  the length of the data. -/
theorem encode_decode_exact (bytes : List UInt8) :
    ((∃ record, decode bytes = .ok record) ↔ 6 ≤ bytes.length ∧
      RecordFlags.headerLength (flagsAt bytes) ≤ sizeAt bytes ∧ sizeAt bytes ≤ bytes.length) ∧
    (∀ error, decode bytes = .error error → ∃ fault, error = .invalidData fault) ∧
    ∀ record, decode bytes = .ok record →
      record.encode? = .ok (bytes.take (sizeAt bytes)) ∧
      (record.isValid = true ↔
        checksumAt bytes = (truncate16 (crc32c 0 ((bytes.take (sizeAt bytes)).drop 2))).toNat) ∧
      ∃ header, decodeHeader bytes = .ok header ∧ header = { record with data := [] } ∧
        header.dataLength = sizeAt bytes - RecordFlags.headerLength (flagsAt bytes) := by
  refine ⟨exists_decode_iff, fun _ => decode_eq_error, fun record hrecord => ?_⟩
  refine ⟨?_, isValid_iff_of_decode hrecord, _, decodeHeader_of_decode hrecord, rfl, ?_⟩
  all_goals obtain ⟨hnormal, rest, rfl⟩ := decode_eq_ok.mp hrecord
  · rw [hnormal.take_sizeAt]
    exact encode?_eq_ok.mpr ⟨hnormal.size, rfl⟩
  · rw [toBytes_eq, List.append_assoc, sizeAt_headerBytes, flagsAt_headerBytes]
    rfl

/-! ## Records that are written -/

/-- **Fixing a record is exact.**

* A record can be fixed if and only if header and data fit the size field and the payload size, if the
  header has one, fits its width.
* Otherwise the record of the caller stays as it was.
* Fixing changes nothing but size and checksum, and it changes nothing any more in a fixed record. That
  is written in as many bytes as its size says, with the checksum of the bytes behind it, and read back
  in front of anything: a valid record that has zero in the fields that the header lacks, and the kind
  that its letter names. -/
theorem decode_encode_fix (record : Record) :
    ((∃ fixed, record.fix = .ok fixed) ↔
      RecordFlags.headerLength record.flags + record.data.length ≤ 65535 ∧
        (record.hasAddedSize = true → record.addedSize.toNat ≤ record.sizeWidth.maxValue)) ∧
    (∀ error, record.fix = .error error → fixInPlace record = .error error record ∧
      ∀ {σ : Type} (archive : Archive σ),
        Archive.fixValue (record, archive) = .error error (record, archive)) ∧
    ∀ fixed, record.fix = .ok fixed →
      (fixInPlace record = .ok () fixed ∧ ∀ {σ : Type} (archive : Archive σ),
        Archive.fixValue (record, archive) = .ok fixed (fixed, archive)) ∧
      fixed = { record with size := fixed.size, checksum := fixed.checksum } ∧
      fixed.fix = .ok fixed ∧
      ∃ bytes, fixed.encode? = .ok bytes ∧ bytes.length = fixed.size.toNat ∧
        fixed.computeChecksum = truncate16 (crc32c 0 (bytes.drop 2)) ∧
        ∀ rest, ∃ decoded, decode (bytes ++ rest) = .ok decoded ∧ decoded.isValid = true ∧
          decoded = { fixed with
            kind := .ofByte fixed.kind.toByte
            addedSize := if fixed.hasAddedSize then fixed.addedSize else 0
            addedCrc := if fixed.hasAddedCrc then fixed.addedCrc else 0 } := by
  refine ⟨⟨?_, ?_⟩, fun _ herror => ⟨fixInPlace_of_error herror,
    Archive.fixValue_of_error herror⟩, fun fixed hfixed => ?_⟩
  · rintro ⟨fixed, hfixed⟩
    have hfits := (fix_eq_ok.mp hfixed).1
    exact ⟨hfits.length, hfits.addedSize⟩
  · rintro ⟨hlength, hsize⟩
    exact ⟨record.fixed, fix_eq_ok.mpr ⟨⟨hsize, hlength⟩, rfl⟩⟩
  · obtain ⟨hfits, rfl⟩ := fix_eq_ok.mp hfixed
    refine ⟨⟨fixInPlace_of_fits hfits, Archive.fixValue_of_fits hfits⟩, rfl, fix_eq_ok.mpr ⟨hfits.fixed, fixed_fixed record⟩,
      record.fixed.toBytes, encode?_eq_ok.mpr ⟨hfits.size_fixed, rfl⟩, ?_, computeChecksum_eq _,
      fun rest => ⟨record.fixed.normalForm, ?_, ?_, rfl⟩⟩
    · rw [length_toBytes, hfits.size_fixed]
    · rw [← toBytes_normalForm]
      exact decode_eq_ok.mpr ⟨hfits.isNormal_fixed, rest, rfl⟩
    · rw [isValid_normalForm, isValid_fixed]

end Record

end RecordArchive
