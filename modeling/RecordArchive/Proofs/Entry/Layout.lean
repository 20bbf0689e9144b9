import Mathlib.Data.List.GetD
import RecordArchive.Proofs.Archive.Effects
import RecordArchive.Proofs.Entry.Codec
import RecordArchive.Proofs.Entry.Grammar

/-! # Where the metadata of an entry stands

The first byte of a file header's data are its flags, and they give every other field its place. Here
the data is judged field by field at these places, without the program that reads it.

* `EntryInfo.parse_read_eq_ok`: metadata is read if its fields and its name are there and the name is
  text, and what is read are the fields at their places.
* `EntryInfo.fieldsIn_of_prefix`: what stands behind the name does not matter.
* `EntryInfo.ofRecord_toRecord`: **writing is exact**, in that a file header is read back as the
  metadata that it was made of, whatever is announced for the payload behind it.
* `EntryInfo.toRecord_ofRecord`: **reading is stable**, in that metadata that was read is written and
  read back as it is. -/

namespace RecordArchive

open Program

namespace LittleEndian

/-- The number in the bytes at a place. -/
def numberAt (bytes : List UInt8) (place width : Nat) : Nat := decode ((bytes.drop place).take width)

/-- What stands behind the bytes of a number does not change it. -/
theorem numberAt_append {front : List UInt8} {place width : Nat}
    (h : place + width ≤ front.length) (back : List UInt8) :
    numberAt (front ++ back) place width = numberAt front place width := by
  rw [numberAt, numberAt, List.drop_append_of_le_length (by omega),
    List.take_append_of_le_length (by rw [List.length_drop]; omega)]

/-- A number fits the width that it stands in. -/
theorem numberAt_lt {bytes : List UInt8} {place width : Nat} (h : place + width ≤ bytes.length) :
    numberAt bytes place width < capacity width := by
  have hlength : ((bytes.drop place).take width).length = width := by
    rw [List.length_take, List.length_drop]
    omega
  have hlt := decode_lt ((bytes.drop place).take width)
  rwa [hlength] at hlt

/-- The number in a single byte. -/
theorem ofNat_numberAt_one (bytes : List UInt8) (place : Nat) :
    UInt8.ofNat (numberAt bytes place 1) = bytes.getD place 0 := by
  rw [numberAt, List.getD_eq_getElem?_getD, ← List.head?_drop]
  cases bytes.drop place with
  | nil => rfl
  | cons byte rest => simp

end LittleEndian

/-! ## Reading at a place -/

namespace Cursor.Reader

open LittleEndian

/-- The cursor at a place of a buffer. -/
def standing (bytes : List UInt8) (place : Nat) : Reader := { bytes, position := place }

variable {α : Type} {bytes : List UInt8} {place : Nat} {final : Reader}

/-- Bytes are read where they stand, if there are as many. -/
theorem readBytes_standing {count : Nat} {taken : List UInt8} :
    readBytes count (standing bytes place) = .ok taken final ↔
      place + count ≤ bytes.length ∧ (bytes.drop place).take count = taken ∧
        standing bytes (place + count) = final := by
  by_cases hfits : place + count ≤ bytes.length
  · have hread : readBytes count (standing bytes place)
        = .ok ((bytes.drop place).take count) (standing bytes (place + count)) := readBytes_ok hfits
    rw [hread, EStateM.Result.ok.injEq]
    exact (and_iff_right hfits).symm
  · have hread : readBytes count (standing bytes place)
        = .error ⟨place, count, bytes.length⟩ (standing bytes place) := readBytes_error hfits
    rw [hread]
    exact ⟨nofun, fun h => absurd h.1 hfits⟩

/-- A number is read where it stands, if its bytes are there. -/
theorem readNumber_standing {width value : Nat} :
    readNumber width (standing bytes place) = .ok value final ↔
      place + width ≤ bytes.length ∧ numberAt bytes place width = value ∧
        standing bytes (place + width) = final := by
  rw [readNumber, map_eq_ok]
  constructor
  · rintro ⟨_, hread, rfl⟩
    obtain ⟨hfits, rfl, rfl⟩ := readBytes_standing.mp hread
    exact ⟨hfits, rfl, rfl⟩
  · rintro ⟨hfits, rfl, rfl⟩
    exact ⟨_, readBytes_standing.mpr ⟨hfits, rfl, rfl⟩, rfl⟩

/-- A word is made of the number at the place of the cursor. -/
theorem map_readNumber_standing {width : Nat} {ofNumber : Nat → α} {value : α} :
    (ofNumber <$> readNumber width) (standing bytes place) = .ok value final ↔
      place + width ≤ bytes.length ∧ ofNumber (numberAt bytes place width) = value ∧
        standing bytes (place + width) = final := by
  rw [map_eq_ok]
  constructor
  · rintro ⟨_, hread, rfl⟩
    obtain ⟨hfits, rfl, rfl⟩ := readNumber_standing.mp hread
    exact ⟨hfits, rfl, rfl⟩
  · rintro ⟨hfits, rfl, rfl⟩
    exact ⟨_, readNumber_standing.mpr ⟨hfits, rfl, rfl⟩, rfl⟩

/-- A single byte is read as it stands. -/
theorem readWord8_standing {value : UInt8} :
    readWord8 (standing bytes place) = .ok value final ↔
      place + 1 ≤ bytes.length ∧ bytes.getD place 0 = value ∧ standing bytes (place + 1) = final := by
  rw [readWord8, map_readNumber_standing, ofNat_numberAt_one]

end Cursor.Reader

namespace EntryInfo

open Cursor.Reader LittleEndian

/-! ## The places of the fields -/

/-- The number of bytes that the flags give to the length of the content. Two of the four values of the
mask mean that there is none. -/
def sizeLength (flags : UInt8) : Nat :=
  if flags &&& sizeMask = wideSizeFlag then 8
  else if flags &&& sizeMask = narrowSizeFlag then 4
  else 0

/-- The number of bytes that the flags give to the checksum. -/
def crcLength (flags : UInt8) : Nat := if RecordFlags.has flags crcFlag then 4 else 0

/-- The number of bytes that the flags give to the time. -/
def timeLength (flags : UInt8) : Nat := if RecordFlags.has flags timeFlag then 8 else 0

/-- The place of the checksum, behind flags, kind and length of the content. -/
def crcPlace (flags : UInt8) : Nat := 2 + sizeLength flags

/-- The place of the reserved word. -/
def reservedPlace (flags : UInt8) : Nat := crcPlace flags + crcLength flags

/-- The place of the time. -/
def timePlace (flags : UInt8) : Nat := reservedPlace flags + 4

/-- The place of the length of the name. -/
def nameLengthPlace (flags : UInt8) : Nat := timePlace flags + timeLength flags

/-- The place of the name. -/
def namePlace (flags : UInt8) : Nat := nameLengthPlace flags + 2

/-- The flags in front of the metadata. -/
def flagsIn (data : List UInt8) : UInt8 := data.getD 0 0

/-- The number of bytes of the name. -/
def nameLengthIn (data : List UInt8) : Nat := numberAt data (nameLengthPlace (flagsIn data)) 2

/-- The number of bytes of the metadata, up to the end of the name. -/
def lengthIn (data : List UInt8) : Nat := namePlace (flagsIn data) + nameLengthIn data

/-- The bytes of the name. -/
def nameIn (data : List UInt8) : List UInt8 :=
  (data.drop (namePlace (flagsIn data))).take (nameLengthIn data)

/-- The value of a field at a place. A field that is given no bytes is missing. -/
def fieldAt? {α : Type} (ofNumber : Nat → α) (data : List UInt8) (place width : Nat) : Option α :=
  if width = 0 then none else some (ofNumber (numberAt data place width))

/-- The metadata with the fields at their places. -/
def fieldsIn (data : List UInt8) (name : String) : EntryInfo :=
  let flags := flagsIn data
  { name
    kind := .ofByte (data.getD 1 0)
    timeStamp? := fieldAt? .ofNat data (timePlace flags) (timeLength flags)
    unpackedSize? := fieldAt? .ofNat data 2 (sizeLength flags)
    wide := decide (sizeLength flags = 8)
    crc? := fieldAt? .ofNat data (crcPlace flags) (crcLength flags)
    compressionInfo := .ofNat (numberAt data (reservedPlace flags) 4) }

/-- Data that reaches to the name holds every other field. -/
theorem fields_inside {data : List UInt8} (h : namePlace (flagsIn data) ≤ data.length) :
    2 ≤ data.length ∧ crcPlace (flagsIn data) ≤ data.length ∧
      crcPlace (flagsIn data) + crcLength (flagsIn data) ≤ data.length ∧
      reservedPlace (flagsIn data) + 4 ≤ data.length ∧
      timePlace (flagsIn data) + timeLength (flagsIn data) ≤ data.length := by
  simp only [namePlace, nameLengthPlace, timePlace, reservedPlace, crcPlace] at h ⊢
  omega

/-- Data that reaches to the end of the name reaches to its start. -/
theorem namePlace_le {data : List UInt8} (h : lengthIn data ≤ data.length) :
    namePlace (flagsIn data) ≤ data.length := Nat.le_trans (Nat.le_add_right _ _) h

/-! ## Reading -/

/-- A word is there if the flags say so. -/
theorem readIf_standing {α : Type} {present : Bool} {width : Nat} (hwidth : width ≠ 0)
    {ofNumber : Nat → α} {bytes : List UInt8} {place : Nat} {value? : Option α}
    {final : Cursor.Reader} :
    readIf present (ofNumber <$> readNumber width) (standing bytes place) = .ok value? final ↔
      (present = true → place + width ≤ bytes.length) ∧
        fieldAt? ofNumber bytes place (if present then width else 0) = value? ∧
        standing bytes (place + if present then width else 0) = final := by
  cases present with
  | false =>
    have hread : readIf false (ofNumber <$> readNumber width) (standing bytes place)
        = .ok none (standing bytes place) := rfl
    rw [hread, EStateM.Result.ok.injEq]
    exact (and_iff_right nofun).symm
  | true =>
    simp only [readIf, if_true, forall_const, fieldAt?, if_neg hwidth]
    rw [map_eq_ok]
    constructor
    · rintro ⟨_, hread, rfl⟩
      obtain ⟨hfits, rfl, rfl⟩ := map_readNumber_standing.mp hread
      exact ⟨hfits, rfl, rfl⟩
    · rintro ⟨hfits, rfl, rfl⟩
      exact ⟨_, map_readNumber_standing.mpr ⟨hfits, rfl, rfl⟩, rfl⟩

/-- The length of the content takes as many bytes as the flags say. -/
theorem readUnpackedSize_standing {flags : UInt8} {bytes : List UInt8} {place : Nat}
    {size? : Option UInt64} {wide : Bool} {final : Cursor.Reader} :
    readUnpackedSize flags (standing bytes place) = .ok (size?, wide) final ↔
      (sizeLength flags ≠ 0 → place + sizeLength flags ≤ bytes.length) ∧
        fieldAt? .ofNat bytes place (sizeLength flags) = size? ∧
        decide (sizeLength flags = 8) = wide ∧
        standing bytes (place + sizeLength flags) = final := by
  rw [readUnpackedSize, sizeLength]
  split
  next =>
    rw [map_eq_ok]
    constructor
    · rintro ⟨_, hread, hpair⟩
      obtain ⟨hfits, rfl, rfl⟩ := map_readNumber_standing.mp hread
      obtain ⟨rfl, rfl⟩ := Prod.mk.inj hpair
      exact ⟨fun _ => hfits, rfl, rfl, rfl⟩
    · rintro ⟨hfits, rfl, rfl, rfl⟩
      exact ⟨_, map_readNumber_standing.mpr ⟨hfits (by decide), rfl, rfl⟩, rfl⟩
  next =>
  split
  next =>
    rw [map_readNumber_standing, Prod.mk.injEq]
    constructor
    · rintro ⟨hfits, ⟨rfl, rfl⟩, rfl⟩
      exact ⟨fun _ => hfits, rfl, rfl, rfl⟩
    · rintro ⟨hfits, rfl, rfl, rfl⟩
      exact ⟨hfits (by decide), ⟨rfl, rfl⟩, rfl⟩
  next =>
    rw [pure_eq_ok, Prod.mk.injEq]
    constructor
    · rintro ⟨⟨rfl, rfl⟩, rfl⟩
      exact ⟨fun h => absurd rfl h, rfl, rfl, rfl⟩
    · rintro ⟨-, rfl, rfl, rfl⟩
      exact ⟨⟨rfl, rfl⟩, rfl⟩

/-- **Metadata is read from its places**: if the fields and the name are there and the name is text. -/
theorem parse_read_eq_ok {data : List UInt8} {info : EntryInfo} :
    Record.parse read data = .ok info ↔
      lengthIn data ≤ data.length ∧ Text.Utf8.bytesOf info.name = nameIn data ∧
        fieldsIn data info.name = info := by
  have hstart : between [] data = standing data 0 := rfl
  simp only [Record.parse_eq_ok, hstart, read, bind_eq_ok, Record.access_eq_ok]
  constructor
  · -- every field is at the place where the ones before it end
    rintro ⟨_, flags, _, hflags, letter, _, hletter, ⟨size?, wide⟩, _, hsize, crc?, _, hcrc,
      reserved, _, hreserved, time?, _, htime, nameLength, _, hnameLength, nameBytes, _, hname, h⟩
    obtain ⟨-, rfl, rfl⟩ := readWord8_standing.mp hflags
    obtain ⟨-, rfl, rfl⟩ := readWord8_standing.mp hletter
    obtain ⟨-, rfl, rfl, rfl⟩ := readUnpackedSize_standing.mp hsize
    obtain ⟨-, rfl, rfl⟩ := (readIf_standing (by decide)).mp hcrc
    obtain ⟨-, rfl, rfl⟩ := map_readNumber_standing.mp hreserved
    obtain ⟨-, rfl, rfl⟩ := (readIf_standing (by decide)).mp htime
    obtain ⟨-, rfl, rfl⟩ := readNumber_standing.mp hnameLength
    obtain ⟨hlength, hbytes, rfl⟩ := readBytes_standing.mp hname
    cases htext : Text.Utf8.textOf? nameBytes with
    | ok name =>
      rw [htext] at h
      obtain ⟨rfl, -⟩ := pure_eq_ok.mp h
      exact ⟨hlength, (Text.Utf8.textOf?_eq_ok.mp htext).trans hbytes.symm, rfl⟩
    | error fault =>
      rw [htext] at h
      exact absurd (throw_eq_ok.mp h) id
  · -- no field is asked for that is not in front of the end of the name
    rintro ⟨hlength, hname, hinfo⟩
    obtain ⟨hflags, hsize, hcrc, hreserved, htime⟩ := fields_inside (namePlace_le hlength)
    have htext : Text.Utf8.textOf? (nameIn data) = .ok info.name := Text.Utf8.textOf?_eq_ok.mpr hname
    have hcrc' : RecordFlags.has (flagsIn data) crcFlag = true →
        crcPlace (flagsIn data) + 4 ≤ data.length := fun h => by rwa [crcLength, if_pos h] at hcrc
    have htime' : RecordFlags.has (flagsIn data) timeFlag = true →
        timePlace (flagsIn data) + 8 ≤ data.length := fun h => by rwa [timeLength, if_pos h] at htime
    refine ⟨standing data (lengthIn data),
      _, _, readWord8_standing.mpr ⟨Nat.le_of_succ_le hflags, rfl, rfl⟩,
      _, _, readWord8_standing.mpr ⟨hflags, rfl, rfl⟩,
      _, _, readUnpackedSize_standing.mpr ⟨fun _ => hsize, rfl, rfl, rfl⟩,
      _, _, (readIf_standing (by decide)).mpr ⟨hcrc', rfl, rfl⟩,
      _, _, map_readNumber_standing.mpr ⟨hreserved, rfl, rfl⟩,
      _, _, (readIf_standing (by decide)).mpr ⟨htime', rfl, rfl⟩,
      _, _, readNumber_standing.mpr ⟨namePlace_le hlength, rfl, rfl⟩,
      nameIn data, _, readBytes_standing.mpr ⟨hlength, rfl, rfl⟩, ?_⟩
    rw [htext]
    exact pure_eq_ok.mpr ⟨hinfo, rfl⟩

/-! ## Bytes behind the name -/

/-- A field is the same whatever comes behind it. -/
theorem fieldAt?_append {α : Type} (ofNumber : Nat → α) {front : List UInt8} {place width : Nat}
    (h : place + width ≤ front.length) (back : List UInt8) :
    fieldAt? ofNumber (front ++ back) place width = fieldAt? ofNumber front place width := by
  rw [fieldAt?, fieldAt?, numberAt_append h]

/-- The flags are the same whatever comes behind them. -/
theorem flagsIn_append {front : List UInt8} (h : 0 < front.length) (back : List UInt8) :
    flagsIn (front ++ back) = flagsIn front := List.getD_append front back 0 0 h

/-- The length of the metadata is said in front of the name. -/
theorem lengthIn_append {front : List UInt8} (h : namePlace (flagsIn front) ≤ front.length)
    (back : List UInt8) : lengthIn (front ++ back) = lengthIn front := by
  have hflags := flagsIn_append (Nat.lt_of_lt_of_le Nat.two_pos (fields_inside h).1) back
  rw [lengthIn, nameLengthIn, hflags, numberAt_append h, lengthIn, nameLengthIn]

/-- **Bytes behind the name are not looked at**: they change neither name nor fields. -/
theorem fieldsIn_append {front : List UInt8} (h : lengthIn front ≤ front.length) (back : List UInt8) :
    nameIn (front ++ back) = nameIn front ∧ fieldsIn (front ++ back) = fieldsIn front := by
  have hplace := namePlace_le h
  obtain ⟨hstart, hsize, hcrc, hreserved, htime⟩ := fields_inside hplace
  have hflags := flagsIn_append (Nat.lt_of_lt_of_le Nat.two_pos hstart) back
  have hletter : (front ++ back).getD 1 0 = front.getD 1 0 := List.getD_append front back 0 1 hstart
  constructor
  · have hname : nameLengthIn front ≤ (front.drop (namePlace (flagsIn front))).length := by
      rw [List.length_drop]
      rw [lengthIn] at h
      omega
    rw [nameIn, nameLengthIn, hflags, numberAt_append hplace, ← nameLengthIn,
      List.drop_append_of_le_length hplace, List.take_append_of_le_length hname, nameIn]
  · funext name
    simp only [fieldsIn, hflags, hletter, fieldAt?_append _ htime, fieldAt?_append _ hsize,
      fieldAt?_append _ hcrc, numberAt_append hreserved]

/-- Data that starts with the same metadata holds the same name and fields. -/
theorem fieldsIn_of_prefix {first second : List UInt8} (h : lengthIn first ≤ first.length)
    (hstart : first.take (lengthIn first) <+: second) :
    lengthIn second ≤ second.length ∧ nameIn second = nameIn first ∧
      fieldsIn second = fieldsIn first := by
  obtain ⟨rest, rfl⟩ := hstart
  -- both are the metadata with something behind it
  have hfirst := List.take_append_drop (lengthIn first) first
  have hlength : (first.take (lengthIn first)).length = lengthIn first := List.length_take_of_le h
  generalize first.take (lengthIn first) = front at hfirst hlength ⊢
  have hplace : namePlace (flagsIn first) ≤ lengthIn first := Nat.le_add_right _ _
  have hstart : 0 < front.length := by
    rw [hlength]
    exact Nat.lt_of_lt_of_le (Nat.lt_add_left _ Nat.two_pos) hplace
  have hflags : flagsIn first = flagsIn front := by
    rw [← hfirst]
    exact flagsIn_append hstart _
  have hfront : lengthIn front = front.length := by
    rw [hlength, ← lengthIn_append (by rw [← hflags, hlength]; exact hplace), hfirst]
  have hsame := fieldsIn_append (Nat.le_of_eq hfront)
  refine ⟨?_, ?_, ?_⟩
  · rw [lengthIn_append (namePlace_le (Nat.le_of_eq hfront)), hfront, List.length_append]
    exact Nat.le_add_right _ _
  · rw [(hsame rest).1, ← (hsame _).1, hfirst]
  · rw [(hsame rest).2, ← (hsame _).2, hfirst]

/-! ## Metadata that was read -/

/-- The length of the content takes no bytes, four or eight. -/
theorem sizeLength_cases (flags : UInt8) :
    sizeLength flags = 0 ∨ sizeLength flags = 4 ∨ sizeLength flags = 8 := by
  rw [sizeLength]
  split
  next => exact .inr (.inr rfl)
  next =>
  split
  next => exact .inr (.inl rfl)
  next => exact .inl rfl

/-- The length of the content is written in as many bytes as it was read from. -/
theorem sizeWidth_fieldsIn {data : List UInt8} (h : lengthIn data ≤ data.length) (name : String) :
    (fieldsIn data name).sizeWidth = sizeLength (flagsIn data) := by
  have hsize := (fields_inside (namePlace_le h)).2.1
  rw [crcPlace] at hsize
  rcases sizeLength_cases (flagsIn data) with hlength | hlength | hlength
  · simp only [sizeWidth, fieldsIn, fieldAt?, hlength, if_true]
  · -- a number that was read from four bytes fits them
    have hlt : numberAt data 2 4 < UInt32.size := numberAt_lt (by omega)
    have hnumber : (UInt64.ofNat (numberAt data 2 4)).toNat = numberAt data 2 4 :=
      UInt64.toNat_ofNat_of_lt' (Nat.lt_trans hlt (by decide))
    have hnarrow : ¬ (decide ((4 : Nat) = 8) = true ∨ UInt32.size ≤ numberAt data 2 4) := by
      rintro (hwide | hle)
      · exact absurd hwide (by decide)
      · exact absurd hlt (Nat.not_lt.mpr hle)
    simp only [sizeWidth, fieldsIn, fieldAt?, hlength, if_neg (show (4 : Nat) ≠ 0 by decide), hnumber,
      if_neg hnarrow]
  · simp only [sizeWidth, fieldsIn, fieldAt?, hlength, if_neg (show (8 : Nat) ≠ 0 by decide),
      decide_true, true_or, if_true]

/-- Metadata takes as many bytes as it was read from. -/
theorem byteLength_fieldsIn {data : List UInt8} (h : lengthIn data ≤ data.length) {name : String}
    (hname : Text.Utf8.bytesOf name = nameIn data) :
    (fieldsIn data name).byteLength = lengthIn data := by
  have hcrc : (if (fieldsIn data name).crc?.isSome then 4 else 0) = crcLength (flagsIn data) := by
    simp only [fieldsIn, fieldAt?, crcLength]
    split <;> rfl
  have htime : (if (fieldsIn data name).timeStamp?.isSome then 8 else 0)
      = timeLength (flagsIn data) := by
    simp only [fieldsIn, fieldAt?, timeLength]
    split <;> rfl
  have hlength : (Text.Utf8.bytesOf (fieldsIn data name).name).length = nameLengthIn data := by
    show (Text.Utf8.bytesOf name).length = nameLengthIn data
    rw [hname, nameIn, List.length_take, List.length_drop]
    rw [lengthIn] at h
    omega
  rw [byteLength, sizeWidth_fieldsIn h, hcrc, htime, hlength]
  rfl

/-- A letter that was read as a kind is read as it again once it is written. -/
theorem ofByte_toByte_ofByte (letter : UInt8) :
    EntryKind.ofByte (EntryKind.ofByte letter).toByte = .ofByte letter := by
  by_cases hregular : letter = 0x52 ∨ letter = 0x46
  · have hkind : EntryKind.ofByte letter = .regular := if_pos hregular
    rw [hkind]
    rfl
  by_cases hdirectory : letter = 0x64
  · rw [hdirectory]
    rfl
  · have hkind : EntryKind.ofByte letter = .unknown letter :=
      (if_neg hregular).trans (if_neg hdirectory)
    rw [hkind]
    exact hkind

/-- Metadata that was read is in normal form. -/
theorem normalForm_fieldsIn {data : List UInt8} (h : lengthIn data ≤ data.length) (name : String) :
    (fieldsIn data name).normalForm = fieldsIn data name := by
  have hkind : EntryKind.ofByte (fieldsIn data name).kind.toByte = (fieldsIn data name).kind :=
    ofByte_toByte_ofByte (data.getD 1 0)
  rw [normalForm, hkind, sizeWidth_fieldsIn h]
  rfl

/-! ## File headers -/

/-- The data of a file header stands behind six bytes. -/
theorem encodedLength_header (info : EntryInfo) :
    info.header.encodedLength = 6 + info.byteLength := by
  have hheader : RecordFlags.headerLength 0 = 6 := by decide
  rw [Record.encodedLength, Record.headerLength, header, hheader, length_toBytes]

/-- **An entry fits** into a record if and only if its metadata leave room for the header. -/
theorem fits_header_iff {info : EntryInfo} : info.header.Fits ↔ info.byteLength + 6 ≤ 65535 := by
  have hlength := info.encodedLength_header
  constructor
  · intro h
    have hfits := h.length
    omega
  · exact fun h => ⟨fun _ => Nat.zero_le _, by omega⟩

/-- A file header is made if it fits, since the name is shorter than the metadata. -/
theorem exists_toRecord_iff {info : EntryInfo} :
    (∃ record, info.toRecord = .ok record) ↔ info.byteLength + 6 ≤ 65535 := by
  simp only [toRecord_eq_ok, fits_header_iff]
  constructor
  · rintro ⟨_, -, hfits, -⟩
    exact hfits
  · intro hfits
    have hname : (Text.Utf8.bytesOf info.name).length ≤ info.byteLength := Nat.le_add_left _ _
    exact ⟨_, by omega, hfits, rfl⟩

/-- A file header that was made is read back, with its name in normal form. -/
theorem ofRecord_of_toRecord {info : EntryInfo} {record : Record}
    (h : info.toRecord = .ok record) : ofRecord record = .ok info.normalForm := by
  obtain ⟨hname, -, rfl⟩ := toRecord_eq_ok.mp h
  exact ofRecord_eq_ok.mpr ⟨Record.isValid_fixed _, rfl, parse_read_toBytes hname⟩

/-- The width in which the length of the content is read back. -/
theorem wide_normalForm (info : EntryInfo) :
    info.normalForm.wide
      = info.unpackedSize?.any fun size => info.wide || decide (0xFFFFFFFF < size.toNat) := by
  have hlarge : ∀ size : UInt64, UInt32.size ≤ size.toNat ↔ 0xFFFFFFFF < size.toNat :=
    fun _ => Nat.lt_iff_add_one_le.symm
  cases hsize : info.unpackedSize? with
  | none => simp [normalForm, sizeWidth, hsize]
  | some size => simp [normalForm, sizeWidth, hsize, hlarge]

/-- **Writing is exact**: a file header is made of any metadata that leaves room for the six bytes in
front of it, and refused as a parameter otherwise. It is read back as this metadata, whatever flags,
payload size and payload checksum it is fixed with later; only the kind is the one that its letter
names, and the length of the content counts as wide if it is there and was wide or needs it. -/
theorem ofRecord_toRecord (info : EntryInfo) :
    ((∃ record, info.toRecord = .ok record) ↔ info.byteLength + 6 ≤ 65535) ∧
    (∀ error, info.toRecord = .error error → ∃ fault, error = .invalidParameter fault) ∧
    ∀ record, info.toRecord = .ok record →
      record.isValid = true ∧ record.data.length = info.byteLength ∧
      ∀ final, (final = record ∨ ∃ flags addedSize addedCrc,
          { record with flags, addedSize, addedCrc : Record }.fix = .ok final) →
        ofRecord final = .ok { info with
          kind := .ofByte info.kind.toByte
          wide := info.unpackedSize?.any fun size =>
            info.wide || decide (0xFFFFFFFF < size.toNat) } := by
  refine ⟨exists_toRecord_iff, fun error h => toRecord_eq_error h, fun record h => ?_⟩
  obtain ⟨hname, -, rfl⟩ := toRecord_eq_ok.mp h
  refine ⟨Record.isValid_fixed _, info.length_toBytes, fun final hfinal => ?_⟩
  -- flags and payload are written outside the data, which still holds the metadata
  have hread : ofRecord final = .ok info.normalForm := by
    rcases hfinal with rfl | ⟨flags, addedSize, addedCrc, hfix⟩
    · exact ofRecord_of_toRecord h
    · obtain ⟨-, rfl⟩ := Record.fix_eq_ok.mp hfix
      exact ofRecord_eq_ok.mpr ⟨Record.isValid_fixed _, rfl, parse_read_toBytes hname⟩
  rw [hread, ← wide_normalForm]
  rfl

/-- A record that was read or made fits the length that its size field can say. -/
theorem encodedLength_le {record : Record}
    (h : (∃ bytes, Record.decode bytes = .ok record) ∨ ∃ draft : Record, draft.fix = .ok record) :
    record.encodedLength ≤ 65535 := by
  rcases h with ⟨bytes, hdecode⟩ | ⟨draft, hfix⟩
  · rw [← (Record.decode_eq_ok.mp hdecode).1.size]
    exact Nat.le_of_lt_succ record.size.toNat_lt
  · obtain ⟨hfits, rfl⟩ := Record.fix_eq_ok.mp hfix
    exact hfits.length

/-- **Reading is exact and stable**: metadata is read from the valid file headers that hold all of its
fields, the name among them, which is text; anything else is refused as data. The fields are those at
their places, whatever stands behind the name, and metadata from a record that was read or made is
written and read back as it is. -/
theorem toRecord_ofRecord (record : Record) :
    ((∃ info, ofRecord record = .ok info) ↔
      record.isValid = true ∧ record.kind = .fileHeader ∧
        lengthIn record.data ≤ record.data.length ∧
        ∃ name, Text.Utf8.bytesOf name = nameIn record.data) ∧
    (∀ error, ofRecord record = .error error → ∃ fault, error = .invalidData fault) ∧
    ∀ info, ofRecord record = .ok info →
      (Text.Utf8.bytesOf info.name = nameIn record.data ∧ info = fieldsIn record.data info.name) ∧
      (∀ other : Record, other.isValid = true → other.kind = .fileHeader →
        record.data.take (lengthIn record.data) <+: other.data → ofRecord other = .ok info) ∧
      ((∃ bytes, Record.decode bytes = .ok record) ∨ (∃ draft : Record, draft.fix = .ok record) →
        ∃ again, info.toRecord = .ok again ∧ ofRecord again = .ok info) := by
  simp only [ofRecord_eq_ok, parse_read_eq_ok]
  refine ⟨?_, fun error h => ofRecord_eq_error h, ?_⟩
  · constructor
    · rintro ⟨info, hvalid, hkind, hlength, hname, -⟩
      exact ⟨hvalid, hkind, hlength, info.name, hname⟩
    · rintro ⟨hvalid, hkind, hlength, name, hname⟩
      exact ⟨fieldsIn record.data name, hvalid, hkind, hlength, hname, rfl⟩
  · rintro info ⟨hvalid, hkind, hlength, hname, hinfo⟩
    refine ⟨⟨hname, hinfo.symm⟩, fun other hvalid' hkind' hstart => ?_, fun horigin => ?_⟩
    · obtain ⟨hlength', hname', hfields⟩ := fieldsIn_of_prefix hlength hstart
      exact ⟨hvalid', hkind', hlength', hname.trans hname'.symm, (congrFun hfields _).trans hinfo⟩
    · -- metadata is no longer than the data that it was read from, which fitted
      have hfits : info.byteLength + 6 ≤ 65535 := by
        have hrecord := encodedLength_le horigin
        have hheader := RecordFlags.fixedHeaderLength_le_headerLength record.flags
        rw [Record.encodedLength, Record.headerLength] at hrecord
        rw [RecordFlags.fixedHeaderLength] at hheader
        rw [← hinfo, byteLength_fieldsIn hlength hname]
        omega
      have hnormal : info.normalForm = info := by rw [← hinfo, normalForm_fieldsIn hlength]
      obtain ⟨again, hagain⟩ := exists_toRecord_iff.mpr hfits
      have hread := ofRecord_of_toRecord hagain
      rw [hnormal, ofRecord_eq_ok, parse_read_eq_ok] at hread
      exact ⟨again, hagain, hread⟩

end EntryInfo

end RecordArchive
