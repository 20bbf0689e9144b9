import RecordArchive.Crc32c
import RecordArchive.Error
import RecordArchive.Record.Flags

/-! # Records

A record is a header of six to eighteen bytes followed by its data. The header starts with the low
half of the checksum of everything behind it, the data included. A payload may follow the record on
the stream; the header can hold its size and checksum, but it is never part of the record.

* `Record.fixInPlace` makes size and checksum agree with the flags and the data, and `Record.fix` is
  the record that comes out.
* `Record.encode?` writes a record whose size does agree; it does not look at the checksum. What comes
  out is `Record.toBytes`, the fields and the data in a row.
* `Record.isValid` compares the checksum with the contents. -/

namespace RecordArchive

/-- The fields of a record. -/
structure Record where
  /-- The low half of the checksum over all fields behind it and the data. -/
  checksum : UInt16 := 0
  kind : RecordKind := .unknown 0
  flags : UInt8 := 0
  /-- The length of header and data together. -/
  size : UInt16 := 0
  /-- The length of the payload, zero when the flags give it no field. -/
  addedSize : UInt64 := 0
  /-- The checksum of the payload, zero when the flags give it no field. -/
  addedCrc : UInt32 := 0
  data : List UInt8 := []
  deriving DecidableEq, Repr

namespace Record

open Cursor

/-- The record with no field set. -/
def empty : Record := {}

/-- The width of the payload size in the header. -/
def sizeWidth (record : Record) : SizeWidth := .ofFlags record.flags

/-- Whether the header holds the size of a payload. -/
def hasAddedSize (record : Record) : Bool := record.sizeWidth != .absent

/-- Whether the header holds the checksum of a payload. -/
def hasAddedCrc (record : Record) : Bool := RecordFlags.has record.flags RecordFlags.payloadCrc

/-- Whether the payload goes on in the next record. -/
def isContinued (record : Record) : Bool := RecordFlags.has record.flags RecordFlags.continued

/-- The length of the header that the flags lay out. -/
def headerLength (record : Record) : Nat := RecordFlags.headerLength record.flags

/-- The length of header and data that the flags and the data lay out. -/
def encodedLength (record : Record) : Nat := record.headerLength + record.data.length

/-- The length of the data that the size field leaves room for. -/
def dataLength (record : Record) : Nat := record.size.toNat - record.headerLength

/-- The bytes of the payload size. -/
def sizeField (record : Record) : List UInt8 :=
  LittleEndian.encode record.sizeWidth.length record.addedSize.toNat

/-- The bytes of the payload checksum. -/
def crcField (record : Record) : List UInt8 :=
  if record.hasAddedCrc then LittleEndian.word32 record.addedCrc else []

/-- The header behind its checksum. -/
def coveredHeader (record : Record) : List UInt8 :=
  [record.kind.toByte, record.flags] ++ LittleEndian.word16 record.size
    ++ record.sizeField ++ record.crcField

/-- The checksum is two bytes of the header, and the rest of the header is covered by it. -/
theorem length_coveredHeader (record : Record) :
    record.coveredHeader.length + 2 = record.headerLength := by
  cases h : record.hasAddedCrc <;>
    simp [coveredHeader, sizeField, crcField, headerLength, RecordFlags.headerLength,
      RecordFlags.fixedHeaderLength, RecordFlags.crcLength, sizeWidth, h] <;>
    simp_all [hasAddedCrc] <;> omega

/-- Writes the payload size in its width. -/
def writeAddedSize (record : Record) : EStateM OutOfBounds Writer Unit :=
  match record.sizeWidth with
  | .absent => pure ()
  | .four => Writer.writeWord32 record.addedSize.toUInt32
  | .eight => Writer.writeWord64 record.addedSize

/-- Writes the payload checksum if the header has a field for it. -/
def writeAddedCrc (record : Record) : EStateM OutOfBounds Writer Unit :=
  if record.hasAddedCrc then Writer.writeWord32 record.addedCrc else pure ()

/-- Writes the header behind its checksum, field by field. -/
def writeFields (record : Record) : EStateM OutOfBounds Writer Unit := do
  Writer.writeWord8 record.kind.toByte
  Writer.writeWord8 record.flags
  Writer.writeWord16 record.size
  record.writeAddedSize
  record.writeAddedCrc

/-- The checksum of the contents. The fields are written into a buffer that is as long as the flags
lay them out, so that what a refused access would leave there is never looked at. -/
def computeChecksum (record : Record) : UInt16 :=
  let fields := match record.writeFields.run
      { bytes := List.replicate (record.headerLength - 2) 0 } with
    | .ok () buffer => buffer.bytes
    | .error _ buffer => buffer.bytes
  truncate16 (crc32c (crc32c 0 fields) record.data)

/-- Whether the stored checksum is that of the contents. -/
def isValid (record : Record) : Bool := record.checksum = record.computeChecksum

/-- Refuses a record whose payload size or whose length is beyond what the field for it holds. -/
def checkLimits : EStateM ArchiveError Record Unit := fun record =>
  if record.hasAddedSize ∧ record.sizeWidth.maxValue < record.addedSize.toNat then
    .error (.invalidParameter (.addedSizeTooLarge record.addedSize record.sizeWidth.length)) record
  else if 65535 < record.encodedLength then
    .error (.invalidParameter (.recordTooLong record.encodedLength)) record
  else .ok () record

/-- Assigns to fields of a record. -/
def assign (change : Record → Record) : EStateM ArchiveError Record Unit := fun record =>
  .ok () (change record)

/-- Assigns to a record the size and then the checksum that its flags and data demand. What does not
fit is refused before the first assignment. -/
def fixInPlace : EStateM ArchiveError Record Unit := do
  checkLimits
  assign fun record => { record with size := UInt16.ofNat record.encodedLength }
  assign fun record => { record with checksum := record.computeChecksum }

/-- The record with size and checksum as its flags and data demand. -/
def fix (record : Record) : Except ArchiveError Record :=
  match fixInPlace record with
  | .ok () record => .ok record
  | .error error _ => .error error

/-- A fixed record of a kind with flags and data. -/
def ofParts (kind : RecordKind) (flags : UInt8) (data : List UInt8) : Except ArchiveError Record :=
  fix { kind, flags, data }

/-- The bytes of a record, whatever its size field says. -/
def toBytes (record : Record) : List UInt8 :=
  LittleEndian.word16 record.checksum ++ record.coveredHeader ++ record.data

/-- The length of a record on a stream. -/
@[simp] theorem length_toBytes (record : Record) :
    record.toBytes.length = record.encodedLength := by
  have h := record.length_coveredHeader
  simp only [toBytes, List.length_append, LittleEndian.length_word16, encodedLength]
  omega

/-- Writes header and data. -/
def write (record : Record) : EStateM OutOfBounds Writer Unit := do
  Writer.writeWord16 record.checksum
  record.writeFields
  Writer.writeBytes record.data

/-- The bytes of a record whose size field agrees with its layout, written into a buffer of that
size. -/
def encode? (record : Record) : Except ArchiveError (List UInt8) :=
  if record.size.toNat ≠ record.encodedLength then
    .error (.invalidParameter (.layoutMismatch record.size record.encodedLength))
  else match record.write.run { bytes := List.replicate record.encodedLength 0 } with
    | .ok () buffer => .ok buffer.bytes
    | .error fault _ => .error (.invalidData (.outOfBounds fault))

end Record

end RecordArchive
