import RecordArchive.Record.Basic

/-! # Archive headers

The first record behind the marker. Its data is the version of the archive, a 16-bit word; more data
may follow the version and is not looked at. -/

namespace RecordArchive

/-- What an archive says about itself. -/
structure ArchiveHeader where
  version : UInt16
  deriving DecidableEq, Repr

namespace ArchiveHeader

/-- The version that is written, and the latest one that is read. -/
def supportedVersion : UInt16 := 1

/-- The header of the archives that this library writes. -/
def current : ArchiveHeader := ⟨supportedVersion⟩

/-- The size of a record that has room for a version. -/
def minimalSize : UInt16 := 8

/-- The record of a header. -/
def toRecord (header : ArchiveHeader) : Except ArchiveError Record :=
  Record.ofParts .archiveHeader 0 (LittleEndian.word16 header.version)

/-- The header in a record. The checksum is looked at first, then kind, size and data. -/
def ofRecord (record : Record) : Except ArchiveError ArchiveHeader :=
  if !record.isValid then .error (.invalidData .archiveHeaderChecksum)
  else if record.kind ≠ .archiveHeader then
    .error (.invalidData (.notArchiveHeader record.kind))
  else if record.size < minimalSize then
    .error (.invalidData (.archiveHeaderTooShort record.size))
  else match record.data with
    | low :: high :: _ => .ok ⟨UInt16.ofNat (LittleEndian.decode [low, high])⟩
    | data => .error (.invalidData (.outOfBounds ⟨0, 2, data.length⟩))

end ArchiveHeader

end RecordArchive
