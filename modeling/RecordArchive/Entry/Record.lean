import RecordArchive.Entry.Info
import RecordArchive.Record.Decode

/-! # Metadata as records

The data of a file header holds the metadata of an entry: flags, kind, the optional length and
checksum of the content, a reserved word, the optional time, and the name behind its length.
`EntryInfo.toBytes` is what these fields are in a row. `EntryInfo.toRecord` writes them one by one into
a buffer of `EntryInfo.byteLength` bytes, `EntryInfo.ofRecord` reads them; bytes behind the name are not
looked at. -/

namespace RecordArchive.EntryInfo

open Cursor

/-- The bytes of the metadata. -/
def toBytes (info : EntryInfo) : List UInt8 :=
  let name := Text.Utf8.bytesOf info.name
  [info.flags, info.kind.toByte]
    ++ (info.unpackedSize?.elim [] fun size => LittleEndian.encode info.sizeWidth size.toNat)
    ++ (info.crc?.elim [] LittleEndian.word32)
    ++ LittleEndian.word32 info.compressionInfo
    ++ (info.timeStamp?.elim [] LittleEndian.word64)
    ++ LittleEndian.encode 2 name.length
    ++ name

/-- The number of bytes of the metadata. -/
def byteLength (info : EntryInfo) : Nat :=
  2 + info.sizeWidth + (if info.crc?.isSome then 4 else 0) + 4
    + (if info.timeStamp?.isSome then 8 else 0) + 2 + (Text.Utf8.bytesOf info.name).length

/-- Writes a value if there is one. -/
def writeIf {α : Type} (write : α → EStateM OutOfBounds Writer Unit) :
    Option α → EStateM OutOfBounds Writer Unit
  | some value => write value
  | none => pure ()

/-- Writes the length of the content in its width. -/
def writeUnpackedSize (info : EntryInfo) : EStateM OutOfBounds Writer Unit :=
  writeIf (fun size => if info.sizeWidth = 8 then Writer.writeWord64 size
    else Writer.writeWord32 size.toUInt32) info.unpackedSize?

/-- Writes the metadata, field by field. -/
def write (info : EntryInfo) : EStateM OutOfBounds Writer Unit := do
  let name := Text.Utf8.bytesOf info.name
  Writer.writeWord8 info.flags
  Writer.writeWord8 info.kind.toByte
  writeUnpackedSize info
  writeIf Writer.writeWord32 info.crc?
  Writer.writeWord32 info.compressionInfo
  writeIf Writer.writeWord64 info.timeStamp?
  Writer.writeWord16 (UInt16.ofNat name.length)
  Writer.writeBytes name

/-- The file header of an entry, with no payload announced. -/
def toRecord (info : EntryInfo) : Except ArchiveError Record :=
  let nameLength := (Text.Utf8.bytesOf info.name).length
  if 65535 < nameLength then .error (.invalidParameter (.nameTooLong nameLength))
  else match info.write.run { bytes := List.replicate info.byteLength 0 } with
    | .ok () buffer => Record.ofParts .fileHeader 0 buffer.bytes
    | .error fault _ => .error (.invalidData (.outOfBounds fault))

/-- A value that is present only if `present` says so. -/
def readIf {α : Type} (present : Bool) (read : EStateM OutOfBounds Reader α) :
    EStateM OutOfBounds Reader (Option α) :=
  if present then some <$> read else pure none

/-- The length of the content behind the flags, and whether it takes eight bytes. -/
def readUnpackedSize (flags : UInt8) : EStateM OutOfBounds Reader (Option UInt64 × Bool) :=
  if flags &&& sizeMask = wideSizeFlag then
    (fun size => (some size, true)) <$> Reader.readWord64
  else if flags &&& sizeMask = narrowSizeFlag then
    (fun size => (some (UInt64.ofNat size), false)) <$> Reader.readNumber 4
  else pure (none, false)

/-- The metadata, field by field. -/
def read : EStateM ArchiveError Reader EntryInfo := do
  let flags ← Record.access Reader.readWord8
  let letter ← Record.access Reader.readWord8
  let (unpackedSize?, wide) ← Record.access (readUnpackedSize flags)
  let crc? ← Record.access (readIf (RecordFlags.has flags crcFlag) Reader.readWord32)
  let compressionInfo ← Record.access Reader.readWord32
  let timeStamp? ← Record.access (readIf (RecordFlags.has flags timeFlag) Reader.readWord64)
  let nameLength ← Record.access (Reader.readNumber 2)
  let nameBytes ← Record.access (Reader.readBytes nameLength)
  match Text.Utf8.textOf? nameBytes with
  | .ok name =>
    return { name, kind := .ofByte letter, timeStamp?, unpackedSize?, wide, crc?, compressionInfo }
  | .error fault => throw (.invalidData (.nameNotUtf8 fault))

/-- The metadata in a record: the checksum is looked at first, then the kind and the data. -/
def ofRecord (record : Record) : Except ArchiveError EntryInfo :=
  if !record.isValid then .error (.invalidData .fileHeaderChecksum)
  else if record.kind ≠ .fileHeader then .error (.invalidData (.notFileHeader record.kind))
  else Record.parse read record.data

end RecordArchive.EntryInfo
