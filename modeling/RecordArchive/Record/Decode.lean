import RecordArchive.Record.Basic

/-! # Reading records from a buffer

`Record.decodeHeader` takes the header of a record from the front of a buffer and leaves the data
empty; `Record.decode` takes the whole record. Bytes behind the record are not looked at, and the
checksum is kept without being compared. -/

namespace RecordArchive.Record

open Cursor

/-- A cursor access whose refusal is a fault in the data. -/
def access {α : Type} (read : EStateM OutOfBounds Reader α) : EStateM ArchiveError Reader α :=
  read.adaptExcept fun fault => .invalidData (.outOfBounds fault)

/-- The payload size behind the fixed part of a header. -/
def readAddedSize : SizeWidth → EStateM OutOfBounds Reader UInt64
  | .absent => pure 0
  | .four => UInt64.ofNat <$> Reader.readNumber 4
  | .eight => Reader.readWord64

/-- The header of a record, field by field. -/
def readHeader : EStateM ArchiveError Reader Record := do
  let checksum ← access Reader.readWord16
  let letter ← access Reader.readWord8
  let flags ← access Reader.readWord8
  let size ← access Reader.readWord16
  if size.toNat < RecordFlags.headerLength flags then
    throw (.invalidData (.sizeBelowHeader size (RecordFlags.headerLength flags)))
  let addedSize ← access (readAddedSize (.ofFlags flags))
  let addedCrc ← access
    (if RecordFlags.has flags RecordFlags.payloadCrc then Reader.readWord32 else pure 0)
  return { checksum, kind := .ofByte letter, flags, size, addedSize, addedCrc }

/-- The result of a cursor program that starts at the front of a buffer. -/
def parse {α : Type} (program : EStateM ArchiveError Reader α) (bytes : List UInt8) :
    Except ArchiveError α :=
  match program.run { bytes } with
  | .ok value _ => .ok value
  | .error error _ => .error error

/-- The header fields at the front of a buffer, with no data. -/
def decodeHeader (bytes : List UInt8) : Except ArchiveError Record := parse readHeader bytes

/-- The record at the front of a buffer. -/
def decode (bytes : List UInt8) : Except ArchiveError Record :=
  parse (do
    let record ← readHeader
    let data ← access (Reader.readBytes record.dataLength)
    return { record with data }) bytes

end RecordArchive.Record
