import RecordArchive.Text.Json
import RecordArchive.Text.Layout
import RecordArchive.Text.Utf8

/-! # Entries and their metadata

An entry of an archive has a name, a kind and optional facts about its content. `EntryInfo.flags`
says which of them its record holds; the size of the content takes eight bytes when it needs them or
when `wide` asks for them. -/

namespace RecordArchive

/-- What an entry stands for. -/
inductive EntryKind
  /-- A file with content. -/
  | regular
  /-- A directory. -/
  | directory
  /-- Any other letter. -/
  | unknown (letter : UInt8)
  deriving DecidableEq, Repr

namespace EntryKind

/-- The kind that a letter names. Early archives name regular files by `F` instead of `R`. -/
def ofByte (letter : UInt8) : EntryKind :=
  if letter = 0x52 ∨ letter = 0x46 then .regular
  else if letter = 0x64 then .directory
  else .unknown letter

/-- The letter that names a kind. -/
def toByte : EntryKind → UInt8
  | regular => 0x52
  | directory => 0x64
  | unknown letter => letter

/-- The name of a kind. -/
def name : EntryKind → String
  | regular => "Regular"
  | directory => "Directory"
  | unknown letter => s!"Unknown({letter.toNat})"

/-- The word for a kind in a listing. -/
def label : EntryKind → String
  | regular => "file"
  | directory => "dir"
  | unknown letter => Text.hexNumber 2 letter.toNat

/-- A kind as JSON. -/
def toJson : EntryKind → Text.JsonValue
  | regular => .string "Regular"
  | directory => .string "Directory"
  | unknown letter => .object [("Unknown", .number letter.toNat)]

end EntryKind

/-- The metadata of an entry. -/
structure EntryInfo where
  name : String
  kind : EntryKind
  /-- The time of the last change, in seconds since the start of 1970. -/
  timeStamp? : Option UInt64 := none
  /-- The length of the content. -/
  unpackedSize? : Option UInt64 := none
  /-- Whether the length of the content takes eight bytes even if four would do. -/
  wide : Bool := false
  /-- The checksum of the content. -/
  crc? : Option UInt32 := none
  /-- Reserved, zero in the archives that this library writes. -/
  compressionInfo : UInt32 := 0
  deriving DecidableEq, Repr

namespace EntryInfo

/-- An entry for a file with content. -/
def regular (name : String) : EntryInfo := { name, kind := .regular }

/-- An entry for a directory. -/
def directory (name : String) : EntryInfo := { name, kind := .directory }

/-- The metadata with nothing in it. -/
def empty : EntryInfo := regular ""

/-- The largest size that is written in four bytes unless `wide` asks for eight. -/
def narrowSizeMax : Nat := 0x7FFFFFFF

/-- The metadata with the length of the content, in the width that the length calls for. -/
def withUnpackedSize (info : EntryInfo) (size : UInt64) : EntryInfo :=
  { info with unpackedSize? := some size, wide := decide (narrowSizeMax < size.toNat) }

/-- The metadata with a time of the last change. -/
def withTimeStamp (info : EntryInfo) (seconds : UInt64) : EntryInfo :=
  { info with timeStamp? := some seconds }

/-- The metadata with the checksum of the content. -/
def withCrc (info : EntryInfo) (crc : UInt32) : EntryInfo := { info with crc? := some crc }

/-- Whether the entry stands for a directory. -/
def isDirectory (info : EntryInfo) : Bool := info.kind = .directory

/-- The number of bytes that the length of the content takes. -/
def sizeWidth (info : EntryInfo) : Nat :=
  match info.unpackedSize? with
  | none => 0
  | some size => if info.wide ∨ UInt32.size ≤ size.toNat then 8 else 4

/-- The flag of metadata with a time. -/
def timeFlag : UInt8 := 0x01

/-- The flag of metadata with a checksum. -/
def crcFlag : UInt8 := 0x02

/-- The flag of metadata with a length of four bytes. -/
def narrowSizeFlag : UInt8 := 0x04

/-- The flags of metadata with a length of eight bytes. -/
def wideSizeFlag : UInt8 := 0x0C

/-- The flags that select the width of the length. -/
def sizeMask : UInt8 := 0x0C

/-- The flags that say which facts are present. -/
def flags (info : EntryInfo) : UInt8 :=
  (if info.timeStamp?.isSome then timeFlag else 0)
    ||| (if info.crc?.isSome then crcFlag else 0)
    ||| (if info.sizeWidth = 8 then wideSizeFlag
         else if info.sizeWidth = 4 then narrowSizeFlag else 0)

/-- Metadata as JSON. -/
def toJson (info : EntryInfo) : Text.JsonValue :=
  .object [
    ("file_name", .string info.name),
    ("file_type", info.kind.toJson),
    ("time_stamp", .ofOption? (info.timeStamp?.map (·.toNat))),
    ("unpacked_size", .ofOption? (info.unpackedSize?.map (·.toNat))),
    ("wide_unpacked_size", .bool info.wide),
    ("file_crc32", .ofOption? (info.crc?.map (·.toNat))),
    ("compression_info", .number info.compressionInfo.toNat)]

end EntryInfo

end RecordArchive
