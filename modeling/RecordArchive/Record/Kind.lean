/-! # Kinds of record

The second field of a record names its kind by one letter. A letter without a meaning is kept, so
that a record of an unknown kind survives being read and written; consumers refuse it. -/

namespace RecordArchive

/-- What a record stands for. -/
inductive RecordKind
  /-- A marker that is shaped like a record. -/
  | marker
  /-- The header of the archive, which carries its version. -/
  | archiveHeader
  /-- The header of one entry, whose payload starts the entry's content. -/
  | fileHeader
  /-- A continuation of the content of the entry before it. -/
  | dataFragment
  /-- Any other letter. -/
  | unknown (letter : UInt8)
  deriving DecidableEq, Repr

namespace RecordKind

/-- The kind that a letter names. -/
def ofByte (letter : UInt8) : RecordKind :=
  if letter = 0x21 then .marker
  else if letter = 0x41 then .archiveHeader
  else if letter = 0x46 then .fileHeader
  else if letter = 0x44 then .dataFragment
  else .unknown letter

/-- The letter that names a kind. -/
def toByte : RecordKind → UInt8
  | marker => 0x21
  | archiveHeader => 0x41
  | fileHeader => 0x46
  | dataFragment => 0x44
  | unknown letter => letter

/-- A letter is kept by naming its kind. -/
@[simp] theorem toByte_ofByte (letter : UInt8) : (ofByte letter).toByte = letter := by
  unfold ofByte
  repeat' split
  all_goals simp_all [toByte]

/-- The name of a kind in messages and listings. -/
def name : RecordKind → String
  | marker => "Marker"
  | archiveHeader => "ArchiveHeader"
  | fileHeader => "FileHeader"
  | dataFragment => "DataFragment"
  | unknown letter => s!"Unknown({letter.toNat})"

end RecordKind

end RecordArchive
