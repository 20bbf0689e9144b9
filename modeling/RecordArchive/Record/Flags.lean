/-! # Record flags

The flags of a record say which optional fields its header has. Two bits select the width of the
payload size: only `0x80` and `0xC0` give a width, `0x40` alone gives none. -/

namespace RecordArchive

namespace RecordFlags

/-- The payload goes on in the next record. -/
def continued : UInt8 := 0x01

/-- The header has a payload checksum. -/
def payloadCrc : UInt8 := 0x20

/-- The header has a payload size of four bytes. -/
def narrowSize : UInt8 := 0x80

/-- The header has a payload size of eight bytes. -/
def wideSize : UInt8 := 0xC0

/-- The bits that select the width of the payload size. -/
def sizeMask : UInt8 := 0xC0

end RecordFlags

/-- The width of the payload size in a record header. -/
inductive SizeWidth
  /-- The header has no payload size. -/
  | absent
  /-- Four bytes. -/
  | four
  /-- Eight bytes. -/
  | eight
  deriving DecidableEq, Repr

namespace SizeWidth

/-- The width that the flags select. -/
def ofFlags (flags : UInt8) : SizeWidth :=
  if flags &&& RecordFlags.sizeMask = RecordFlags.wideSize then .eight
  else if flags &&& RecordFlags.sizeMask = RecordFlags.narrowSize then .four
  else .absent

/-- The number of bytes of the field. -/
def length : SizeWidth → Nat
  | absent => 0
  | four => 4
  | eight => 8

/-- The largest payload size that fits the field. -/
def maxValue : SizeWidth → Nat
  | absent => 0
  | four => UInt32.size - 1
  | eight => UInt64.size - 1

/-- The name of a width. -/
def name : SizeWidth → String
  | absent => "Absent"
  | four => "Four"
  | eight => "Eight"

end SizeWidth

namespace RecordFlags

/-- Whether a bit of the flags is set. -/
def has (flags bit : UInt8) : Bool := flags &&& bit != 0

/-- The bytes of a header up to its optional fields. -/
def fixedHeaderLength : Nat := 6

/-- The bytes of the payload checksum that the flags select. -/
def crcLength (flags : UInt8) : Nat := if has flags payloadCrc then 4 else 0

/-- The bytes of the header that the flags select. -/
def headerLength (flags : UInt8) : Nat :=
  fixedHeaderLength + (SizeWidth.ofFlags flags).length + crcLength flags

/-- Every header holds the fixed part. -/
theorem fixedHeaderLength_le_headerLength (flags : UInt8) :
    fixedHeaderLength ≤ headerLength flags := by
  unfold headerLength
  omega

/-- No header is longer than eighteen bytes. -/
theorem headerLength_le (flags : UInt8) : headerLength flags ≤ 18 := by
  have hwidth : (SizeWidth.ofFlags flags).length ≤ 8 := by
    cases SizeWidth.ofFlags flags <;> simp [SizeWidth.length]
  have hcrc : crcLength flags ≤ 4 := by
    unfold crcLength
    split <;> omega
  unfold headerLength fixedHeaderLength
  omega

end RecordFlags

end RecordArchive
