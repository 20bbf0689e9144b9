/-! # CRC-32C

The Castagnoli checksum of a byte string, continued from the checksum of what came before it:
`crc32c (crc32c seed a) b = crc32c seed (a ++ b)`. Bits are taken least significant first, and the
register is inverted before the first byte and after the last one. -/

namespace RecordArchive

namespace Crc32c

/-- The generator polynomial, its bits reversed. -/
def polynomial : UInt32 := 0x82F63B78

/-- Shifts one bit out of the register and divides it away. -/
def shiftBit (register : UInt32) : UInt32 :=
  if register &&& 1 = 1 then (register >>> 1) ^^^ polynomial else register >>> 1

/-- Shifts eight bits out of the register. -/
def shiftByte (register : UInt32) : UInt32 :=
  shiftBit (shiftBit (shiftBit (shiftBit (shiftBit (shiftBit (shiftBit (shiftBit register)))))))

/-- Takes one byte into the register. -/
def step (register : UInt32) (byte : UInt8) : UInt32 := shiftByte (register ^^^ byte.toUInt32)

end Crc32c

/-- The CRC-32C of `bytes`, continued from `seed`. -/
def crc32c (seed : UInt32) (bytes : List UInt8) : UInt32 :=
  ~~~ (bytes.foldl Crc32c.step (~~~ seed))

/-- No byte leaves the checksum as it is. -/
@[simp] theorem crc32c_nil (seed : UInt32) : crc32c seed [] = seed := by
  simp [crc32c]

/-- A checksum may be taken piece by piece. -/
theorem crc32c_append (seed : UInt32) (front back : List UInt8) :
    crc32c seed (front ++ back) = crc32c (crc32c seed front) back := by
  simp [crc32c, List.foldl_append]

/-- The half of a checksum that a record header has room for. -/
def truncate16 (crc : UInt32) : UInt16 := crc.toUInt16

end RecordArchive
