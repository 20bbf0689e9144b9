import RecordArchive.LittleEndian

/-! # Bounds-checked cursors

A `Reader` takes bytes and little-endian words from a buffer, a `Writer` puts them into one. Every
access first checks the span it wants against the length of the buffer: an access that does not fit
fails with `OutOfBounds` and leaves cursor and buffer as they were. -/

namespace RecordArchive

/-- An access of `wanted` bytes at `offset` that a buffer of `length` bytes cannot serve. -/
structure OutOfBounds where
  offset : Nat
  wanted : Nat
  length : Nat
  deriving DecidableEq, Repr

/-- The wording of a refused access. -/
def OutOfBounds.message (fault : OutOfBounds) : String :=
  s!"access of {fault.wanted} byte(s) at offset {fault.offset} " ++
    s!"exceeds buffer of {fault.length} byte(s)"

namespace Cursor

/-- A position in a buffer to read from. -/
structure Reader where
  bytes : List UInt8
  position : Nat := 0
  deriving DecidableEq, Repr

namespace Reader

/-- The number of bytes behind the position. -/
def remaining (reader : Reader) : Nat := reader.bytes.length - reader.position

/-- Takes the next `count` bytes. -/
def readBytes (count : Nat) : EStateM OutOfBounds Reader (List UInt8) := fun reader =>
  if reader.position + count ≤ reader.bytes.length then
    .ok ((reader.bytes.drop reader.position).take count)
      { reader with position := reader.position + count }
  else
    .error ⟨reader.position, count, reader.bytes.length⟩ reader

/-- Takes a little-endian number of `width` bytes. -/
def readNumber (width : Nat) : EStateM OutOfBounds Reader Nat :=
  LittleEndian.decode <$> readBytes width

/-- Takes one byte. -/
def readWord8 : EStateM OutOfBounds Reader UInt8 := UInt8.ofNat <$> readNumber 1

/-- Takes a 16-bit word. -/
def readWord16 : EStateM OutOfBounds Reader UInt16 := UInt16.ofNat <$> readNumber 2

/-- Takes a 32-bit word. -/
def readWord32 : EStateM OutOfBounds Reader UInt32 := UInt32.ofNat <$> readNumber 4

/-- Takes a 64-bit word. -/
def readWord64 : EStateM OutOfBounds Reader UInt64 := UInt64.ofNat <$> readNumber 8

/-- A span that fits is taken and the position moves behind it. -/
theorem readBytes_ok {count : Nat} {reader : Reader}
    (h : reader.position + count ≤ reader.bytes.length) :
    readBytes count reader = .ok ((reader.bytes.drop reader.position).take count)
      { reader with position := reader.position + count } := if_pos h

/-- A span that does not fit is refused and the reader stays as it was. -/
theorem readBytes_error {count : Nat} {reader : Reader}
    (h : ¬ reader.position + count ≤ reader.bytes.length) :
    readBytes count reader = .error ⟨reader.position, count, reader.bytes.length⟩ reader := if_neg h

end Reader

/-- A position in a buffer to write into. -/
structure Writer where
  bytes : List UInt8
  position : Nat := 0
  deriving DecidableEq, Repr

namespace Writer

/-- Replaces the bytes behind the position by the given ones. -/
def writeBytes (content : List UInt8) : EStateM OutOfBounds Writer Unit := fun writer =>
  if writer.position + content.length ≤ writer.bytes.length then
    .ok () { bytes := writer.bytes.take writer.position ++ content
                        ++ writer.bytes.drop (writer.position + content.length)
             position := writer.position + content.length }
  else
    .error ⟨writer.position, content.length, writer.bytes.length⟩ writer

/-- Writes one byte. -/
def writeWord8 (value : UInt8) : EStateM OutOfBounds Writer Unit := writeBytes [value]

/-- Writes a 16-bit word. -/
def writeWord16 (value : UInt16) : EStateM OutOfBounds Writer Unit :=
  writeBytes (LittleEndian.word16 value)

/-- Writes a 32-bit word. -/
def writeWord32 (value : UInt32) : EStateM OutOfBounds Writer Unit :=
  writeBytes (LittleEndian.word32 value)

/-- Writes a 64-bit word. -/
def writeWord64 (value : UInt64) : EStateM OutOfBounds Writer Unit :=
  writeBytes (LittleEndian.word64 value)

/-- Bytes that fit replace as many behind the position, which moves behind them. -/
theorem writeBytes_ok {content : List UInt8} {writer : Writer}
    (h : writer.position + content.length ≤ writer.bytes.length) :
    writeBytes content writer = .ok ()
      { bytes := writer.bytes.take writer.position ++ content
                  ++ writer.bytes.drop (writer.position + content.length)
        position := writer.position + content.length } := if_pos h

/-- Bytes that do not fit are refused and the writer stays as it was. -/
theorem writeBytes_error {content : List UInt8} {writer : Writer}
    (h : ¬ writer.position + content.length ≤ writer.bytes.length) :
    writeBytes content writer
      = .error ⟨writer.position, content.length, writer.bytes.length⟩ writer := if_neg h

end Writer

end Cursor

end RecordArchive
