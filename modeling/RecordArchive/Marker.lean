import RecordArchive.Stream.Transfer

/-! # The archive marker

Six bytes open every archive. `Marker.find` takes bytes from a stream until the marker has just been
taken, so that a stub in front of an archive is skipped, and says how many bytes that took. -/

namespace RecordArchive.Marker

/-- The bytes of the marker. -/
def bytes : List UInt8 := [0x4B, 0x43, 0x21, 0x1A, 0x06, 0x00]

/-- The number of bytes of the marker. -/
def length : Nat := 6

/-- The marker has six bytes. -/
@[simp] theorem length_bytes : bytes.length = length := rfl

/-- The window before the first byte, as long as the marker. -/
def zeroWindow : List UInt8 := List.replicate length 0

/-- The window with a byte more, which pushes the oldest one out. -/
def slide (window : List UInt8) (byte : UInt8) : List UInt8 := window.drop 1 ++ [byte]

variable {σ : Type}

/-- Takes bytes until the window in which they pass holds the marker. The zeros of the first window
are not taken for bytes: fewer bytes than the marker has are never the marker. -/
def findFrom [ByteSource σ] (window : List UInt8) (consumed : Nat) (start : σ) :
    EStateM.Result ArchiveError σ Nat :=
  match _hrun : ByteSource.read 1 start with
  | .ok [] final => .error (.invalidFormat (.missingMarker consumed)) final
  | .ok (byte :: _) middle =>
    if length ≤ consumed + 1 ∧ slide window byte = bytes then .ok (consumed + 1) middle
    else findFrom (slide window byte) (consumed + 1) middle
  | .error error middle =>
    if _hagain : error.isInterrupted then findFrom window consumed middle
    else .error (.read error) middle
termination_by ByteSource.readBudget start
decreasing_by
  · have := ByteSource.readBudget_ok _hrun
    simp only [List.length_cons] at this
    omega
  · have := ByteSource.readBudget_error _hrun
    rw [_hagain, Bool.toNat_true] at this
    omega

/-- Takes bytes until the marker has been taken and gives their number, the marker included. -/
def find [ByteSource σ] : EStateM ArchiveError σ Nat := findFrom zeroWindow 0

/-- Writes the marker. -/
def write [ByteSink σ] : EStateM ArchiveError σ Unit := EStateM.adaptExcept .write (writeAll bytes)

end RecordArchive.Marker
