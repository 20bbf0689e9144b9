/-! # Little-endian numbers

A number of a given width is the list of its bytes, least significant first. `decode` reads any
list of bytes, `encode` writes exactly `width` of them, and on each width they are inverse:
`decode_encode` says what of a number is kept, `encode_decode` that no byte is lost. -/

namespace RecordArchive.LittleEndian

/-- The number whose bytes, least significant first, are the given ones. -/
def decode : List UInt8 → Nat
  | [] => 0
  | low :: high => low.toNat + 256 * decode high

@[simp] theorem decode_nil : decode [] = 0 := rfl

/-- The lowest byte comes first. -/
@[simp] theorem decode_cons (low : UInt8) (high : List UInt8) :
    decode (low :: high) = low.toNat + 256 * decode high := rfl

/-- The lowest `width` bytes of a number, least significant first. -/
def encode : (width value : Nat) → List UInt8
  | 0, _ => []
  | width + 1, value => UInt8.ofNat value :: encode width (value / 256)

@[simp] theorem encode_zero (value : Nat) : encode 0 value = [] := rfl

/-- The lowest byte is written first. -/
@[simp] theorem encode_succ (width value : Nat) :
    encode (width + 1) value = UInt8.ofNat value :: encode width (value / 256) := rfl

/-- The number of values that fit a width. -/
def capacity : (width : Nat) → Nat
  | 0 => 1
  | width + 1 => 256 * capacity width

@[simp] theorem capacity_zero : capacity 0 = 1 := rfl

@[simp] theorem capacity_succ (width : Nat) : capacity (width + 1) = 256 * capacity width := rfl

/-- A value takes as many bytes as its width says. -/
@[simp] theorem length_encode (width value : Nat) : (encode width value).length = width := by
  induction width generalizing value with
  | zero => rfl
  | succ width ih => simp [ih]

/-- Reading back what was written keeps the number up to the width. -/
theorem decode_encode (width value : Nat) :
    decode (encode width value) = value % capacity width := by
  induction width generalizing value with
  | zero => simp [Nat.mod_one]
  | succ width ih =>
    rw [encode_succ, decode_cons, ih, capacity_succ, Nat.mod_mul]
    simp

/-- Writing what was read gives the same bytes back. -/
theorem encode_decode (bytes : List UInt8) : encode bytes.length (decode bytes) = bytes := by
  induction bytes with
  | nil => rfl
  | cons low high ih =>
    have hlow : low.toNat < 256 := low.toNat_lt
    have hquotient : (low.toNat + 256 * decode high) / 256 = decode high := by omega
    have hbyte : UInt8.ofNat (low.toNat + 256 * decode high) = low := by
      apply UInt8.toNat_inj.mp
      simp
    simp only [List.length_cons, decode_cons, encode_succ, hquotient, hbyte, ih]

/-- Only what fits the width is written of a number. -/
theorem encode_mod (width value : Nat) : encode width (value % capacity width) = encode width value := by
  have h := encode_decode (encode width value)
  rwa [length_encode, decode_encode] at h

/-- A list of bytes stands for a number that fits its length. -/
theorem decode_lt (bytes : List UInt8) : decode bytes < capacity bytes.length := by
  induction bytes with
  | nil => simp
  | cons low high ih =>
    have hlow : low.toNat < 256 := low.toNat_lt
    simp only [decode_cons, List.length_cons, capacity_succ]
    omega

/-- The two bytes of a 16-bit word. -/
def word16 (value : UInt16) : List UInt8 := encode 2 value.toNat

/-- The four bytes of a 32-bit word. -/
def word32 (value : UInt32) : List UInt8 := encode 4 value.toNat

/-- The eight bytes of a 64-bit word. -/
def word64 (value : UInt64) : List UInt8 := encode 8 value.toNat

@[simp] theorem length_word16 (value : UInt16) : (word16 value).length = 2 := rfl

@[simp] theorem length_word32 (value : UInt32) : (word32 value).length = 4 := rfl

@[simp] theorem length_word64 (value : UInt64) : (word64 value).length = 8 := rfl

/-- A word of two bytes is read back. -/
theorem decode_word16 (value : UInt16) : UInt16.ofNat (decode (word16 value)) = value := by
  have h := value.toNat_lt
  rw [word16, decode_encode, Nat.mod_eq_of_lt (by simpa using h), UInt16.ofNat_toNat]

/-- A word of four bytes is read back. -/
theorem decode_word32 (value : UInt32) : UInt32.ofNat (decode (word32 value)) = value := by
  have h := value.toNat_lt
  rw [word32, decode_encode, Nat.mod_eq_of_lt (by simpa using h), UInt32.ofNat_toNat]

/-- A word of eight bytes is read back. -/
theorem decode_word64 (value : UInt64) : UInt64.ofNat (decode (word64 value)) = value := by
  have h := value.toNat_lt
  rw [word64, decode_encode, Nat.mod_eq_of_lt (by simpa using h), UInt64.ofNat_toNat]

end RecordArchive.LittleEndian
