import RecordArchive.Cursor
import RecordArchive.Proofs.Program

/-! # Buffers between what is behind a cursor and what is ahead

A reader moves bytes from what is to be read to what was read, and `Cursor.Reader.between` shows both.
A writer fills a buffer of zeros from its front: `Cursor.Writer.Puts` says of a program that it puts
certain bytes down, which composes along programs, and a program that puts down as many bytes as the
buffer has leaves exactly them (`Cursor.Writer.Puts.fills`). -/

namespace RecordArchive.Cursor

open Program

/-! ## Reading -/

namespace Reader

/-- The cursor behind `front` and in front of `rest`. -/
def between (front rest : List UInt8) : Reader :=
  { bytes := front ++ rest, position := front.length }

/-- Taking bytes moves them from what is to be read to what was read. -/
theorem readBytes_eq_ok {count : Nat} {front rest taken : List UInt8} {final : Reader} :
    readBytes count (between front rest) = .ok taken final ↔
      taken.length = count ∧ ∃ more, rest = taken ++ more ∧ final = between (front ++ taken) more := by
  -- the buffer refuses exactly when fewer bytes are left
  by_cases hfits : count ≤ rest.length
  · rw [readBytes_ok (by simpa [between] using hfits)]
    constructor
    · intro h
      obtain ⟨rfl, rfl⟩ := (EStateM.Result.ok.injEq _ _ _ _).mp h
      have hlength : (rest.take count).length = count := List.length_take_of_le hfits
      refine ⟨by simpa [between] using hlength, rest.drop count, by simp [between], ?_⟩
      simp [between, hlength, List.take_append_drop]
    · rintro ⟨rfl, more, rfl, rfl⟩
      simp [between]
  · rw [readBytes_error (by simpa [between] using hfits)]
    constructor
    · exact fun h => nomatch h
    · rintro ⟨rfl, more, rfl, -⟩
      exact absurd (by simp) hfits

/-- A number is read from the bytes that it is written in. -/
theorem readNumber_eq_ok {width value : Nat} {front rest : List UInt8} {final : Reader} :
    readNumber width (between front rest) = .ok value final ↔
      value < LittleEndian.capacity width ∧ ∃ more, rest = LittleEndian.encode width value ++ more ∧
        final = between (front ++ LittleEndian.encode width value) more := by
  rw [readNumber, map_eq_ok]
  simp only [readBytes_eq_ok]
  constructor
  · rintro ⟨field, ⟨rfl, more, rfl, rfl⟩, rfl⟩
    refine ⟨LittleEndian.decode_lt field, more, ?_, ?_⟩ <;> rw [LittleEndian.encode_decode]
  · rintro ⟨hvalue, more, rfl, rfl⟩
    refine ⟨_, ⟨LittleEndian.length_encode _ _, more, rfl, rfl⟩, ?_⟩
    rw [LittleEndian.decode_encode, Nat.mod_eq_of_lt hvalue]

/-- A word is read from the bytes of its number if words and the numbers of that width correspond. -/
theorem map_readNumber_eq_ok {α : Type} (width : Nat) {ofNumber : Nat → α} {toNumber : α → Nat}
    (hword : ∀ value, ofNumber (toNumber value) = value)
    (hlt : ∀ value, toNumber value < LittleEndian.capacity width)
    (hnumber : ∀ number < LittleEndian.capacity width, toNumber (ofNumber number) = number)
    {value : α} {front rest : List UInt8} {final : Reader} :
    (ofNumber <$> readNumber width) (between front rest) = .ok value final ↔
      ∃ more, rest = LittleEndian.encode width (toNumber value) ++ more ∧
        final = between (front ++ LittleEndian.encode width (toNumber value)) more := by
  rw [map_eq_ok]
  simp only [readNumber_eq_ok]
  constructor
  · rintro ⟨number, ⟨hfits, more, rfl, rfl⟩, rfl⟩
    rw [hnumber number hfits]
    exact ⟨more, rfl, rfl⟩
  · rintro ⟨more, rfl, rfl⟩
    exact ⟨toNumber value, ⟨hlt value, more, rfl, rfl⟩, hword value⟩

/-- A byte is read where one is left. -/
theorem readWord8_eq_ok {value : UInt8} {front rest : List UInt8} {final : Reader} :
    readWord8 (between front rest) = .ok value final ↔
      ∃ more, rest = [value] ++ more ∧ final = between (front ++ [value]) more := by
  have hbytes : LittleEndian.encode 1 value.toNat = [value] := by simp
  rw [readWord8, map_readNumber_eq_ok 1 (fun _ => UInt8.ofNat_toNat) UInt8.toNat_lt
    fun _ => UInt8.toNat_ofNat_of_lt', hbytes]

/-- A word of two bytes is read where its bytes are next. -/
theorem readWord16_eq_ok {value : UInt16} {front rest : List UInt8} {final : Reader} :
    readWord16 (between front rest) = .ok value final ↔
      ∃ more, rest = LittleEndian.word16 value ++ more ∧
        final = between (front ++ LittleEndian.word16 value) more :=
  map_readNumber_eq_ok 2 (fun _ => UInt16.ofNat_toNat) UInt16.toNat_lt
    fun _ => UInt16.toNat_ofNat_of_lt'

/-- A word of four bytes is read where its bytes are next. -/
theorem readWord32_eq_ok {value : UInt32} {front rest : List UInt8} {final : Reader} :
    readWord32 (between front rest) = .ok value final ↔
      ∃ more, rest = LittleEndian.word32 value ++ more ∧
        final = between (front ++ LittleEndian.word32 value) more :=
  map_readNumber_eq_ok 4 (fun _ => UInt32.ofNat_toNat) UInt32.toNat_lt
    fun _ => UInt32.toNat_ofNat_of_lt'

/-- A word of eight bytes is read where its bytes are next. -/
theorem readWord64_eq_ok {value : UInt64} {front rest : List UInt8} {final : Reader} :
    readWord64 (between front rest) = .ok value final ↔
      ∃ more, rest = LittleEndian.word64 value ++ more ∧
        final = between (front ++ LittleEndian.word64 value) more :=
  map_readNumber_eq_ok 8 (fun _ => UInt64.ofNat_toNat) UInt64.toNat_lt
    fun _ => UInt64.toNat_ofNat_of_lt'

end Reader

/-! ## Writing -/

namespace Writer

/-- The cursor behind `front` and in front of what stands in the rest of the buffer. -/
def between (front rest : List UInt8) : Writer :=
  { bytes := front ++ rest, position := front.length }

/-- Bytes that fit move from what is to be written to what was written. -/
theorem writeBytes_between {content rest : List UInt8} (front : List UInt8)
    (h : content.length ≤ rest.length) : writeBytes content (between front rest)
      = .ok () (between (front ++ content) (rest.drop content.length)) := by
  rw [writeBytes_ok (by simpa [between] using h)]
  simp [between, List.drop_append]

/-- The cursor behind what was written, with room for more. -/
def filled (front : List UInt8) (room : Nat) : Writer := between front (List.replicate room 0)

/-- **A program puts bytes down**: it writes these and nothing else, wherever there is room. -/
def Puts (program : EStateM OutOfBounds Writer Unit) (content : List UInt8) : Prop :=
  ∀ front room, program (filled front (content.length + room))
    = .ok () (filled (front ++ content) room)

/-- Bytes that are written are put down. -/
theorem puts_writeBytes (content : List UInt8) : Puts (writeBytes content) content := by
  intro front room
  have hroom : content.length ≤ (List.replicate (content.length + room) (0 : UInt8)).length := by
    rw [List.length_replicate]
    exact Nat.le_add_right _ _
  have hbehind : (List.replicate (content.length + room) (0 : UInt8)).drop content.length
      = List.replicate room 0 := by rw [List.drop_replicate, Nat.add_sub_cancel_left]
  rw [filled, writeBytes_between front hroom, hbehind, filled]

/-- Doing nothing puts no bytes down. -/
theorem puts_pure : Puts (pure ()) [] := by
  intro front room
  rw [List.length_nil, Nat.zero_add, List.append_nil]
  rfl

/-- What is put down one after another stands in a row. -/
theorem Puts.bind {first : EStateM OutOfBounds Writer Unit}
    {next : Unit → EStateM OutOfBounds Writer Unit} {content more : List UInt8}
    (hfirst : Puts first content) (hnext : Puts (next ()) more) :
    Puts (first >>= next) (content ++ more) := by
  intro front room
  rw [List.length_append, Nat.add_assoc, bind_of_ok (hfirst front _), ← List.append_assoc]
  exact hnext _ room

/-- **A buffer is filled** by a program that puts down as many bytes as it has. -/
theorem Puts.fills {program : EStateM OutOfBounds Writer Unit} {content : List UInt8} {length : Nat}
    (h : Puts program content) (hlength : content.length = length) :
    program.run { bytes := List.replicate length 0 }
      = .ok () { bytes := content, position := length } := by
  have hrun := h [] 0
  rw [filled, filled, between, between, List.nil_append, List.nil_append, List.replicate_zero,
    List.append_nil, Nat.add_zero, hlength] at hrun
  exact hrun

end Writer

end RecordArchive.Cursor
