import Mathlib.Algebra.Group.Nat.Defs
import Mathlib.Logic.Function.Iterate
import RecordArchive.Crc32c

/-! # What a change of bytes does to a checksum

Shifting the register is linear and loses nothing, so two byte strings of one length have checksums
that differ by what their difference leaves in the register.

* `Crc32c.shiftBit_xor`, `Crc32c.shiftBit_injective`: one shift. Both are read off the places of the
  register (`Crc32c.bit_shiftBit`).
* `Crc32c.foldl_step_window`: up to four bytes in a row act on the register as one word, so
  `crc32c_window_injective`: **a change within four bytes in a row changes the checksum**, whatever
  stands in front of them and behind them.
* `crc32c_xor_flip`: one flipped bit leaves in the checksum what the lowest place becomes by as many
  shifts as there are bits from the flipped one to the end. -/

namespace RecordArchive

namespace Crc32c

/-! ## Places of the register -/

/-- One place of a register, the lowest one first. -/
def bit (register : UInt32) (place : Nat) : Bool := register.toNat.testBit place

/-- Registers that agree in all places are the same. -/
theorem eq_of_bit_eq {first second : UInt32} (h : ∀ place, bit first place = bit second place) :
    first = second :=
  UInt32.toNat_inj.mp (Nat.eq_of_testBit_eq h)

@[simp] theorem bit_zero (place : Nat) : bit 0 place = false := Nat.zero_testBit place

/-- The places of a difference. -/
@[simp] theorem bit_xor (first second : UInt32) (place : Nat) :
    bit (first ^^^ second) place = (bit first place ^^ bit second place) := by
  rw [bit, UInt32.toNat_xor, Nat.testBit_xor]
  rfl

/-- A register has thirty-two places. -/
theorem bit_of_le (register : UInt32) {place : Nat} (h : 32 ≤ place) :
    bit register place = false := by
  refine Nat.testBit_lt_two_pow (Nat.lt_of_lt_of_le register.toNat_lt ?_)
  exact Nat.pow_le_pow_right (by decide) h

/-- A byte takes the eight lowest places. -/
theorem bit_toUInt32_of_le (byte : UInt8) {place : Nat} (h : 8 ≤ place) :
    bit byte.toUInt32 place = false := by
  rw [bit, UInt8.toNat_toUInt32]
  refine Nat.testBit_lt_two_pow (Nat.lt_of_lt_of_le byte.toNat_lt ?_)
  exact Nat.pow_le_pow_right (by decide) h

/-- **One shift**: every place takes over the next one, and the lowest one comes back through the
generator polynomial. -/
theorem bit_shiftBit (register : UInt32) (place : Nat) :
    bit (shiftBit register) place
      = (bit register (place + 1) ^^ (bit register 0 && bit polynomial place)) := by
  have hlow : register &&& 1 = 1 ↔ bit register 0 = true := by
    rw [← UInt32.toNat_inj, UInt32.toNat_and, bit, Nat.testBit_zero]
    show register.toNat &&& 1 = 1 ↔ _
    rw [Nat.and_one_is_mod, decide_eq_true_eq]
  have hshift : bit (register >>> 1) place = bit register (place + 1) := by
    rw [bit, UInt32.toNat_shiftRight]
    show (register.toNat >>> 1).testBit place = _
    rw [Nat.testBit_shiftRight, Nat.add_comm]
    rfl
  unfold shiftBit
  by_cases hbit : bit register 0 = true
  · rw [if_pos (hlow.mpr hbit), bit_xor, hshift, hbit, Bool.true_and]
  · rw [if_neg fun h => hbit (hlow.mp h), hshift, Bool.eq_false_iff.mpr hbit, Bool.false_and,
      Bool.xor_false]

/-! ## Shifts -/

/-- Shifting is linear. -/
theorem shiftBit_xor (first second : UInt32) :
    shiftBit (first ^^^ second) = shiftBit first ^^^ shiftBit second := by
  apply eq_of_bit_eq
  intro place
  simp only [bit_shiftBit, bit_xor]
  cases bit first 0 <;> cases bit second 0 <;> cases bit polynomial place <;> simp

/-- Shifting loses nothing: the highest place says what the lowest one was. -/
theorem shiftBit_injective : Function.Injective shiftBit := by
  intro first second h
  rw [← UInt32.xor_eq_zero_iff] at h ⊢
  rw [← shiftBit_xor] at h
  have hplace (place : Nat) := (bit_shiftBit (first ^^^ second) place).symm
  simp only [h, bit_zero] at hplace
  have hlow : bit (first ^^^ second) 0 = false := by
    have htop := hplace 31
    rwa [bit_of_le _ (Nat.le_refl 32), show bit polynomial 31 = true by decide, Bool.false_xor,
      Bool.and_true] at htop
  apply eq_of_bit_eq
  intro place
  rw [bit_zero]
  cases place with
  | zero => exact hlow
  | succ place =>
    have hnext := hplace place
    rwa [hlow, Bool.false_and, Bool.xor_false] at hnext

/-- Shifting several times is linear. -/
theorem shiftBit_iterate_xor (count : Nat) (first second : UInt32) :
    shiftBit^[count] (first ^^^ second) = shiftBit^[count] first ^^^ shiftBit^[count] second := by
  induction count with
  | zero => rfl
  | succ count ih => simp only [Function.iterate_succ_apply', ih, shiftBit_xor]

/-- While the lowest places are clear, the register only moves. -/
theorem bit_iterate_of_clear {register : UInt32} {count : Nat}
    (h : ∀ place, place < count → bit register place = false) (place : Nat) :
    bit (shiftBit^[count] register) place = bit register (place + count) := by
  induction count generalizing place with
  | zero => rfl
  | succ count ih =>
    have hmoved := ih fun place hplace => h place (Nat.lt_succ_of_lt hplace)
    rw [Function.iterate_succ_apply', bit_shiftBit, hmoved, hmoved, Nat.zero_add,
      h count (Nat.lt_succ_self count), Bool.false_and, Bool.xor_false, Nat.add_right_comm]
    rfl

/-! ## Bytes -/

/-- A byte is eight shifts. -/
theorem step_eq (register : UInt32) (byte : UInt8) :
    step register byte = shiftBit^[8] (register ^^^ byte.toUInt32) := rfl

/-- What a change of the register becomes behind some bytes does not depend on these bytes. -/
theorem foldl_step_xor (bytes : List UInt8) (register change : UInt32) :
    bytes.foldl step (register ^^^ change)
      = bytes.foldl step register ^^^ shiftBit^[8 * bytes.length] change := by
  induction bytes generalizing register change with
  | nil => rfl
  | cons byte bytes ih =>
    have hstep : step (register ^^^ change) byte
        = step register byte ^^^ shiftBit^[8] change := by
      rw [step_eq, step_eq, UInt32.xor_assoc, UInt32.xor_comm change, ← UInt32.xor_assoc,
        shiftBit_iterate_xor]
    rw [List.foldl_cons, hstep, ih, ← Function.iterate_add_apply, List.length_cons, Nat.mul_succ]
    rfl

/-- Different registers stay different behind the same bytes. -/
theorem foldl_step_injective (bytes : List UInt8) :
    Function.Injective fun register => bytes.foldl step register := by
  induction bytes with
  | nil => exact fun _ _ h => h
  | cons byte bytes ih =>
    intro first second h
    have hstep : shiftBit^[8] (first ^^^ byte.toUInt32) = shiftBit^[8] (second ^^^ byte.toUInt32) :=
      ih h
    exact (UInt32.xor_left_inj _).mp (shiftBit_injective.iterate 8 hstep)

/-! ## Windows -/

/-- Bytes in a row as one word, the first one lowest. Only the first four have room in it. -/
def word : List UInt8 → UInt32
  | [] => 0
  | byte :: bytes => byte.toUInt32 ^^^ (word bytes <<< 8)

/-- A word moved up by a byte. -/
theorem bit_shiftLeft_byte (register : UInt32) (place : Nat) :
    bit (register <<< 8) place
      = (decide (place < 32) && (decide (8 ≤ place) && bit register (place - 8))) := by
  rw [bit, UInt32.toNat_shiftLeft]
  show (register.toNat <<< 8 % 2 ^ 32).testBit place = _
  rw [Nat.testBit_mod_two_pow, Nat.testBit_shiftLeft]
  rfl

/-- Bytes leave clear the places behind them. -/
theorem bit_word_of_le (bytes : List UInt8) {place : Nat} (h : 8 * bytes.length ≤ place) :
    bit (word bytes) place = false := by
  induction bytes generalizing place with
  | nil => exact bit_zero place
  | cons byte bytes ih =>
    rw [List.length_cons] at h
    rw [word, bit_xor, bit_toUInt32_of_le byte (by omega), bit_shiftLeft_byte,
      ih (by omega : 8 * bytes.length ≤ place - 8)]
    simp

/-- Eight shifts undo moving up by a byte where nothing is pushed out. -/
theorem shiftBit_iterate_shiftLeft {register : UInt32}
    (h : ∀ place, 24 ≤ place → bit register place = false) :
    shiftBit^[8] (register <<< 8) = register := by
  have hclear (place : Nat) (hplace : place < 8) : bit (register <<< 8) place = false := by
    rw [bit_shiftLeft_byte, decide_eq_false (Nat.not_le.mpr hplace), Bool.false_and, Bool.and_false]
  apply eq_of_bit_eq
  intro place
  rw [bit_iterate_of_clear hclear, bit_shiftLeft_byte, Nat.add_sub_cancel,
    decide_eq_true (Nat.le_add_left 8 place), Bool.true_and]
  by_cases hplace : place + 8 < 32
  · rw [decide_eq_true hplace, Bool.true_and]
  · rw [decide_eq_false hplace, Bool.false_and, h place (by omega)]

/-- **A window acts as one word**: up to four bytes in a row are taken into the register at once. -/
theorem foldl_step_window {window : List UInt8} (h : window.length ≤ 4) (register : UInt32) :
    window.foldl step register = shiftBit^[8 * window.length] (register ^^^ word window) := by
  induction window generalizing register with
  | nil => exact UInt32.xor_zero.symm
  | cons byte bytes ih =>
    rw [List.length_cons] at h
    have hword : word bytes = shiftBit^[8] (word bytes <<< 8) :=
      (shiftBit_iterate_shiftLeft fun place hplace => bit_word_of_le bytes (by omega)).symm
    rw [List.foldl_cons, ih (by omega), step_eq, List.length_cons, Nat.mul_succ,
      Function.iterate_add_apply]
    conv => lhs; rw [hword]
    rw [← shiftBit_iterate_xor, UInt32.xor_assoc, word]

/-- A word of up to four bytes says which bytes these are. -/
theorem word_injective {first second : List UInt8} (hlength : first.length = second.length)
    (hfour : first.length ≤ 4) (h : word first = word second) : first = second := by
  induction first generalizing second with
  | nil => exact (List.length_eq_zero_iff.mp hlength.symm).symm
  | cons byte bytes ih =>
    obtain _ | ⟨byte', bytes'⟩ := second
    · cases hlength
    rw [List.length_cons] at hfour
    rw [List.length_cons, List.length_cons, Nat.succ_inj] at hlength
    have hplace (place : Nat) := congrArg (bit · place) h
    simp only [word, bit_xor, bit_shiftLeft_byte] at hplace
    -- the lowest eight places are the first byte, the others are the bytes behind it
    have hbyte : byte.toUInt32 = byte'.toUInt32 := by
      apply eq_of_bit_eq
      intro place
      by_cases hlow : place < 8
      · simpa [Nat.not_le.mpr hlow] using hplace place
      · rw [bit_toUInt32_of_le _ (by omega), bit_toUInt32_of_le _ (by omega)]
    have hbytes : word bytes = word bytes' := by
      apply eq_of_bit_eq
      intro place
      by_cases hroom : place + 8 < 32
      · simpa [bit_toUInt32_of_le, hroom] using hplace (place + 8)
      · rw [bit_word_of_le _ (by omega), bit_word_of_le _ (by omega)]
    rw [UInt8.toUInt32_inj.mp hbyte, ih hlength (by omega) hbytes]

end Crc32c

open Crc32c

/-- **A change within four bytes in a row** changes the checksum. -/
theorem crc32c_window_injective (seed : UInt32) (front back : List UInt8)
    {window window' : List UInt8} (hlength : window.length = window'.length)
    (hfour : window.length ≤ 4)
    (h : crc32c seed (front ++ window ++ back) = crc32c seed (front ++ window' ++ back)) :
    window = window' := by
  unfold crc32c at h
  simp only [UInt32.not_inj, List.foldl_append] at h
  have hwindow := foldl_step_injective back h
  rw [foldl_step_window hfour, foldl_step_window (Nat.le_trans (Nat.le_of_eq hlength.symm) hfour), hlength] at hwindow
  exact word_injective hlength hfour
    ((UInt32.xor_right_inj _).mp (shiftBit_injective.iterate _ hwindow))

/-! ## Single bits -/

/-- A byte with one of its eight bits flipped. -/
def flipBitOf (byte : UInt8) (place : Nat) : UInt8 := byte ^^^ UInt8.ofNat (2 ^ place)

/-- A flipped bit moves to the lowest place and then on. -/
theorem shiftBit_iterate_place {place : Nat} (h : place < 8) :
    shiftBit^[8] (UInt8.ofNat (2 ^ place)).toUInt32 = shiftBit^[8 - place] 1 := by
  have hall : ∀ place : Fin 8,
      shiftBit^[8] (UInt8.ofNat (2 ^ place.val)).toUInt32 = shiftBit^[8 - place.val] 1 := by
    decide +kernel
  exact hall ⟨place, h⟩

/-- **One flipped bit** leaves in the checksum what the lowest place becomes on its way to the end. -/
theorem crc32c_xor_flip (seed : UInt32) (front back : List UInt8) (byte : UInt8) {place : Nat}
    (h : place < 8) :
    crc32c seed (front ++ flipBitOf byte place :: back)
      = crc32c seed (front ++ byte :: back)
        ^^^ shiftBit^[8 * (back.length + 1) - place] 1 := by
  obtain ⟨register, hregister⟩ : ∃ register, front.foldl step (~~~ seed) = register := ⟨_, rfl⟩
  have hstep : step register (flipBitOf byte place)
      = step register byte ^^^ shiftBit^[8 - place] 1 := by
    rw [step_eq, step_eq, flipBitOf, UInt8.toUInt32_xor, ← UInt32.xor_assoc, shiftBit_iterate_xor,
      shiftBit_iterate_place h]
  have hcount : 8 * (back.length + 1) - place = 8 * back.length + (8 - place) := by omega
  unfold crc32c
  rw [List.foldl_append, List.foldl_append, hregister, List.foldl_cons, List.foldl_cons, hstep,
    foldl_step_xor, ← Function.iterate_add_apply, ← hcount, UInt32.not_xor]

end RecordArchive
