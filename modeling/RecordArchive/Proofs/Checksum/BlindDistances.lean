import RecordArchive.Proofs.Checksum.Difference

/-! # The distances at which half a checksum is blind

A flipped bit leaves in the checksum what the lowest place of the register becomes on its way to the
end, and a record keeps only the low half of that. There are distances from the end at which this half
is zero, so that a bit flipped there is not noticed.

* `outgoing distance` is the bit that the register shifts out at a distance. The low half of the
  register is zero where sixteen bits in a row are (`truncate16_iterate_eq_zero`).
* `outgoing_eq`: the bits that are shifted out are those of one divided by the generator polynomial.
  So a number whose product with the polynomial is one has them as its binary places
  (`testBit_of_fedBack`), and `outgoingBits` is such a number, as far as records reach.
* `truncate16_iterate_iff`: in a record there are nine blind distances. -/

namespace RecordArchive.Crc32c

/-! ## Bits that are shifted out -/

/-- The bit that a register with only its lowest place set shifts out after some shifts. -/
def outgoing (distance : Nat) : Bool := bit (shiftBit^[distance] 1) 0

/-- The low half of a checksum is zero where all its places are. -/
theorem truncate16_eq_zero {register : UInt32} :
    truncate16 register = 0 ↔ ∀ place, place < 16 → bit register place = false := by
  have hplaces (place : Nat) : (register.toNat % 2 ^ 16).testBit place
      = (decide (place < 16) && bit register place) := Nat.testBit_mod_two_pow _ _ _
  rw [truncate16, ← UInt16.toNat_inj, UInt32.toNat_toUInt16]
  show register.toNat % 2 ^ 16 = 0 ↔ _
  constructor
  · intro h place hplace
    have hbit := hplaces place
    rw [h, Nat.zero_testBit, decide_eq_true hplace, Bool.true_and] at hbit
    exact hbit.symm
  · intro h
    apply Nat.eq_of_testBit_eq
    intro place
    rw [hplaces, Nat.zero_testBit]
    by_cases hplace : place < 16
    · rw [h place hplace, Bool.and_false]
    · rw [decide_eq_false hplace, Bool.false_and]

/-- **Half a checksum is zero** where sixteen zeros in a row are shifted out. -/
theorem truncate16_iterate_eq_zero {distance : Nat} :
    truncate16 (shiftBit^[distance] 1) = 0 ↔
      ∀ place, place < 16 → outgoing (distance + place) = false := by
  rw [truncate16_eq_zero]
  have hlater (place : Nat) : outgoing (distance + place)
      = bit (shiftBit^[place] (shiftBit^[distance] 1)) 0 := by
    rw [outgoing, Nat.add_comm, Function.iterate_add_apply]
  constructor
  · -- zeros in the low half only move down
    intro h place hplace
    rw [hlater, bit_iterate_of_clear fun lower hlower => h lower (Nat.lt_trans hlower hplace),
      Nat.zero_add]
    exact h place hplace
  · intro h place
    induction place using Nat.strongRecOn with
    | _ place ih =>
      intro hplace
      have hout := h place hplace
      rwa [hlater, bit_iterate_of_clear fun lower hlower => ih lower hlower (Nat.lt_trans hlower hplace),
        Nat.zero_add] at hout

/-! ## Division by the generator polynomial -/

/-- The sum of some bits without carry. -/
def xorSum : Nat → (Nat → Bool) → Bool
  | 0, _ => false
  | count + 1, bits => xorSum count bits ^^ bits count

/-- A sum depends on the bits that it counts only. -/
theorem xorSum_congr {count : Nat} {bits bits' : Nat → Bool}
    (h : ∀ index, index < count → bits index = bits' index) :
    xorSum count bits = xorSum count bits' := by
  induction count with
  | zero => rfl
  | succ count ih =>
    rw [xorSum, xorSum, ih fun index hindex => h index (Nat.lt_succ_of_lt hindex),
      h count (Nat.lt_succ_self count)]

/-- Zeros at the end add nothing. -/
theorem xorSum_of_le {count total : Nat} (hle : count ≤ total) {bits : Nat → Bool}
    (h : ∀ index, count ≤ index → bits index = false) : xorSum total bits = xorSum count bits := by
  induction hle with
  | refl => rfl
  | step hle ih => rw [xorSum, ih, h _ hle, Bool.xor_false]

/-- A place holds what stood as many places above some shifts ago, and what came back since. -/
theorem bit_iterate (place distance count : Nat) :
    bit (shiftBit^[distance + count] 1) place
      = (bit (shiftBit^[distance] 1) (place + count)
        ^^ xorSum count fun index =>
          bit polynomial (place + index) && outgoing (distance + count - (index + 1))) := by
  induction count generalizing distance with
  | zero => exact (Bool.xor_false _).symm
  | succ count ih =>
    -- the first of the shifts brings the last summand
    have hfirst := ih (distance + 1)
    rw [Function.iterate_succ_apply', bit_shiftBit, Nat.add_right_comm] at hfirst
    have hlast : distance + count + 1 - (count + 1) = distance := by omega
    rw [← Nat.add_assoc, hfirst, xorSum, hlast, ← Nat.add_assoc, Bool.xor_assoc,
      Bool.xor_comm (_ && _), Bool.and_comm]
    rfl

/-- Of the binary places of one, only the lowest is set. -/
theorem testBit_one (place : Nat) : (1 : Nat).testBit place = decide (place = 0) := by
  rw [← Nat.pow_zero 2, Nat.testBit_two_pow]
  exact decide_eq_decide.mpr eq_comm

/-- **The bits that are shifted out** are those of one divided by the generator polynomial. -/
theorem outgoing_eq (distance : Nat) :
    outgoing distance = (decide (distance = 0)
      ^^ xorSum 32 fun index => bit polynomial index &&
        (decide (index < distance) && outgoing (distance - (index + 1)))) := by
  rcases Nat.lt_or_ge distance 32 with hlt | hge
  · -- what stood at the place at first is still under way
    have hone : bit 1 distance = decide (distance = 0) := by
      exact testBit_one distance
    have hstart := bit_iterate 0 0 distance
    rw [Nat.zero_add] at hstart
    rw [outgoing, hstart, Function.iterate_zero_apply, hone,
      xorSum_of_le (Nat.le_of_lt hlt) fun index hindex => by simp [Nat.not_lt.mpr hindex]]
    refine congrArg (_ ^^ ·) (xorSum_congr fun index hindex => ?_)
    simp [hindex]
  · obtain ⟨earlier, rfl⟩ := Nat.exists_eq_add_of_le' hge
    rw [outgoing, bit_iterate, bit_of_le _ (Nat.le_add_left 32 0),
      decide_eq_false (by omega : ¬ earlier + 32 = 0)]
    refine congrArg (_ ^^ ·) (xorSum_congr fun index hindex => ?_)
    simp [show index < earlier + 32 by omega]

/-- The generator polynomial as a number. -/
def generator : Nat := 0x82F63B78

/-- The copies of a number that the generator polynomial feeds back, added without carry. -/
def fedBack (stride : Nat) (number : Nat) : Nat → Nat
  | 0 => 0
  | count + 1 => fedBack stride number count ^^^
      bif generator.testBit count then number <<< ((count + 1) * stride) else 0

/-- A place of what is fed back is the sum of the places of the generator against those of the
number. -/
theorem testBit_fedBack (number count place : Nat) : (fedBack 1 number count).testBit place
    = xorSum count fun index => bit polynomial index &&
        (decide (index < place) && number.testBit (place - (index + 1))) := by
  induction count with
  | zero => exact Nat.zero_testBit place
  | succ count ih =>
    rw [fedBack, Nat.testBit_xor, ih, xorSum]
    refine congrArg (_ ^^ ·) ?_
    show Nat.testBit (bif bit polynomial count then _ else 0) place = _
    cases bit polynomial count with
    | false => exact Nat.zero_testBit place
    | true =>
      rw [cond_true, Nat.testBit_shiftLeft, Nat.mul_one, Bool.true_and]
      rfl

/-- **A number whose product with the generator polynomial is one**, up to a number of places, has
there the bits that are shifted out. -/
theorem testBit_of_fedBack {number places : Nat}
    (h : (number ^^^ fedBack 1 number 32) % 2 ^ places = 1) {place : Nat} (hplace : place < places) :
    number.testBit place = outgoing place := by
  induction place using Nat.strongRecOn with
  | _ place ih =>
    have hbit := congrArg (·.testBit place) h
    simp only [Nat.testBit_mod_two_pow, Nat.testBit_xor, testBit_fedBack, hplace, decide_true,
      Bool.true_and, testBit_one] at hbit
    -- the places below are known, and the product gives this one
    have hsum : (xorSum 32 fun index => bit polynomial index &&
          (decide (index < place) && number.testBit (place - (index + 1))))
        = xorSum 32 fun index => bit polynomial index &&
          (decide (index < place) && outgoing (place - (index + 1))) := by
      refine xorSum_congr fun index _ => ?_
      by_cases hindex : index < place
      · rw [ih _ (by omega) (by omega)]
      · simp [hindex]
    rw [hsum] at hbit
    rw [outgoing_eq, ← hbit, Bool.xor_assoc, Bool.xor_self, Bool.xor_false]

/-! ## Sixteen zeros in a row -/

/-- The places from which on there is a one among the next ones. -/
def covered (number : Nat) : Nat → Nat
  | 0 => number
  | count + 1 => covered number count ||| (covered number count >>> 2 ^ count)

/-- A place is covered if there is a one among the next ones. -/
theorem testBit_covered (number count place : Nat) : (covered number count).testBit place = true ↔
    ∃ ahead, ahead < 2 ^ count ∧ number.testBit (place + ahead) = true := by
  induction count generalizing place with
  | zero => simp [covered]
  | succ count ih =>
    rw [covered, Nat.testBit_or, Bool.or_eq_true, Nat.testBit_shiftRight, ih, ih, Nat.pow_succ]
    constructor
    · rintro (⟨ahead, hlt, hbit⟩ | ⟨ahead, hlt, hbit⟩)
      · exact ⟨ahead, by omega, hbit⟩
      · exact ⟨2 ^ count + ahead, by omega, by rwa [← Nat.add_assoc, Nat.add_comm place]⟩
    · rintro ⟨ahead, hlt, hbit⟩
      rcases Nat.lt_or_ge ahead (2 ^ count) with hnear | hfar
      · exact .inl ⟨ahead, hnear, hbit⟩
      · refine .inr ⟨ahead - 2 ^ count, by omega, ?_⟩
        rwa [show 2 ^ count + place + (ahead - 2 ^ count) = place + ahead by omega]

/-- The number with ones at the given places. -/
def marks (places : List Nat) : Nat := places.foldr (fun place number => 1 <<< place ||| number) 0

/-- The ones are at the places that were given. -/
theorem testBit_marks (places : List Nat) (place : Nat) :
    (marks places).testBit place = true ↔ place ∈ places := by
  induction places with
  | nil => simp [marks]
  | cons first places ih =>
    rw [marks, List.foldr_cons, Nat.testBit_or, Bool.or_eq_true, ← marks, ih, List.mem_cons,
      Nat.one_shiftLeft, Nat.testBit_two_pow]
    simp [eq_comm]

/-! ## The blind distances -/

/-- The distances from the end of a record, in bits, at which half a checksum does not notice a
flipped bit. -/
def blindDistances : List Nat :=
  [67255, 67256, 109221, 238102, 238103, 300757, 351127, 351128, 353195]

/-- The bits that are shifted out, as far as records reach. Squaring the generator polynomial spreads
its places, so all but the last of these products with it cancel out. -/
def outgoingBits : Nat :=
  (List.range 20).foldl
    (fun number index => (number ^^^ fedBack (2 ^ index) number 32) % 2 ^ 524296) 1

/-- **The places of the number** are the bits that are shifted out, as far as records reach. -/
theorem testBit_outgoingBits {place : Nat} (h : place < 524296) :
    outgoingBits.testBit place = outgoing place := by
  refine testBit_of_fedBack ?_ h
  decide +kernel

/-- **The blind distances**: in a record the low half of a checksum notices a flipped bit everywhere
but at nine distances from the end. -/
theorem truncate16_iterate_iff {distance : Nat} (h : distance ≤ 8 * 65535) :
    truncate16 (shiftBit^[distance] 1) = 0 ↔ distance ∈ blindDistances := by
  have hzeros : truncate16 (shiftBit^[distance] 1) = 0 ↔
      ¬ (covered outgoingBits 4).testBit distance = true := by
    rw [truncate16_iterate_eq_zero, testBit_covered]
    constructor
    · rintro hzero ⟨ahead, hahead, hbit⟩
      rw [testBit_outgoingBits (by omega), hzero ahead hahead] at hbit
      cases hbit
    · intro hnone place hplace
      rw [← testBit_outgoingBits (by omega)]
      exact Bool.eq_false_iff.mpr fun hbit => hnone ⟨place, hplace, hbit⟩
  have hall : (covered outgoingBits 4 ^^^ marks blindDistances) % 2 ^ 524281 = 2 ^ 524281 - 1 := by
    decide +kernel
  have hbit := congrArg (·.testBit distance) hall
  simp only [Nat.testBit_mod_two_pow, Nat.testBit_two_pow_sub_one, Nat.testBit_xor,
    decide_eq_true (by omega : distance < 524281), Bool.true_and] at hbit
  rw [hzeros, ← testBit_marks]
  revert hbit
  cases (covered outgoingBits 4).testBit distance <;> simp

end RecordArchive.Crc32c
