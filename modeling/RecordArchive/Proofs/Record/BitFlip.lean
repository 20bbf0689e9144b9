import RecordArchive.Proofs.Checksum.BlindDistances
import RecordArchive.Proofs.Record.Layout

/-! # Records with one bit flipped

A record keeps sixteen bits of the checksum of all that stands behind them, up to the length that its
size field gives. So there are two ways in which a flipped bit goes unnoticed.

* `Record.seemsIntact_iff`: what of some bytes is looked at when a record is read and its checksum is
  compared.
* `crc32c_flipBit`: what a flipped bit leaves in the checksum.
* `Record.isNoticed_flipBit_fixed`: **every flipped bit is noticed**, but at the blind distances from
  the end, and but in the size field where the shorter record has the checksum of the whole one
  (`Record.IsBlindTo`). -/

namespace RecordArchive

open Crc32c

/-! ## Flipping a bit -/

/-- Bytes with one bit flipped. Bits are counted from the lowest one of the first byte. -/
def flipBit (bytes : List UInt8) (position : Nat) : List UInt8 :=
  bytes.modify (position / 8) fun byte => flipBitOf byte (position % 8)

/-- A flipped bit makes no byte more or less. -/
@[simp] theorem length_flipBit (bytes : List UInt8) (position : Nat) :
    (flipBit bytes position).length = bytes.length := List.length_modify _ _ _

/-- The first eight positions are those of the first byte. -/
theorem flipBit_cons_of_lt (byte : UInt8) (bytes : List UInt8) {position : Nat}
    (h : position < 8) : flipBit (byte :: bytes) position = flipBitOf byte position :: bytes := by
  rw [flipBit, Nat.div_eq_of_lt h, Nat.mod_eq_of_lt h]
  rfl

/-- The other positions are those of the bytes behind. -/
theorem flipBit_cons_add (byte : UInt8) (bytes : List UInt8) (position : Nat) :
    flipBit (byte :: bytes) (8 + position) = byte :: flipBit bytes position := by
  have hindex : (8 + position) / 8 = position / 8 + 1 := by omega
  have hplace : (8 + position) % 8 = position % 8 := by omega
  rw [flipBit, hindex, hplace]
  rfl

/-- A bit in the front part. -/
theorem flipBit_append_of_lt {front : List UInt8} (back : List UInt8) {position : Nat}
    (h : position < 8 * front.length) :
    flipBit (front ++ back) position = flipBit front position ++ back := by
  induction front generalizing position with
  | nil => exact absurd h (Nat.not_lt_zero _)
  | cons byte front ih =>
    rw [List.length_cons] at h
    rw [List.cons_append]
    rcases Nat.lt_or_ge position 8 with hlt | hge
    · rw [flipBit_cons_of_lt _ _ hlt, flipBit_cons_of_lt _ _ hlt, List.cons_append]
    · obtain ⟨later, rfl⟩ := Nat.exists_eq_add_of_le hge
      rw [flipBit_cons_add, flipBit_cons_add, List.cons_append, ih (by omega)]

/-- A bit behind the front part. -/
theorem flipBit_append_add (front back : List UInt8) (position : Nat) :
    flipBit (front ++ back) (8 * front.length + position) = front ++ flipBit back position := by
  induction front with
  | nil => rw [List.length_nil, Nat.mul_zero, Nat.zero_add, List.nil_append, List.nil_append]
  | cons byte front ih =>
    rw [List.length_cons, Nat.mul_succ, Nat.add_comm _ 8, Nat.add_assoc, List.cons_append,
      flipBit_cons_add, ih, List.cons_append]

/-- A flipped bit of a word. -/
theorem flipBit_word16 (value : UInt16) {place : Nat} (h : place < 16) :
    flipBit (LittleEndian.word16 value) place
      = LittleEndian.word16 (value ^^^ UInt16.ofNat (2 ^ place)) := by
  have hbit : (UInt16.ofNat (2 ^ place)).toNat = 2 ^ place :=
    UInt16.toNat_ofNat_of_lt' (Nat.pow_lt_pow_right (by decide) h)
  have hhigh : (value.toNat ^^^ 2 ^ place) / 256 = value.toNat / 256 ^^^ 2 ^ place / 256 :=
    Nat.xor_div_two_pow (n := 8)
  simp only [LittleEndian.word16, LittleEndian.encode_succ, LittleEndian.encode_zero,
    UInt16.toNat_xor, hbit, hhigh, UInt8.ofNat_xor]
  rcases Nat.lt_or_ge place 8 with hlow | hlow
  · have hzero : 2 ^ place / 256 = 0 := Nat.div_eq_of_lt (Nat.pow_lt_pow_right (by decide) hlow)
    rw [flipBit_cons_of_lt _ _ hlow, hzero, show UInt8.ofNat 0 = 0 from rfl, UInt8.xor_zero]
    rfl
  · obtain ⟨later, rfl⟩ := Nat.exists_eq_add_of_le hlow
    have hlow : UInt8.ofNat (2 ^ (8 + later)) = 0 := by
      rw [Nat.pow_add, UInt8.ofNat_mul]
      exact UInt8.zero_mul
    have hplace : 2 ^ (8 + later) / 256 = 2 ^ later := by
      rw [Nat.pow_add]
      exact Nat.mul_div_cancel_left _ (by decide)
    rw [flipBit_cons_add, flipBit_cons_of_lt _ _ (by omega), hlow, hplace, UInt8.xor_zero]
    rfl

/-- What leaves a word as it is. -/
theorem xor_eq_left_iff {value change : UInt16} : value ^^^ change = value ↔ change = 0 := by
  constructor
  · intro h
    exact (UInt16.xor_right_inj value).mp (h.trans UInt16.xor_zero.symm)
  · rintro rfl
    exact UInt16.xor_zero

/-- A flipped bit changes a word. -/
theorem xor_two_pow_ne (value : UInt16) {place : Nat} (h : place < 16) :
    value ^^^ UInt16.ofNat (2 ^ place) ≠ value := by
  intro hsame
  have hbit : (UInt16.ofNat (2 ^ place)).toNat = 2 ^ place :=
    UInt16.toNat_ofNat_of_lt' (Nat.pow_lt_pow_right (by decide) h)
  rw [xor_eq_left_iff.mp hsame] at hbit
  exact absurd hbit.symm (Nat.ne_of_gt (Nat.two_pow_pos place))

/-- **A flipped bit in the checksum**: what the lowest place becomes on its way to the end. -/
theorem crc32c_flipBit (seed : UInt32) {bytes : List UInt8} {position : Nat}
    (h : position < 8 * bytes.length) :
    crc32c seed (flipBit bytes position)
      = crc32c seed bytes ^^^ shiftBit^[8 * bytes.length - position] 1 := by
  obtain ⟨front, byte, back, rfl, hfront, hflip⟩ := List.exists_of_modify
    (fun byte => flipBitOf byte (position % 8)) (by omega : position / 8 < bytes.length)
  have hdistance : 8 * (back.length + 1) - position % 8
      = 8 * (front ++ byte :: back).length - position := by
    rw [List.length_append, List.length_cons]
    omega
  rw [flipBit, hflip, crc32c_xor_flip seed front back byte (Nat.mod_lt position (by decide)),
    hdistance]

/-- Taking half of a checksum is linear. -/
theorem truncate16_xor (first second : UInt32) :
    truncate16 (first ^^^ second) = truncate16 first ^^^ truncate16 second :=
  UInt32.toUInt16_xor first second

/-! ## Records that seem intact -/

namespace Record

/-- There is a record at the front of some bytes, and its checksum is that of its contents. -/
def SeemsIntact (bytes : List UInt8) : Prop :=
  ∃ record, decode bytes = .ok record ∧ record.isValid = true

/-- It is noticed that some bytes are not those of an intact record: reading refuses them, or it
gives a record whose checksum is not that of its contents. -/
def IsNoticed (bytes : List UInt8) : Prop :=
  (∃ fault, decode bytes = .error (.invalidData fault)) ∨
    ∃ record, decode bytes = .ok record ∧ record.isValid = false

/-- Nothing else can become of some bytes. -/
theorem isNoticed_iff {bytes : List UInt8} : IsNoticed bytes ↔ ¬ SeemsIntact bytes := by
  unfold IsNoticed SeemsIntact
  cases hdecode : decode bytes with
  | error error =>
    obtain ⟨fault, rfl⟩ := decode_eq_error hdecode
    simp
  | ok record => simp

/-- The bytes of a record behind its size field. -/
def body (record : Record) : List UInt8 := record.sizeField ++ record.crcField ++ record.data

/-- A record is its checksum, kind, flags and size, and then its body. -/
theorem toBytes_eq_body (record : Record) : record.toBytes = LittleEndian.word16 record.checksum
    ++ ([record.kind.toByte, record.flags] ++ LittleEndian.word16 record.size ++ record.body) := by
  simp only [toBytes, coveredHeader, body, List.append_assoc]

/-- The checksum of the contents is taken over all behind the stored one. -/
theorem computeChecksum_eq_body (record : Record) : record.computeChecksum = truncate16 (crc32c 0
    ([record.kind.toByte, record.flags] ++ LittleEndian.word16 record.size ++ record.body)) := by
  rw [computeChecksum_def, ← crc32c_append]
  simp only [coveredHeader, body, List.append_assoc]

/-- The fields that the flags select are the rest of the header. -/
theorem length_selectedFields (record : Record) :
    (record.sizeField ++ record.crcField).length + 6 = record.headerLength := by
  have h := record.length_coveredHeader
  simp only [coveredHeader, List.length_append, LittleEndian.length_word16, List.length_cons,
    List.length_nil] at h ⊢
  omega

/-- The body comes behind six bytes. -/
theorem length_body (record : Record) : record.body.length + 6 = record.encodedLength := by
  have h := record.length_selectedFields
  rw [body, List.length_append, encodedLength]
  omega

/-- **What is looked at** when a record is read and its checksum is compared: that the size field has
room for the header, that there are as many bytes as it gives, and half the checksum of these. -/
theorem seemsIntact_iff {checksum size : UInt16} {letter flags : UInt8} {body : List UInt8} :
    SeemsIntact (LittleEndian.word16 checksum
        ++ ([letter, flags] ++ LittleEndian.word16 size ++ body)) ↔
      RecordFlags.headerLength flags ≤ size.toNat ∧ size.toNat ≤ 6 + body.length ∧
        truncate16 (crc32c 0
          ([letter, flags] ++ LittleEndian.word16 size ++ body.take (size.toNat - 6))) = checksum := by
  obtain ⟨bytes, hbytes⟩ : ∃ bytes, bytes = LittleEndian.word16 checksum
      ++ ([letter, flags] ++ LittleEndian.word16 size ++ body) := ⟨_, rfl⟩
  have hchecksum : checksumAt bytes = checksum.toNat :=
    hbytes ▸ LittleEndian.decode_word16_eq checksum
  have hflags : flagsAt bytes = flags := by rw [hbytes]; rfl
  have hsize : sizeAt bytes = size.toNat := hbytes ▸ LittleEndian.decode_word16_eq size
  have hlength : bytes.length = 6 + body.length := by
    rw [hbytes]
    simp only [List.length_append, LittleEndian.length_word16, List.length_cons, List.length_nil]
    omega
  have hfixed := RecordFlags.fixedHeaderLength_le_headerLength flags
  rw [RecordFlags.fixedHeaderLength] at hfixed
  -- where the fixed header is there, only the body can be cut
  have hcovered (hroom : RecordFlags.headerLength flags ≤ size.toNat) :
      (bytes.take size.toNat).drop 2
        = [letter, flags] ++ LittleEndian.word16 size ++ body.take (size.toNat - 6) := by
    obtain ⟨length, hsplit⟩ : ∃ length, size.toNat = length + 6 := ⟨size.toNat - 6, by omega⟩
    rw [hsplit, hbytes, Nat.add_sub_cancel]
    rfl
  rw [← hbytes, SeemsIntact]
  constructor
  · rintro ⟨record, hdecode, hvalid⟩
    obtain ⟨-, hheader, hend⟩ := exists_decode_iff.mp ⟨record, hdecode⟩
    rw [hflags, hsize] at hheader
    rw [hsize, hlength] at hend
    have hsame := (isValid_iff_of_decode hdecode).mp hvalid
    rw [hchecksum, hsize, hcovered hheader, UInt16.toNat_inj] at hsame
    exact ⟨hheader, hend, hsame.symm⟩
  · rintro ⟨hheader, hend, hsame⟩
    obtain ⟨record, hdecode⟩ := exists_decode_iff.mpr
      ⟨show 6 ≤ bytes.length by omega, by rwa [hflags, hsize], by rwa [hsize, hlength]⟩
    refine ⟨record, hdecode, (isValid_iff_of_decode hdecode).mpr ?_⟩
    rw [hchecksum, hsize, hcovered hheader, hsame]

/-! ## Flipped bits of a record -/

/-- A record cut short to a size. -/
def cutTo (record : Record) (size : UInt16) : Record :=
  { record with size, data := record.data.take (size.toNat - record.headerLength) }

/-- There is a shorter record with another size, and it has the checksum of the whole one. -/
def IsBlindToSize (record : Record) (size : UInt16) : Prop :=
  record.headerLength ≤ size.toNat ∧ size < record.size ∧
    (record.cutTo size).computeChecksum = record.checksum

instance (record : Record) (size : UInt16) : Decidable (record.IsBlindToSize size) :=
  inferInstanceAs (Decidable (_ ∧ _))

/-- A flipped bit goes unnoticed. The first two bytes are the checksum itself, in which nothing does.
A flipped bit of the size field may give a shorter record with the same checksum, and everything else
is a matter of its distance from the end. -/
def IsBlindTo (record : Record) (position : Nat) : Prop :=
  if position < 16 then False
  else if 32 ≤ position ∧ position < 48 then
    record.IsBlindToSize (record.size ^^^ UInt16.ofNat (2 ^ (position - 32)))
  else 8 * record.encodedLength - position ∈ blindDistances

instance (record : Record) (position : Nat) : Decidable (record.IsBlindTo position) :=
  inferInstanceAs (Decidable (ite _ _ _))

/-- The blind distances are far from the end, so only long records have one. -/
theorem lt_of_mem_blindDistances {distance : Nat} (h : distance ∈ blindDistances) :
    67248 < distance := by
  have hall : ∀ distance ∈ blindDistances, 67248 < distance := by decide
  exact hall distance h

/-- A flipped bit outside of the size field leaves that field where it is. -/
theorem exists_flipBit_covered (letter flags : UInt8) (size : UInt16) (body : List UInt8)
    {position : Nat} (h : position < 16 ∨ 32 ≤ position) : ∃ letter' flags' body',
      flipBit ([letter, flags] ++ LittleEndian.word16 size ++ body) position
        = [letter', flags'] ++ LittleEndian.word16 size ++ body' ∧ body'.length = body.length := by
  rcases h with hbefore | hbehind
  · obtain ⟨letter', flags', hflip⟩ : ∃ letter' flags',
        flipBit [letter, flags] position = [letter', flags'] := by
      rcases Nat.lt_or_ge position 8 with hlt | hge
      · exact ⟨_, _, flipBit_cons_of_lt _ _ hlt⟩
      · obtain ⟨place, rfl⟩ := Nat.exists_eq_add_of_le hge
        rw [flipBit_cons_add, flipBit_cons_of_lt _ _ (by omega)]
        exact ⟨_, _, rfl⟩
    refine ⟨letter', flags', body, ?_, rfl⟩
    rw [List.append_assoc, flipBit_append_of_lt _ hbefore, hflip, List.append_assoc]
  · obtain ⟨inside, rfl⟩ := Nat.exists_eq_add_of_le hbehind
    exact ⟨letter, flags, flipBit body inside,
      flipBit_append_add ([letter, flags] ++ LittleEndian.word16 size) body inside,
      length_flipBit body inside⟩

/-- Cutting a record short cuts its bytes. -/
theorem body_cutTo (record : Record) {size : UInt16} (h : record.headerLength ≤ size.toNat) :
    (record.cutTo size).body = record.body.take (size.toNat - 6) := by
  have hfields := record.length_selectedFields
  have hdata : size.toNat - record.headerLength
      = size.toNat - 6 - (record.sizeField ++ record.crcField).length := by omega
  rw [body, body, List.take_append, List.take_of_length_le (by omega), ← hdata]
  rfl

section Intact

variable {record : Record} (hsize : record.size.toNat = record.encodedLength)
  (hvalid : record.isValid = true)
include hsize hvalid

/-- A flipped bit of the stored checksum. -/
theorem not_seemsIntact_flipBit_checksum {place : Nat} (h : place < 16) :
    ¬ SeemsIntact (flipBit record.toBytes place) := by
  rw [isValid, decide_eq_true_eq, computeChecksum_eq_body] at hvalid
  rw [toBytes_eq_body, flipBit_append_of_lt _ h, flipBit_word16 _ h, seemsIntact_iff,
    List.take_of_length_le (by have := record.length_body; omega), ← hvalid]
  rintro ⟨-, -, hsame⟩
  exact xor_two_pow_ne _ h hsame.symm

omit hvalid in
/-- A flipped bit of the size field. -/
theorem seemsIntact_flipBit_size {place : Nat} (h : place < 16) :
    SeemsIntact (flipBit record.toBytes (32 + place)) ↔
      record.IsBlindToSize (record.size ^^^ UInt16.ofNat (2 ^ place)) := by
  have hposition : 32 + place = 8 * (LittleEndian.word16 record.checksum).length
      + (8 * [record.kind.toByte, record.flags].length + place) := by
    simp only [LittleEndian.length_word16, List.length_cons, List.length_nil]
    omega
  have hbody := record.length_body
  rw [toBytes_eq_body, hposition, flipBit_append_add, List.append_assoc, flipBit_append_add,
    flipBit_append_of_lt _ h, flipBit_word16 _ h, ← List.append_assoc [_, _], seemsIntact_iff]
  have hne := xor_two_pow_ne record.size h
  generalize record.size ^^^ UInt16.ofNat (2 ^ place) = size at hne ⊢
  refine and_congr_right fun hheader => and_congr ?_ ?_
  · -- a longer record is not there, and the size has changed
    rw [UInt16.lt_iff_toNat_lt]
    have hne' : size.toNat ≠ record.size.toNat := fun h => hne (UInt16.toNat_inj.mp h)
    omega
  · rw [computeChecksum_eq_body, body_cutTo record hheader]
    rfl

/-- A flipped bit of another field or of the data. -/
theorem seemsIntact_flipBit_other {position : Nat} (hposition : position < 8 * record.encodedLength)
    (h : 16 ≤ position ∧ position < 32 ∨ 48 ≤ position) :
    SeemsIntact (flipBit record.toBytes position) ↔
      8 * record.encodedLength - position ∈ blindDistances := by
  obtain ⟨inside, rfl⟩ : ∃ inside,
      position = 8 * (LittleEndian.word16 record.checksum).length + inside :=
    Nat.exists_eq_add_of_le (by rw [LittleEndian.length_word16]; omega)
  rw [LittleEndian.length_word16] at hposition h
  have hbody := record.length_body
  have hlength : ([record.kind.toByte, record.flags] ++ LittleEndian.word16 record.size
      ++ record.body).length + 2 = record.encodedLength := by
    simp only [List.length_append, LittleEndian.length_word16, List.length_cons, List.length_nil]
    omega
  obtain ⟨letter, flags, flippedBody, hflip, hsame⟩ := exists_flipBit_covered
    record.kind.toByte record.flags record.size record.body (show inside < 16 ∨ 32 ≤ inside by omega)
  have hdistance : 8 * ([record.kind.toByte, record.flags] ++ LittleEndian.word16 record.size
      ++ record.body).length - inside
        = 8 * record.encodedLength - (8 * (LittleEndian.word16 record.checksum).length + inside) := by
    rw [LittleEndian.length_word16]
    omega
  have hlimit := record.size.toNat_lt
  rw [isValid, decide_eq_true_eq, computeChecksum_eq_body] at hvalid
  rw [toBytes_eq_body, flipBit_append_add, hflip, seemsIntact_iff,
    List.take_of_length_le (by omega), ← hflip, crc32c_flipBit 0 (by omega), truncate16_xor,
    ← hvalid, xor_eq_left_iff, hdistance, truncate16_iterate_iff (by omega)]
  constructor
  · exact fun h => h.2.2
  · -- a record with a blind distance is long enough for any header
    intro hblind
    have hfar := lt_of_mem_blindDistances hblind
    have hheader := RecordFlags.headerLength_le flags
    exact ⟨by omega, by omega, hblind⟩

/-- **A flipped bit goes unnoticed** exactly where the record is blind to it. -/
theorem seemsIntact_flipBit {position : Nat} (h : position < 8 * record.encodedLength) :
    SeemsIntact (flipBit record.toBytes position) ↔ record.IsBlindTo position := by
  unfold IsBlindTo
  split
  next hchecksum => exact iff_false_intro (not_seemsIntact_flipBit_checksum hsize hvalid hchecksum)
  next hchecksum =>
  split
  next hfield =>
    obtain ⟨place, rfl⟩ := Nat.exists_eq_add_of_le hfield.1
    rw [Nat.add_sub_cancel_left]
    exact seemsIntact_flipBit_size hsize (by omega)
  next hfield => exact seemsIntact_flipBit_other hsize hvalid h (by omega)

end Intact

/-- **Every flipped bit of a fixed record is noticed**, but where the record is blind to it: a record
that can be fixed can be written, and of what was written with one bit flipped, reading refuses the
bytes or gives a record whose checksum is not that of its contents. -/
theorem isNoticed_flipBit_fixed {record fixed : Record} (h : record.fix = .ok fixed) :
    ∃ bytes, fixed.encode? = .ok bytes ∧ ∀ position, position < 8 * bytes.length →
      (IsNoticed (flipBit bytes position) ↔ ¬ fixed.IsBlindTo position) := by
  obtain ⟨hfits, rfl⟩ := fix_eq_ok.mp h
  refine ⟨_, encode?_eq_ok.mpr ⟨hfits.size_fixed, rfl⟩, fun position hposition => ?_⟩
  rw [length_toBytes] at hposition
  rw [isNoticed_iff, seemsIntact_flipBit hfits.size_fixed (isValid_fixed record) hposition]

/-- The header of an entry with fifteen bytes of payload behind it. -/
def entryStart : Record :=
  { kind := .fileHeader, flags := 0xE0, addedSize := 15, addedCrc := 0x5A696CE4,
    data := [0x68, 0x65, 0x6C, 0x6C, 0x6F] }

/-- There every flipped bit is noticed. -/
theorem isNoticed_flipBit_fixed_entryStart : entryStart.fix = .ok entryStart.fixed ∧
    ∃ bytes, entryStart.fixed.encode? = .ok bytes ∧
      ∀ position, position < 8 * bytes.length → IsNoticed (flipBit bytes position) := by
  have hfix : entryStart.fix = .ok entryStart.fixed := rfl
  obtain ⟨bytes, hencode, hall⟩ := isNoticed_flipBit_fixed hfix
  refine ⟨hfix, bytes, hencode, fun position hposition => (hall position hposition).mpr ?_⟩
  have hlength : 8 * bytes.length = 184 := by
    rw [← (encode?_eq_ok.mp hencode).2, length_toBytes]
    rfl
  have hseeing : ∀ position < 184, ¬ entryStart.fixed.IsBlindTo position := by decide +kernel
  exact hseeing position (hlength ▸ hposition)

/-- A fragment whose size field is blind to its lowest bit. -/
theorem flipBit_unnoticed :
    fix { kind := .dataFragment, flags := 1, data := [0x63, 0x63, 0x63] }
        = .ok { checksum := 0xF155, kind := .dataFragment, flags := 1, size := 9,
                data := [0x63, 0x63, 0x63] } ∧
      encode? { checksum := 0xF155, kind := .dataFragment, flags := 1, size := 9,
                data := [0x63, 0x63, 0x63] }
        = .ok [0x55, 0xF1, 0x44, 0x01, 0x09, 0x00, 0x63, 0x63, 0x63] ∧
      ¬ IsNoticed (flipBit [0x55, 0xF1, 0x44, 0x01, 0x09, 0x00, 0x63, 0x63, 0x63] 32) := by
  refine ⟨by cbv, by cbv, fun hnoticed => isNoticed_iff.mp hnoticed ?_⟩
  exact ⟨{ checksum := 0xF155, kind := .dataFragment, flags := 1, size := 8, data := [0x63, 0x63] },
    by cbv, by cbv⟩

end Record

end RecordArchive
