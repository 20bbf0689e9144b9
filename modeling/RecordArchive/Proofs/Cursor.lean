import Mathlib.Algebra.Group.Nat.Defs
import RecordArchive.Proofs.Buffer

/-! # Rows of accesses to a buffer

Fields are written into a buffer one after another, and read from it again. A field that does not fit
is refused, and the row goes on with the next one from the same place. `Cursor.Access` is one access,
with the cursors in front of it and behind it.

* `Cursor.Access.IsBounded`: an access is served if and only if its span fits, and otherwise it names
  that span and leaves the cursor alone. Machine words in which sums overflow decide the same
  (`Cursor.wordSpan?`).
* `Cursor.isBounded_writes`, `Cursor.isBounded_reads`: every access of a row is bounded.
* `Cursor.getElem?_written`: no byte changes outside the spans of the served fields.
* `Cursor.value?_reads_written`: the served fields are read back in order.
* `Cursor.accesses_lawful`: **the laws of both cursors**, for all rows of accesses. -/

namespace RecordArchive.Cursor

open Program

variable {ρ σ α : Type}

/-! ## Fields -/

/-- What a field looks like: a word, or a number of bytes. -/
inductive Shape where
  | word8
  | word16
  | word32
  | word64
  | bytes (count : Nat)
  deriving DecidableEq, Repr

/-- A field with its value. -/
inductive Field where
  | word8 (value : UInt8)
  | word16 (value : UInt16)
  | word32 (value : UInt32)
  | word64 (value : UInt64)
  | bytes (content : List UInt8)
  deriving DecidableEq, Repr

namespace Shape

/-- The number of bytes that a field of this shape takes. -/
def width : Shape → Nat
  | word8 => 1
  | word16 => 2
  | word32 => 4
  | word64 => 8
  | bytes count => count

/-- Takes a field of this shape. -/
def read : Shape → EStateM OutOfBounds Reader Field
  | word8 => .word8 <$> Reader.readWord8
  | word16 => .word16 <$> Reader.readWord16
  | word32 => .word32 <$> Reader.readWord32
  | word64 => .word64 <$> Reader.readWord64
  | bytes count => .bytes <$> Reader.readBytes count

/-- The field that some bytes stand for. -/
def decode : Shape → List UInt8 → Field
  | word8, content => .word8 (.ofNat (LittleEndian.decode content))
  | word16, content => .word16 (.ofNat (LittleEndian.decode content))
  | word32, content => .word32 (.ofNat (LittleEndian.decode content))
  | word64, content => .word64 (.ofNat (LittleEndian.decode content))
  | bytes _, content => .bytes content

/-- Every field is taken as the span of its bytes. -/
theorem read_eq (shape : Shape) : shape.read = shape.decode <$> Reader.readBytes shape.width := by
  cases shape with
  | bytes count => rfl
  | _ =>
    simp only [read, Reader.readWord8, Reader.readWord16, Reader.readWord32, Reader.readWord64,
      Reader.readNumber, Functor.map_map]
    rfl

end Shape

namespace Field

/-- The shape of a field. -/
def shape : Field → Shape
  | word8 _ => .word8
  | word16 _ => .word16
  | word32 _ => .word32
  | word64 _ => .word64
  | bytes content => .bytes content.length

/-- The number of bytes that a field takes. -/
def width (field : Field) : Nat := field.shape.width

/-- Puts a field down. -/
def write : Field → EStateM OutOfBounds Writer Unit
  | word8 value => Writer.writeWord8 value
  | word16 value => Writer.writeWord16 value
  | word32 value => Writer.writeWord32 value
  | word64 value => Writer.writeWord64 value
  | bytes content => Writer.writeBytes content

/-- The bytes of a field. -/
def toBytes : Field → List UInt8
  | word8 value => [value]
  | word16 value => LittleEndian.word16 value
  | word32 value => LittleEndian.word32 value
  | word64 value => LittleEndian.word64 value
  | bytes content => content

/-- A field takes as many bytes as its width says. -/
@[simp] theorem length_toBytes (field : Field) : field.toBytes.length = field.width := by
  cases field <;> rfl

/-- Every field is put down as its bytes. -/
theorem write_eq (field : Field) : field.write = Writer.writeBytes field.toBytes := by
  cases field <;> rfl

/-- A field is what its bytes stand for. -/
theorem decode_toBytes (field : Field) : field.shape.decode field.toBytes = field := by
  cases field with
  | word8 value => exact congrArg word8 (by simp [toBytes])
  | word16 value => exact congrArg word16 (LittleEndian.decode_word16 value)
  | word32 value => exact congrArg word32 (LittleEndian.decode_word32 value)
  | word64 value => exact congrArg word64 (LittleEndian.decode_word64 value)
  | bytes content => rfl

end Field

/-! ## Spans in machine words -/

/-- The end of a span in machine words: the sum, unless it overflows or is beyond the buffer. -/
def wordSpan? {bits : Nat} (position wanted length : BitVec bits) : Option (BitVec bits) :=
  (if position.uaddOverflow wanted then none else some (position + wanted)).filter (· ≤ length)

/-- Machine words that hold place, width and length decide as these do. -/
theorem map_toNat_wordSpan? {bits position wanted length : Nat} (hposition : position < 2 ^ bits)
    (hwanted : wanted < 2 ^ bits) (hlength : length < 2 ^ bits) :
    (wordSpan? (.ofNat bits position) (.ofNat bits wanted) (.ofNat bits length)).map BitVec.toNat
      = if position + wanted ≤ length then some (position + wanted) else none := by
  have hnat {number : Nat} (h : number < 2 ^ bits) : (BitVec.ofNat bits number).toNat = number := by
    rw [BitVec.toNat_ofNat, Nat.mod_eq_of_lt h]
  rw [wordSpan?, BitVec.uaddOverflow, hnat hposition, hnat hwanted]
  by_cases hoverflow : 2 ^ bits ≤ position + wanted
  · -- a sum that overflows is beyond every buffer
    rw [if_pos (decide_eq_true hoverflow), if_neg (by omega)]
    rfl
  · have hsum : (BitVec.ofNat bits position + BitVec.ofNat bits wanted).toNat = position + wanted := by
      rw [BitVec.toNat_add, hnat hposition, hnat hwanted, Nat.mod_eq_of_lt (by omega)]
    rw [if_neg (by simpa using hoverflow), Option.filter_some]
    by_cases hfits : position + wanted ≤ length
    · rw [if_pos (by simpa [BitVec.le_def, hsum, hnat hlength] using hfits), if_pos hfits]
      exact congrArg some hsum
    · rw [if_neg (by simpa [BitVec.le_def, hsum, hnat hlength] using hfits), if_neg hfits]
      rfl

/-! ## Accesses -/

/-- An access: what was asked of which cursor, and what came of it. -/
structure Access (ρ σ α : Type) where
  request : ρ
  start : σ
  result : EStateM.Result OutOfBounds σ α

namespace Access

/-- The access that asks a cursor for something. -/
def of (serve : ρ → EStateM OutOfBounds σ α) (request : ρ) (start : σ) : Access ρ σ α :=
  ⟨request, start, serve request start⟩

/-- The cursor behind an access, whether that is served or refused. -/
def final (access : Access ρ σ α) : σ :=
  match access.result with
  | .ok _ final => final
  | .error _ final => final

/-- What an access gives if it is served. -/
def value? (access : Access ρ σ α) : Option α :=
  match access.result with
  | .ok value _ => some value
  | .error _ _ => none

/-- Whether an access is served. -/
def isServed (access : Access ρ σ α) : Bool := access.value?.isSome

/-- The cursor behind an access that is served. -/
theorem final_of_ok {access : Access ρ σ α} {value : α} {final : σ}
    (h : access.result = .ok value final) : access.final = final := by
  rw [Access.final, h]

/-- The cursor behind an access that is refused. -/
theorem final_of_error {access : Access ρ σ α} {fault : OutOfBounds} {final : σ}
    (h : access.result = .error fault final) : access.final = final := by
  rw [Access.final, h]

/-- An access that is served gives its value. -/
theorem value?_of_ok {access : Access ρ σ α} {value : α} {final : σ}
    (h : access.result = .ok value final) : access.value? = some value := by
  rw [value?, h]

/-- A success is served. -/
theorem isServed_of_ok {access : Access ρ σ α} {value : α} {final : σ}
    (h : access.result = .ok value final) : access.isServed = true := by
  rw [isServed, value?_of_ok h, Option.isSome_some]

/-- A failure is not served. -/
theorem not_isServed_of_error {access : Access ρ σ α} {fault : OutOfBounds} {final : σ}
    (h : access.result = .error fault final) : ¬ access.isServed = true := by
  rw [isServed, value?, h]
  exact Bool.false_ne_true

/-- **An access is bounded** by the length of the buffer, where cursors have positions and requests
have widths. -/
structure IsBounded (position : σ → Nat) (width : ρ → Nat) (length : Nat) (access : Access ρ σ α) :
    Prop where
  /-- It is served if and only if its span fits. -/
  isServed_iff : access.isServed = true ↔ position access.start + width access.request ≤ length
  /-- If it is served, the cursor moves behind its span. -/
  moved : access.isServed = true →
    position access.final = position access.start + width access.request
  /-- If it is refused, the fault names its span, and the cursor stays as it was. -/
  refused : ∀ fault final, access.result = .error fault final →
    final = access.start ∧ fault = ⟨position access.start, width access.request, length⟩
  /-- It neither starts nor ends behind the buffer. -/
  within : position access.start ≤ length ∧ position access.final ≤ length
  /-- Machine words of any size that hold the width and the length find the same end, if there is one. -/
  words : ∀ bits, length < 2 ^ bits → width access.request < 2 ^ bits →
    (wordSpan? (.ofNat bits (position access.start)) (.ofNat bits (width access.request))
        (.ofNat bits length)).map BitVec.toNat
      = if access.isServed then some (position access.final) else none

/-- An access is bounded if it moves the cursor behind a span that fits, and names one that does not. -/
theorem IsBounded.of_result {position : σ → Nat} {width : ρ → Nat} {length : Nat}
    {access : Access ρ σ α} (hstart : position access.start ≤ length)
    (hfits : position access.start + width access.request ≤ length → ∃ value final,
      access.result = .ok value final ∧
        position final = position access.start + width access.request)
    (hexceeds : ¬ position access.start + width access.request ≤ length →
      access.result = .error ⟨position access.start, width access.request, length⟩ access.start) :
    access.IsBounded position width length := by
  have hwords (bits : Nat) (hlength : length < 2 ^ bits)
      (hwidth : width access.request < 2 ^ bits) := map_toNat_wordSpan?
    (Nat.lt_of_le_of_lt hstart hlength) hwidth hlength
  by_cases h : position access.start + width access.request ≤ length
  · obtain ⟨value, final, hresult, hmoved⟩ := hfits h
    have hserved := isServed_of_ok hresult
    rw [← final_of_ok hresult] at hmoved
    exact {
      isServed_iff := iff_of_true hserved h
      moved := fun _ => hmoved
      refused := fun fault final herror => nomatch hresult.symm.trans herror
      within := ⟨hstart, hmoved ▸ h⟩
      words := fun bits hlength hwidth => by
        rw [hwords bits hlength hwidth, if_pos h, if_pos hserved, hmoved] }
  · have hresult := hexceeds h
    have hserved := not_isServed_of_error hresult
    exact {
      isServed_iff := iff_of_false hserved h
      moved := fun hyes => absurd hyes hserved
      refused := fun fault final herror => by
        cases hresult.symm.trans herror
        exact ⟨rfl, rfl⟩
      within := ⟨hstart, (final_of_error hresult).symm ▸ hstart⟩
      words := fun bits hlength hwidth => by
        rw [hwords bits hlength hwidth, if_neg h, if_neg hserved] }

end Access

/-- The accesses of a row of requests. A refused one does not end the row. -/
def accesses (serve : ρ → EStateM OutOfBounds σ α) : List ρ → σ → List (Access ρ σ α)
  | [], _ => []
  | request :: rest, start =>
    .of serve request start :: accesses serve rest (Access.of serve request start).final

/-- The cursor behind a row of requests. -/
def afterAll (serve : ρ → EStateM OutOfBounds σ α) : List ρ → σ → σ
  | [], start => start
  | request :: rest, start => afterAll serve rest (Access.of serve request start).final

/-- The requests that were served, in order. -/
def served (accesses : List (Access ρ σ α)) : List ρ :=
  (accesses.filter Access.isServed).map Access.request

/-- An access that is served counts. -/
theorem served_cons_of_ok {access : Access ρ σ α} {value : α} {final : σ}
    (h : access.result = .ok value final) (rest : List (Access ρ σ α)) :
    served (access :: rest) = access.request :: served rest := by
  rw [served, List.filter_cons_of_pos (Access.isServed_of_ok h)]
  rfl

/-- An access that is refused does not count. -/
theorem served_cons_of_error {access : Access ρ σ α} {fault : OutOfBounds} {final : σ}
    (h : access.result = .error fault final) (rest : List (Access ρ σ α)) :
    served (access :: rest) = served rest := by
  rw [served, List.filter_cons_of_neg (Access.not_isServed_of_error h)]
  rfl

/-- What every access from a sound cursor fulfils and leaves sound holds of every access of a row. -/
theorem forall_accesses {serve : ρ → EStateM OutOfBounds σ α} {good : Access ρ σ α → Prop}
    (sound : σ → Prop) (hstep : ∀ request start, sound start →
      good (.of serve request start) ∧ sound (Access.of serve request start).final)
    (requests : List ρ) {start : σ} (hstart : sound start) :
    ∀ access ∈ accesses serve requests start, good access := by
  induction requests generalizing start with
  | nil => exact fun _ hmem => absurd hmem List.not_mem_nil
  | cons request rest ih =>
    obtain ⟨hgood, hsound⟩ := hstep request start hstart
    exact List.forall_mem_cons.mpr ⟨hgood, ih hsound⟩

/-! ## Writing -/

namespace Field

variable (field : Field) {writer : Writer}

/-- A field that fits replaces as many bytes behind the position. -/
theorem write_ok (h : writer.position + field.width ≤ writer.bytes.length) :
    field.write writer = .ok ()
      { bytes := writer.bytes.take writer.position ++ field.toBytes
                  ++ writer.bytes.drop (writer.position + field.width)
        position := writer.position + field.width } := by
  rw [write_eq, Writer.writeBytes_ok (by rwa [length_toBytes]), length_toBytes]

/-- A field without room is refused, and the error tells the place, the width and the length. -/
theorem write_error (h : ¬ writer.position + field.width ≤ writer.bytes.length) :
    field.write writer = .error ⟨writer.position, field.width, writer.bytes.length⟩ writer := by
  rw [write_eq, Writer.writeBytes_error (by rwa [length_toBytes]), length_toBytes]

/-- Writing a field keeps the length of the buffer. -/
theorem length_bytes_final_write (h : writer.position ≤ writer.bytes.length) :
    (Access.of write field writer).final.bytes.length = writer.bytes.length := by
  by_cases hfits : writer.position + field.width ≤ writer.bytes.length
  · rw [Access.final_of_ok (field.write_ok hfits)]
    simp only [List.length_append, List.length_take, List.length_drop, length_toBytes]
    omega
  · rw [Access.final_of_error (field.write_error hfits)]

/-- Writing a field is bounded. -/
theorem isBounded_write (h : writer.position ≤ writer.bytes.length) :
    (Access.of write field writer).IsBounded Writer.position width writer.bytes.length :=
  .of_result h (fun hfits => ⟨(), _, field.write_ok hfits, rfl⟩) field.write_error

/-- No byte changes outside the span of a field. -/
theorem getElem?_bytes_final_write {place : Nat} (h : writer.position ≤ writer.bytes.length)
    (houtside : (Access.of write field writer).isServed = true →
      place < writer.position ∨ writer.position + field.width ≤ place) :
    (Access.of write field writer).final.bytes[place]? = writer.bytes[place]? := by
  by_cases hfits : writer.position + field.width ≤ writer.bytes.length
  · -- the bytes behind are as many as before, so the ones behind the span keep their places
    rw [Access.final_of_ok (field.write_ok hfits)]
    have hfront : (writer.bytes.take writer.position).length = writer.position :=
      List.length_take_of_le h
    rcases houtside (Access.isServed_of_ok (field.write_ok hfits)) with hbefore | hbehind
    · rw [List.append_assoc, List.getElem?_append_left (by rwa [hfront]),
        List.getElem?_take_of_lt hbefore]
    · have hlength : (writer.bytes.take writer.position ++ field.toBytes).length
          = writer.position + field.width := by rw [List.length_append, hfront, length_toBytes]
      rw [List.getElem?_append_right (by rwa [hlength]), hlength, List.getElem?_drop,
        Nat.add_sub_cancel' hbehind]
  · rw [Access.final_of_error (field.write_error hfits)]

end Field

/-- Fields are written into a buffer one after another, from its front. -/
def writes (buffer : List UInt8) (fields : List Field) : List (Access Field Writer Unit) :=
  accesses Field.write fields { bytes := buffer }

/-- The buffer after fields were written into it. -/
def written (buffer : List UInt8) (fields : List Field) : List UInt8 :=
  (afterAll Field.write fields { bytes := buffer }).bytes

/-- Every field that is written is bounded by the buffer. -/
theorem isBounded_writes (buffer : List UInt8) (fields : List Field) :
    ∀ write ∈ writes buffer fields, write.IsBounded Writer.position Field.width buffer.length := by
  -- writing keeps the length of the buffer, so its first length bounds every field of the row
  refine forall_accesses (fun writer : Writer =>
    writer.position ≤ buffer.length ∧ writer.bytes.length = buffer.length) ?_ fields
    ⟨Nat.zero_le _, rfl⟩
  rintro field writer ⟨hposition, hlength⟩
  rw [← hlength] at hposition ⊢
  have hbounded := field.isBounded_write hposition
  exact ⟨hbounded, hbounded.within.2, field.length_bytes_final_write hposition⟩

/-- Outside the spans of the fields that are served no byte changes, wherever the row starts. -/
theorem getElem?_bytes_afterAll_write {place : Nat} (fields : List Field) {writer : Writer}
    (h : writer.position ≤ writer.bytes.length)
    (houtside : ∀ write ∈ accesses Field.write fields writer, write.isServed = true →
      place < write.start.position ∨ write.start.position + write.request.width ≤ place) :
    (afterAll Field.write fields writer).bytes[place]? = writer.bytes[place]? := by
  induction fields generalizing writer with
  | nil => rfl
  | cons field rest ih =>
    obtain ⟨hfirst, hrest⟩ := List.forall_mem_cons.mp houtside
    -- the rest of the row starts inside the buffer again
    have hfinal := (field.isBounded_write h).within.2
    rw [← field.length_bytes_final_write h] at hfinal
    exact (ih hfinal hrest).trans (field.getElem?_bytes_final_write h hfirst)

/-- No byte changes outside the spans of the fields that are served. -/
theorem getElem?_written {buffer : List UInt8} {fields : List Field} {place : Nat}
    (houtside : ∀ write ∈ writes buffer fields, write.isServed = true →
      place < write.start.position ∨ write.start.position + write.request.width ≤ place) :
    (written buffer fields)[place]? = buffer[place]? :=
  getElem?_bytes_afterAll_write fields (Nat.zero_le _) houtside

/-! ## Reading -/

namespace Shape

variable (shape : Shape) {reader : Reader}

/-- A span that fits is what the field is read from. -/
theorem read_ok (h : reader.position + shape.width ≤ reader.bytes.length) :
    shape.read reader = .ok
      (shape.decode ((reader.bytes.drop reader.position).take shape.width))
      { reader with position := reader.position + shape.width } := by
  rw [read_eq]
  exact map_eq_ok.mpr ⟨_, Reader.readBytes_ok h, rfl⟩

/-- A field beyond the end is refused, and the error tells the place, the width and the length. -/
theorem read_error (h : ¬ reader.position + shape.width ≤ reader.bytes.length) :
    shape.read reader
      = .error ⟨reader.position, shape.width, reader.bytes.length⟩ reader := by
  rw [read_eq]
  exact bind_of_error (Reader.readBytes_error h)

/-- Reading a field is bounded. -/
theorem isBounded_read (h : reader.position ≤ reader.bytes.length) :
    (Access.of read shape reader).IsBounded Reader.position width reader.bytes.length :=
  .of_result h (fun hfits => ⟨_, _, shape.read_ok hfits, rfl⟩) shape.read_error

/-- Reading a field keeps the buffer. -/
theorem bytes_final_read : (Access.of read shape reader).final.bytes = reader.bytes := by
  by_cases hfits : reader.position + shape.width ≤ reader.bytes.length
  · rw [Access.final_of_ok (shape.read_ok hfits)]
  · rw [Access.final_of_error (shape.read_error hfits)]

end Shape

/-- Fields are read from a buffer one after another, from its front. -/
def reads (buffer : List UInt8) (shapes : List Shape) : List (Access Shape Reader Field) :=
  accesses Shape.read shapes { bytes := buffer }

/-- Every field that is read is bounded by the buffer, and what remains is the rest of it. -/
theorem isBounded_reads (buffer : List UInt8) (shapes : List Shape) :
    ∀ read ∈ reads buffer shapes, read.IsBounded Reader.position Shape.width buffer.length ∧
      read.start.position + read.start.remaining = buffer.length ∧
      read.final.position + read.final.remaining = buffer.length := by
  refine forall_accesses (fun reader : Reader =>
    reader.position ≤ buffer.length ∧ reader.bytes = buffer) ?_ shapes ⟨Nat.zero_le _, rfl⟩
  rintro shape reader ⟨hposition, rfl⟩
  have hbounded := shape.isBounded_read hposition
  have hfinal := hbounded.within.2
  have hbytes : (Access.of Shape.read shape reader).final.bytes = reader.bytes :=
    shape.bytes_final_read
  refine ⟨⟨hbounded, Nat.add_sub_cancel' hposition, ?_⟩, hfinal, hbytes⟩
  rw [Reader.remaining, hbytes, Nat.add_sub_cancel' hfinal]

/-! ## Reading back -/

/-- A field is written over what comes next. -/
theorem Field.write_between (field : Field) (front : List UInt8) {rest : List UInt8}
    (h : field.width ≤ rest.length) : field.write (.between front rest)
      = .ok () (.between (front ++ field.toBytes) (rest.drop field.width)) := by
  rw [← length_toBytes] at h ⊢
  rw [write_eq, Writer.writeBytes_between front h]

/-- A field that does not fit what is left is refused. -/
theorem Field.write_between_error (field : Field) (front : List UInt8) {rest : List UInt8}
    (h : ¬ field.width ≤ rest.length) : field.write (.between front rest)
      = .error ⟨front.length, field.width, (front ++ rest).length⟩ (.between front rest) :=
  field.write_error (by simpa [Writer.between] using h)

/-- **Behind a row of writes** stand the bytes of the served fields, in order and without gaps. -/
theorem exists_afterAll_write (fields : List Field) (front rest : List UInt8) : ∃ more,
    afterAll Field.write fields (.between front rest)
      = .between (front ++ (served (accesses Field.write fields (.between front rest))).flatMap
          Field.toBytes) more := by
  induction fields generalizing front rest with
  | nil => exact ⟨rest, congrArg (Writer.between · rest) (List.append_nil front).symm⟩
  | cons field later ih =>
    rw [afterAll, accesses]
    by_cases hfits : field.width ≤ rest.length
    · -- what is in front of the next field grows by this one
      have hwrite := field.write_between front hfits
      rw [Access.final_of_ok hwrite, served_cons_of_ok hwrite, List.flatMap_cons, ← List.append_assoc]
      exact ih _ _
    · have hwrite := field.write_between_error front hfits
      rw [Access.final_of_error hwrite, served_cons_of_error hwrite]
      exact ih _ _

/-- A field is read from its bytes. -/
theorem Field.read_between (field : Field) (front more : List UInt8) :
    field.shape.read (.between front (field.toBytes ++ more))
      = .ok field (.between (front ++ field.toBytes) more) := by
  rw [Shape.read_eq]
  exact map_eq_ok.mpr ⟨field.toBytes,
    Reader.readBytes_eq_ok.mpr ⟨field.length_toBytes, more, rfl, rfl⟩, field.decode_toBytes⟩

/-- Fields that stand in a row are read one after another. -/
theorem value?_accesses_read (fields : List Field) (front more : List UInt8) :
    (accesses Shape.read (fields.map Field.shape)
      (.between front (fields.flatMap Field.toBytes ++ more))).map Access.value?
        = fields.map some := by
  induction fields generalizing front with
  | nil => rfl
  | cons field later ih =>
    have hread := field.read_between front (later.flatMap Field.toBytes ++ more)
    rw [List.flatMap_cons, List.append_assoc, List.map_cons, accesses, List.map_cons,
      Access.value?_of_ok hread, Access.final_of_ok hread, ih, List.map_cons]

/-- The fields that were served are read back in order. -/
theorem value?_reads_written (buffer : List UInt8) (fields : List Field) :
    (reads (written buffer fields) ((served (writes buffer fields)).map Field.shape)).map Access.value?
      = (served (writes buffer fields)).map some := by
  obtain ⟨more, hmore⟩ := exists_afterAll_write fields [] buffer
  have hwritten : written buffer fields
      = (served (writes buffer fields)).flatMap Field.toBytes ++ more := congrArg Writer.bytes hmore
  rw [hwritten]
  exact value?_accesses_read _ [] more

/-- **The laws of cursors.** In every row of fields that are written into a buffer, and in every row of
fields that are read from one, an access is served if and only if its span fits, and a refused one
names that span and changes nothing. Outside the spans of the served fields the buffer stays as it was,
and these fields are read back from it in order. A reader is never behind its buffer. -/
theorem accesses_lawful (buffer : List UInt8) (fields : List Field) (shapes : List Shape) :
    (∀ write ∈ writes buffer fields, write.IsBounded Writer.position Field.width buffer.length) ∧
    (∀ place, (∀ write ∈ writes buffer fields, write.isServed = true →
        place < write.start.position ∨ write.start.position + write.request.width ≤ place) →
      (written buffer fields)[place]? = buffer[place]?) ∧
    (reads (written buffer fields) ((served (writes buffer fields)).map Field.shape)).map
        Access.value? = (served (writes buffer fields)).map some ∧
    ∀ read ∈ reads buffer shapes, read.IsBounded Reader.position Shape.width buffer.length ∧
      read.start.position + read.start.remaining = buffer.length ∧
      read.final.position + read.final.remaining = buffer.length :=
  ⟨isBounded_writes buffer fields, fun _ => getElem?_written, value?_reads_written buffer fields,
    isBounded_reads buffer shapes⟩

/-- Fields of which the second, the fourth and the last one do not fit eight bytes. -/
def crampedFields : List Field :=
  [.word8 0x41, .word64 5, .word16 8, .bytes [1, 2, 3, 4, 5, 6], .bytes [], .word32 0xDEADBEEF,
    .bytes [7, 7]]

/-- Of three requests the second one is for as many bytes as a 64-bit word can name. -/
def hugeShapes : List Shape := [.word8, .bytes (2 ^ 64 - 1), .word32]

/-- Of several fields one has no room. It is refused and changes nothing, the others are written
around it, and all that was written is read back. -/
theorem accesses_lawful_cramped :
    served (writes (.replicate 8 0xFF) crampedFields)
      = [.word8 0x41, .word16 8, .bytes [], .word32 0xDEADBEEF] ∧
    (∃ write ∈ writes (.replicate 8 0xFF) crampedFields, write.request = .bytes [1, 2, 3, 4, 5, 6] ∧
      ∃ fault final, write.result = .error fault final ∧ final = write.start ∧ fault = ⟨3, 6, 8⟩) ∧
    (written (.replicate 8 0xFF) crampedFields)[7]? = some 0xFF ∧
    (reads (written (.replicate 8 0xFF) crampedFields) [.word8, .word16, .bytes 0, .word32]).map
        Access.value? = [some (.word8 0x41), some (.word16 8), some (.bytes []),
          some (.word32 0xDEADBEEF)] ∧
    ∃ read ∈ reads (.replicate 8 0xFF) hugeShapes, read.request = .bytes (2 ^ 64 - 1) ∧
      ¬ read.isServed = true ∧ read.final.position + read.final.remaining = 8 ∧
      (wordSpan? (.ofNat 64 1) (.ofNat 64 (2 ^ 64 - 1)) (.ofNat 64 8)).map BitVec.toNat = none := by
  obtain ⟨hwrites, hframe, hback, hreads⟩ :=
    accesses_lawful (.replicate 8 0xFF) crampedFields hugeShapes
  have hserved : served (writes (.replicate 8 0xFF) crampedFields)
      = [.word8 0x41, .word16 8, .bytes [], .word32 0xDEADBEEF] := by decide
  rw [hserved] at hback
  refine ⟨hserved, ?refused, hframe 7 (by decide), hback, ?huge⟩
  case refused =>
    have hbounded := hwrites _ (.tail _ (.tail _ (.tail _ (.head _))))
    exact ⟨_, .tail _ (.tail _ (.tail _ (.head _))), rfl, _, _, rfl, hbounded.refused _ _ rfl⟩
  case huge =>
    obtain ⟨hbounded, -, hremaining⟩ := hreads _ (.tail _ (.head _))
    have hrefused := mt hbounded.isServed_iff.mp (by decide)
    exact ⟨_, .tail _ (.head _), rfl, hrefused, hremaining,
      (hbounded.words 64 (by decide) (by decide)).trans (if_neg hrefused)⟩

end RecordArchive.Cursor
