import RecordArchive.Stream.Basic

/-! # Streams in memory

A byte string with a position. Reading at or behind the end gives nothing; writing replaces what is
there, extends the bytes, and fills a gap up to the position with zeros. Nothing ever fails, and a
transfer is never short while there is something to move. -/

namespace RecordArchive

/-- A byte string with a position. -/
structure MemoryStream where
  bytes : Array UInt8 := #[]
  position : Nat := 0
  deriving DecidableEq, Repr

namespace MemoryStream

/-- The stream over a list of bytes, at its start. -/
def ofList (bytes : List UInt8) : MemoryStream := { bytes := bytes.toArray }

/-- The bytes as a list. -/
def toList (stream : MemoryStream) : List UInt8 := stream.bytes.toList

/-- The bytes from the position on. -/
def rest (stream : MemoryStream) : List UInt8 := stream.toList.drop stream.position

/-- Takes at most `count` bytes. -/
def read (count : Nat) (stream : MemoryStream) : List UInt8 × MemoryStream :=
  let bytes := (stream.bytes.extract stream.position (stream.position + count)).toList
  (bytes, { stream with position := stream.position + bytes.length })

/-- A read gives the front of the rest. -/
theorem read_fst (count : Nat) (stream : MemoryStream) :
    (stream.read count).1 = stream.rest.take count := by
  simp only [read, rest, toList, Array.toList_extract, List.extract_eq_take_drop,
    Nat.add_sub_cancel_left]

/-- Reading leaves the bytes as they are. -/
@[simp] theorem read_snd_bytes (count : Nat) (stream : MemoryStream) :
    (stream.read count).2.bytes = stream.bytes := rfl

/-- Reading moves the position by what was read. -/
@[simp] theorem read_snd_position (count : Nat) (stream : MemoryStream) :
    (stream.read count).2.position = stream.position + (stream.read count).1.length := rfl

/-- Puts bytes at a position inside an array or at its end. -/
def overwrite (bytes : Array UInt8) (position : Nat) : List UInt8 → Array UInt8
  | [] => bytes
  | byte :: rest =>
    overwrite (if h : position < bytes.size then bytes.set position byte else bytes.push byte)
      (position + 1) rest

/-- Overwriting keeps what is in front and what is behind. -/
theorem toList_overwrite (content : List UInt8) (bytes : Array UInt8) (position : Nat)
    (h : position ≤ bytes.size) :
    (overwrite bytes position content).toList
      = bytes.toList.take position ++ content ++ bytes.toList.drop (position + content.length) := by
  induction content generalizing bytes position with
  | nil => simp [overwrite]
  | cons byte rest ih =>
    rw [overwrite]
    split
    next hlt =>
      rw [ih _ _ (by simp; omega)]
      have hlt' : position < bytes.toList.length := by simpa using hlt
      have htake : (bytes.toList.set position byte).take (position + 1)
          = bytes.toList.take position ++ [byte] := by
        rw [List.take_add_one, List.take_set_of_le (Nat.le_refl _), List.getElem?_set_self hlt']
        rfl
      have hdrop : (bytes.toList.set position byte).drop (position + 1 + rest.length)
          = bytes.toList.drop (position + 1 + rest.length) :=
        List.drop_set_of_lt (by omega)
      rw [Array.toList_set, htake, hdrop, List.length_cons, Nat.add_right_comm, Nat.add_assoc]
      simp
    next hnot =>
      have heq : position = bytes.size := by omega
      subst heq
      have hall : (bytes.push byte).toList.take (bytes.size + 1) = bytes.toList ++ [byte] := by
        rw [Array.toList_push]
        exact List.take_of_length_le (by simp)
      have hkeep : bytes.toList.take bytes.size = bytes.toList := List.take_of_length_le (by simp)
      rw [ih _ _ (by simp), hall, hkeep]
      simp [List.drop_eq_nil_of_le]

/-- Puts bytes at the position, behind zeros if the position lies behind the end. -/
def write (content : List UInt8) (stream : MemoryStream) : MemoryStream :=
  let padding := Array.replicate (stream.position - stream.bytes.size) 0
  { bytes := overwrite (stream.bytes ++ padding) stream.position content
    position := stream.position + content.length }

/-- Writing inside the bytes or at their end replaces what is there. -/
theorem toList_write (content : List UInt8) (stream : MemoryStream)
    (h : stream.position ≤ stream.bytes.size) :
    (stream.write content).toList = stream.toList.take stream.position ++ content
      ++ stream.toList.drop (stream.position + content.length) := by
  have hzero : stream.position - stream.bytes.size = 0 := by omega
  simp only [toList, write, hzero, Array.replicate_zero, Array.append_empty]
  exact toList_overwrite content stream.bytes stream.position h

/-- The number of bytes behind the position. -/
def remaining (stream : MemoryStream) : Nat := stream.bytes.size - stream.position

/-- No more is read than was asked for. -/
theorem length_read_le (count : Nat) (stream : MemoryStream) :
    (stream.read count).1.length ≤ count := by
  rw [read_fst]
  exact List.length_take_le _ _

/-- What is read does not remain. -/
theorem remaining_read (count : Nat) (stream : MemoryStream) :
    (stream.read count).2.remaining + (stream.read count).1.length ≤ stream.remaining := by
  have hlength : (stream.read count).1.length ≤ stream.remaining := by
    rw [read_fst, List.length_take, rest, List.length_drop, remaining, toList, Array.length_toList]
    exact Nat.min_le_right _ _
  simp only [remaining, read_snd_bytes, read_snd_position] at hlength ⊢
  omega

instance : ByteSource MemoryStream where
  read count := fun stream => let (bytes, final) := stream.read count; .ok bytes final
  readBudget := remaining
  length_read_le {count start final bytes} h := by
    obtain ⟨rfl, rfl⟩ : (start.read count).1 = bytes ∧ (start.read count).2 = final := by
      simpa using h
    exact length_read_le count start
  readBudget_ok {count start final bytes} h := by
    obtain ⟨rfl, rfl⟩ : (start.read count).1 = bytes ∧ (start.read count).2 = final := by
      simpa using h
    exact remaining_read count start
  readBudget_error h := by simp at h

instance : ByteSink MemoryStream where
  write bytes := fun stream => .ok bytes.length (stream.write bytes)
  flush := pure ()
  writeBudget _ := 0
  write_le_length h := by
    simp only [EStateM.Result.ok.injEq] at h
    omega
  writeBudget_error h := by simp at h

instance : Seekable MemoryStream where
  tell := fun stream => .ok stream.position stream
  seekTo position := modify fun stream => { stream with position }

instance : TellsInPlace MemoryStream where
  tell_spends _ := Nat.le_refl _

end MemoryStream

end RecordArchive
