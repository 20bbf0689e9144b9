import RecordArchive.Stream.Memory

/-! # Streams in memory with planned faults

A stream in memory that fails, is interrupted or moves fewer bytes than asked for as its plan says.
Most triggers are positions: a transfer that would cross one ends there, so that what happens does
not depend on how a caller cuts its transfers. An interruption happens once for each time its
position is listed. -/

namespace RecordArchive

/-- When a stream in memory misbehaves. -/
structure Faults where
  /-- The most bytes that one read moves. -/
  readMax? : Option Nat := none
  /-- The most bytes that one write moves. -/
  writeMax? : Option Nat := none
  /-- Reads from this position on fail. -/
  readFailAt? : Option Nat := none
  /-- Writes from this position on fail. -/
  writeFailAt? : Option Nat := none
  /-- Writes from this position on accept nothing. -/
  writeZeroAt? : Option Nat := none
  /-- The positions at which a read is interrupted once each. -/
  readInterrupts : List Nat := []
  /-- The positions at which a write is interrupted once each. -/
  writeInterrupts : List Nat := []
  /-- The positions to which seeking fails. -/
  refusedSeeks : List Nat := []
  /-- Whether asking for the position fails. -/
  tellFails : Bool := false
  /-- Whether handing over what was written fails. -/
  flushFails : Bool := false
  deriving DecidableEq, Repr

/-- A stream in memory with its plan of faults. -/
structure FaultyStream where
  memory : MemoryStream := {}
  faults : Faults := {}
  deriving DecidableEq, Repr

namespace FaultyStream

/-- Whether a position has been reached. -/
def reached (trigger? : Option Nat) (position : Nat) : Bool :=
  trigger?.any fun trigger => decide (trigger ≤ position)

/-- The most bytes that a transfer at a position moves: at most the general limit, and no further
than the next trigger behind the position. -/
def transferLimit? (limit? : Option Nat) (triggers : List Nat) (position : Nat) : Option Nat :=
  let distances := (triggers.filter fun trigger => decide (position < trigger)).map (· - position)
  (limit?.toList ++ distances).min?

/-- The failure of an interrupted transfer. -/
def interruption : IoError := .worded .interrupted "interrupted"

/-- Takes at most `count` bytes unless the plan says otherwise. -/
def read (count : Nat) (stream : FaultyStream) : EStateM.Result IoError FaultyStream (List UInt8) :=
  let position := stream.memory.position
  let faults := stream.faults
  if count = 0 then .ok [] stream
  else if position ∈ faults.readInterrupts then
    .error interruption
      { stream with faults.readInterrupts := faults.readInterrupts.erase position }
  else if reached faults.readFailAt? position then .error (.worded .other "read fault") stream
  else
    let triggers := faults.readInterrupts ++ faults.readFailAt?.toList
    let limit := ((transferLimit? faults.readMax? triggers position).map (min count)).getD count
    let (bytes, memory) := stream.memory.read limit
    .ok bytes { stream with memory }

/-- Writes the given bytes unless the plan says otherwise. -/
def write (bytes : List UInt8) (stream : FaultyStream) : EStateM.Result IoError FaultyStream Nat :=
  match stream with
  | ⟨memory, faults⟩ =>
    let position := memory.position
    if bytes.isEmpty then .ok 0 ⟨memory, faults⟩
    else if position ∈ faults.writeInterrupts then
      .error interruption
        ⟨memory, { faults with writeInterrupts := faults.writeInterrupts.erase position }⟩
    else if reached faults.writeFailAt? position then
      .error (.worded .other "write fault") ⟨memory, faults⟩
    else if reached faults.writeZeroAt? position then .ok 0 ⟨memory, faults⟩
    else
      let triggers :=
        faults.writeInterrupts ++ faults.writeFailAt?.toList ++ faults.writeZeroAt?.toList
      let accepted := ((transferLimit? faults.writeMax? triggers position).map bytes.take).getD bytes
      .ok accepted.length ⟨memory.write accepted, faults⟩

/-- A bound on the bytes and interruptions of reads to come. -/
def readBudget (stream : FaultyStream) : Nat :=
  stream.memory.remaining + stream.faults.readInterrupts.length

/-- A position that is erased makes the list shorter. -/
theorem length_erase_lt {position : Nat} {positions : List Nat} (h : position ∈ positions) :
    (positions.erase position).length < positions.length := by
  have hpos := List.length_pos_of_mem h
  rw [List.length_erase_of_mem h]
  omega

instance : ByteSource FaultyStream where
  read count := fun stream => stream.read count
  readBudget := readBudget
  length_read_le {count start final bytes} h := by
    simp only [read] at h
    split at h
    · simp_all
    split at h
    · simp at h
    split at h
    · simp at h
    simp only [EStateM.Result.ok.injEq] at h
    obtain ⟨rfl, -⟩ := h
    refine Nat.le_trans (MemoryStream.length_read_le _ _) ?_
    cases transferLimit? start.faults.readMax?
      (start.faults.readInterrupts ++ start.faults.readFailAt?.toList) start.memory.position with
    | none => exact Nat.le_refl _
    | some limit => exact Nat.min_le_left _ _
  readBudget_ok {count start final bytes} h := by
    simp only [read] at h
    split at h
    · simp_all
    split at h
    · simp at h
    split at h
    · simp at h
    simp only [EStateM.Result.ok.injEq] at h
    obtain ⟨rfl, rfl⟩ := h
    simp only [readBudget]
    have := MemoryStream.remaining_read
      (((transferLimit? start.faults.readMax?
        (start.faults.readInterrupts ++ start.faults.readFailAt?.toList)
        start.memory.position).map (min count)).getD count) start.memory
    omega
  readBudget_error {count start final error} h := by
    simp only [read] at h
    split at h
    · simp at h
    split at h
    next hmem =>
      simp only [EStateM.Result.error.injEq] at h
      obtain ⟨rfl, rfl⟩ := h
      have := length_erase_lt hmem
      simp only [readBudget, interruption, IoError.isInterrupted, IoError.worded, decide_true,
        Bool.toNat_true]
      omega
    split at h
    · simp only [EStateM.Result.error.injEq] at h
      obtain ⟨rfl, rfl⟩ := h
      simp [IoError.isInterrupted, IoError.worded]
    · simp at h

instance : ByteSink FaultyStream where
  write bytes := fun stream => stream.write bytes
  flush := fun stream =>
    if stream.faults.flushFails then .error (.worded .other "flush fault") stream
    else .ok () stream
  writeBudget stream := stream.faults.writeInterrupts.length
  write_le_length {bytes start final count} h := by
    simp only [write] at h
    split at h
    · simp only [EStateM.Result.ok.injEq] at h
      omega
    split at h
    · simp at h
    split at h
    · simp at h
    split at h
    · simp only [EStateM.Result.ok.injEq] at h
      omega
    simp only [EStateM.Result.ok.injEq] at h
    obtain ⟨rfl, -⟩ := h
    cases transferLimit? start.faults.writeMax?
        (start.faults.writeInterrupts ++ start.faults.writeFailAt?.toList
          ++ start.faults.writeZeroAt?.toList) start.memory.position with
    | none => exact Nat.le_refl _
    | some limit => exact List.length_take_le' _ _
  writeBudget_error {bytes start final error} h hagain := by
    simp only [write] at h
    split at h
    · simp at h
    split at h
    next hmem =>
      simp only [EStateM.Result.error.injEq] at h
      obtain ⟨-, rfl⟩ := h
      exact length_erase_lt hmem
    split at h
    · simp only [EStateM.Result.error.injEq] at h
      obtain ⟨rfl, -⟩ := h
      simp [IoError.isInterrupted, IoError.worded] at hagain
    split at h <;> simp at h

instance : Seekable FaultyStream where
  tell := fun stream =>
    if stream.faults.tellFails then .error (.worded .other "tell fault") stream
    else .ok stream.memory.position stream
  seekTo position := fun stream =>
    if position ∈ stream.faults.refusedSeeks then .error (.worded .other "seek fault") stream
    else .ok () { stream with memory.position := position }

end FaultyStream

end RecordArchive
