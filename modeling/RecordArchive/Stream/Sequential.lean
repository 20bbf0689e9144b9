import RecordArchive.Stream.Basic

/-! # Streams that cannot seek

A stream that reads and writes as the one inside it and refuses every question about its position,
as pipes and sockets do. -/

namespace RecordArchive

/-- A stream whose position can neither be asked for nor set. -/
structure Sequential (σ : Type) where
  inner : σ
  deriving DecidableEq, Repr

namespace Sequential

variable {σ : Type}

/-- A program on the inner stream. -/
def lift {ε α : Type} (program : EStateM ε σ α) : EStateM ε (Sequential σ) α := fun stream =>
  match program stream.inner with
  | .ok value inner => .ok value ⟨inner⟩
  | .error error inner => .error error ⟨inner⟩

/-- A success of the stream inside. -/
theorem lift_ok {ε α : Type} {program : EStateM ε σ α} {start final : Sequential σ} {value : α}
    (h : lift program start = .ok value final) : program start.inner = .ok value final.inner := by
  unfold lift at h
  cases hrun : program start.inner <;> rw [hrun] at h <;> cases h
  rfl

/-- A failure of the stream inside. -/
theorem lift_error {ε α : Type} {program : EStateM ε σ α} {start final : Sequential σ} {error : ε}
    (h : lift program start = .error error final) :
    program start.inner = .error error final.inner := by
  unfold lift at h
  cases hrun : program start.inner <;> rw [hrun] at h <;> cases h
  rfl

instance [ByteSource σ] : ByteSource (Sequential σ) where
  read count := lift (ByteSource.read count)
  readBudget stream := ByteSource.readBudget stream.inner
  length_read_le h := ByteSource.length_read_le (lift_ok h)
  readBudget_ok h := ByteSource.readBudget_ok (lift_ok h)
  readBudget_error h := ByteSource.readBudget_error (lift_error h)

instance [ByteSink σ] : ByteSink (Sequential σ) where
  write bytes := lift (ByteSink.write bytes)
  flush := lift ByteSink.flush
  writeBudget stream := ByteSink.writeBudget stream.inner
  write_le_length h := ByteSink.write_le_length (lift_ok h)
  writeBudget_error h := ByteSink.writeBudget_error (lift_error h)

/-- The answer to every question about the position. -/
def notSeekable : IoError := .worded .unsupported "stream is not seekable"

instance : Seekable (Sequential σ) where
  tell := throw notSeekable
  seekTo _ := throw notSeekable

end Sequential

end RecordArchive
