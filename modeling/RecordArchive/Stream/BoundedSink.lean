import RecordArchive.Stream.Basic

/-! # Sinks with limited room

A sink in memory that keeps what it is given until its room is used up and then fails. A write is
cut where the room ends. Without a limit it accepts everything. -/

namespace RecordArchive

/-- A sink in memory. -/
structure BoundedSink where
  bytes : Array UInt8 := #[]
  /-- The room that is left, or `none` if there is no limit. -/
  room? : Option Nat := none
  deriving DecidableEq, Repr

namespace BoundedSink

/-- Keeps a front part of the given bytes. -/
def write (content : List UInt8) (sink : BoundedSink) : EStateM.Result IoError BoundedSink Nat :=
  match sink with
  | ⟨bytes, none⟩ => .ok content.length ⟨bytes.appendList content, none⟩
  | ⟨bytes, some 0⟩ => .error (.worded .other "sink full") ⟨bytes, some 0⟩
  | ⟨bytes, some room⟩ =>
    let accepted := content.take room
    .ok accepted.length ⟨bytes.appendList accepted, some (room - accepted.length)⟩

instance : ByteSink BoundedSink where
  write content := fun sink => sink.write content
  flush := pure ()
  writeBudget _ := 0
  write_le_length {content start final count} h := by
    obtain ⟨bytes, room?⟩ := start
    simp only [write] at h
    split at h
    · simp_all
    · simp at h
    · simp only [EStateM.Result.ok.injEq] at h
      obtain ⟨rfl, -⟩ := h
      exact List.length_take_le' _ _
  writeBudget_error {content start final error} h hagain := by
    obtain ⟨bytes, room?⟩ := start
    simp only [write] at h
    split at h
    · simp at h
    · simp only [EStateM.Result.error.injEq] at h
      obtain ⟨rfl, -⟩ := h
      simp [IoError.isInterrupted, IoError.worded] at hagain
    · simp at h

end BoundedSink

end RecordArchive
