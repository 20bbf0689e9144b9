import RecordArchive.Budget
import RecordArchive.IoError

/-! # Byte streams

What an archive asks of the stream below it. A transfer may move fewer bytes than asked for, may be
interrupted, and may fail; the state of the stream after a failure is kept. Every stream has a
budget that each byte read and each interruption takes from, so that a program that reads until the
end, or that tries again after an interruption, comes to an end. -/

namespace RecordArchive

/-- A stream to read from. -/
class ByteSource (σ : Type) where
  /-- Reads at most the given number of bytes; none where the stream ends. -/
  read : Nat → EStateM IoError σ (List UInt8)
  /-- A bound on the bytes and interruptions to come. -/
  readBudget : σ → Nat
  /-- A read gives no more than was asked for. -/
  length_read_le {count : Nat} {start final : σ} {bytes : List UInt8}
    (h : read count start = .ok bytes final) : bytes.length ≤ count
  /-- Bytes are taken from the budget. -/
  readBudget_ok {count : Nat} {start final : σ} {bytes : List UInt8}
    (h : read count start = .ok bytes final) :
    readBudget final + bytes.length ≤ readBudget start
  /-- Interruptions are taken from the budget. -/
  readBudget_error {count : Nat} {start final : σ} {error : IoError}
    (h : read count start = .error error final) :
    readBudget final + error.isInterrupted.toNat ≤ readBudget start

/-- A stream to write to. -/
class ByteSink (σ : Type) where
  /-- Writes a front part of the given bytes and says how long it is. -/
  write : List UInt8 → EStateM IoError σ Nat
  /-- Hands over what was written so far. -/
  flush : EStateM IoError σ Unit
  /-- A bound on the interruptions of writes to come. -/
  writeBudget : σ → Nat
  /-- A write accepts no more than it is given. -/
  write_le_length {bytes : List UInt8} {start final : σ} {count : Nat}
    (h : write bytes start = .ok count final) : count ≤ bytes.length
  /-- Interruptions are taken from the budget. -/
  writeBudget_error {bytes : List UInt8} {start final : σ} {error : IoError}
    (h : write bytes start = .error error final) (hagain : error.isInterrupted = true) :
    writeBudget final < writeBudget start

/-- A stream whose position can be asked for and set. -/
class Seekable (σ : Type) where
  /-- The position of the stream. Asking for it may change the stream. -/
  tell : EStateM IoError σ Nat
  /-- Moves the stream to a position. -/
  seekTo : Nat → EStateM IoError σ Unit

/-- Asking a stream for its position gives it nothing more to read. -/
class TellsInPlace (σ : Type) [ByteSource σ] [Seekable σ] : Prop where
  tell_spends : Spends ByteSource.readBudget (fun _ => 0) (Seekable.tell : EStateM IoError σ Nat)

end RecordArchive
