import RecordArchive.Error
import RecordArchive.Stream.Basic

/-! # Whole transfers

Programs that move a given number of bytes over a stream whose single transfers may be short or
interrupted.

* `readUpTo` takes bytes until it has enough or the stream ends.
* `readExactly` classifies a stream that ends too early.
* `discard` takes bytes without keeping them, however many a header may announce.
* `writeAll` writes all its bytes or fails. -/

namespace RecordArchive

variable {σ : Type}

section Source

variable [ByteSource σ]

open ByteSource

/-- Takes up to `count` further bytes, in front of which `taken` holds the ones taken so far in
reverse order. -/
def readFurther (count : Nat) (taken : List UInt8) (start : σ) :
    EStateM.Result IoError σ (List UInt8) :=
  if count = 0 then .ok taken.reverse start
  else match _hrun : read count start with
    | .ok [] final => .ok taken.reverse final
    | .ok (byte :: bytes) middle =>
      readFurther (count - (bytes.length + 1)) ((byte :: bytes).reverse ++ taken) middle
    | .error error middle =>
      if _hagain : error.isInterrupted then readFurther count taken middle
      else .error error middle
termination_by readBudget start
decreasing_by
  · have := readBudget_ok _hrun
    simp only [List.length_cons] at this
    omega
  · have := readBudget_error _hrun
    rw [_hagain, Bool.toNat_true] at this
    omega

/-- Takes bytes until there are `count` of them or the stream ends. -/
def readUpTo (count : Nat) : EStateM IoError σ (List UInt8) := readFurther count []

/-- The bytes that come on top of those taken are spent. -/
theorem readFurther_within (count : Nat) (taken : List UInt8) (start : σ) :
    Within readBudget (fun bytes => bytes.length - taken.length) (readBudget start)
      (readFurther count taken start) := by
  fun_induction readFurther count taken start with
  | case1 => simp [Within]
  | case2 count taken start hcount final hrun =>
    have := readBudget_ok hrun
    simpa [Within] using this
  | case3 count taken start hcount byte bytes middle hrun ih =>
    have := readBudget_ok hrun
    revert ih
    cases readFurther (count - (bytes.length + 1)) ((byte :: bytes).reverse ++ taken) middle <;>
      simp only [Within, List.length_append, List.length_reverse, List.length_cons] at this ⊢ <;>
      omega
  | case4 count taken start hcount error middle hrun hagain ih =>
    have := readBudget_error hrun
    revert ih
    cases readFurther count taken middle <;> simp only [Within] <;> omega
  | case5 count taken start hcount error middle hrun hagain =>
    have := readBudget_error hrun
    simp only [Within]
    omega

/-- What is read is taken from the budget. -/
theorem readUpTo_spends (count : Nat) :
    Spends readBudget List.length (readUpTo count : EStateM IoError σ (List UInt8)) :=
  fun start => readFurther_within count [] start

/-- Takes up to `count` bytes without keeping them and gives the number of missing ones. -/
def discardUpTo (count : Nat) (start : σ) : EStateM.Result IoError σ Nat :=
  if count = 0 then .ok 0 start
  else match _hrun : read count start with
    | .ok [] final => .ok count final
    | .ok (_ :: bytes) middle => discardUpTo (count - (bytes.length + 1)) middle
    | .error error middle =>
      if _hagain : error.isInterrupted then discardUpTo count middle else .error error middle
termination_by readBudget start
decreasing_by
  · have := readBudget_ok _hrun
    simp only [List.length_cons] at this
    omega
  · have := readBudget_error _hrun
    rw [_hagain, Bool.toNat_true] at this
    omega

/-- What is discarded is lost. -/
theorem discardUpTo_spends (count : Nat) :
    Spends readBudget (fun _ => 0) (discardUpTo count : EStateM IoError σ Nat) := by
  intro start
  fun_induction discardUpTo count start with
  | case1 => exact Nat.le_refl _
  | case2 count start hcount final hrun =>
    have := readBudget_ok hrun
    simpa [Within] using this
  | case3 count start hcount byte bytes middle hrun ih =>
    have := readBudget_ok hrun
    revert ih
    cases discardUpTo (count - (bytes.length + 1)) middle <;> simp only [Within] <;> omega
  | case4 count start hcount error middle hrun hagain ih =>
    have := readBudget_error hrun
    revert ih
    cases discardUpTo count middle <;> simp only [Within] <;> omega
  | case5 count start hcount error middle hrun hagain =>
    have := readBudget_error hrun
    simp only [Within]
    omega

/-- Where a transfer starts. -/
inductive Place
  /-- Between two records, where a stream may end. -/
  | boundary
  /-- Inside a record or its payload, where it may not. -/
  | inside
  deriving DecidableEq, Repr

/-- Takes `count` bytes. -/
def readExactly (place : Place) (count : Nat) : EStateM ArchiveError σ (List UInt8) := do
  let bytes ← EStateM.adaptExcept .read (readUpTo count)
  if bytes.length = count then return bytes
  else if bytes.length = 0 ∧ place = .boundary then throw .eof
  else throw .prematureEof

/-- A success takes all the bytes from the budget. -/
theorem readExactly_spends (place : Place) (count : Nat) :
    Spends readBudget (fun bytes => max count bytes.length)
      (readExactly place count : EStateM ArchiveError σ (List UInt8)) := by
  refine Spends.bind (fun bytes result => max count result.length - bytes.length)
    ((readUpTo_spends count).adaptExcept _) (fun bytes => ?_) (fun bytes _ => by omega)
  split
  next h => exact Spends.pure bytes (by omega)
  next => split <;> exact Spends.throw _ _

/-- Takes `count` bytes without keeping them. -/
def discard (count : Nat) : EStateM ArchiveError σ Unit := do
  let missing ← EStateM.adaptExcept .read (discardUpTo count)
  if missing = 0 then return () else throw .prematureEof

/-- What is discarded is lost, whether enough of it was there or not. -/
theorem discard_spends (count : Nat) :
    Spends readBudget (fun _ => 0) (discard count : EStateM ArchiveError σ Unit) := by
  refine Spends.bind_of_free ((discardUpTo_spends count).adaptExcept _) fun missing => ?_
  split
  next => exact Spends.pure () rfl
  next => exact Spends.throw _ _

end Source

section Sink

variable [ByteSink σ]

open ByteSink

/-- The failure of a stream that accepts nothing any more. -/
def writeZero : IoError := .worded .writeZero "failed to write whole buffer"

/-- Writes all bytes. -/
def writeAll (bytes : List UInt8) (start : σ) : EStateM.Result IoError σ Unit :=
  match bytes with
  | [] => .ok () start
  | byte :: rest => match _hrun : write (byte :: rest) start with
    | .ok 0 final => .error writeZero final
    | .ok (count + 1) middle => writeAll (rest.drop count) middle
    | .error error middle =>
      if _hagain : error.isInterrupted then writeAll (byte :: rest) middle
      else .error error middle
termination_by (bytes.length, writeBudget start)
decreasing_by
  · apply Prod.Lex.left
    simp only [List.length_drop, List.length_cons]
    omega
  · apply Prod.Lex.right
    exact writeBudget_error _hrun _hagain

end Sink

end RecordArchive
