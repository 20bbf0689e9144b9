import RecordArchive.Proofs.Stream.Fallible
import RecordArchive.Proofs.Stream.Pace

/-! # Streams with a log

A stream beside the bytes that were written to it, in the order in which it accepted them and wherever
they were put.

* `ReadsAlike.of_read`, `simulates_writeAll_of_write`: streams whose single transfers agree are read and
  written alike.
* `Logged.readsAlike_inner`, `Logged.writesAlike_inner`: the log changes nothing.
* `Logged.readsAlike_behind`, `Logged.writesAlike_behind`: what is logged does not depend on what has been
  logged before.
* `Logged.outcome_writeAll`: a whole write is logged, or a front part of it that is not all of it. -/

namespace RecordArchive

open Program

variable {σ σ' ε α : Type}

/-! ## Streams whose single transfers agree -/

section Alike

variable {related : σ → σ' → Prop}

/-- Streams that are read alike once are read alike to the end of a request. -/
theorem simulates_readUpTo_of_read [ByteSource σ] [ByteSource σ']
    (h : ∀ count, Simulates related (ByteSource.read count) (ByteSource.read count)) (count : Nat) :
    Simulates related (readUpTo count) (readUpTo count) := by
  suffices hfurther : ∀ taken start start', related start start' →
      Agree related (readFurther count taken start) (readFurther count taken start') from hfurther []
  intro taken start start' hstart
  have hread := h count start start' hstart
  -- The other stream is read as often, since every read of it ends as the one of the first stream does.
  fun_induction readFurther count taken start generalizing start' with
  | case1 taken start =>
    rw [readFurther_apply, if_pos rfl]
    exact .ok hstart
  | case2 count taken start hcount final hrun =>
    rw [hrun] at hread
    obtain ⟨final', hrun', hfinal⟩ := hread.exists_ok_right
    rw [readFurther_apply, if_neg hcount, hrun']
    exact .ok hfinal
  | case3 count taken start hcount byte bytes middle hrun ih =>
    rw [hrun] at hread
    obtain ⟨middle', hrun', hmiddle⟩ := hread.exists_ok_right
    rw [readFurther_apply count taken start', if_neg hcount, hrun']
    exact ih middle' hmiddle (h _ _ _ hmiddle)
  | case4 count taken start hcount error middle hrun hagain ih =>
    rw [hrun] at hread
    obtain ⟨middle', hrun', hmiddle⟩ := hread.exists_error_right
    rw [readFurther_apply count taken start', if_neg hcount, hrun']
    simp only [hagain, if_true]
    exact ih middle' hmiddle (h _ _ _ hmiddle)
  | case5 count taken start hcount error middle hrun hagain =>
    rw [hrun] at hread
    obtain ⟨final', hrun', hfinal⟩ := hread.exists_error_right
    rw [readFurther_apply count taken start', if_neg hcount, hrun']
    simp only [hagain]
    exact .error hfinal

/-- **Streams whose reads agree** are read alike. -/
theorem ReadsAlike.of_read [ByteSource σ] [ByteSource σ']
    (h : ∀ count, Simulates related (ByteSource.read count) (ByteSource.read count)) :
    ReadsAlike related := .of_readUpTo (simulates_readUpTo_of_read h)

/-- A whole write by its first attempt. -/
theorem writeAll_cons [ByteSink σ] (byte : UInt8) (rest : List UInt8) (start : σ) :
    writeAll (byte :: rest) start = match ByteSink.write (byte :: rest) start with
      | .ok 0 final => .error writeZero final
      | .ok (count + 1) middle => writeAll (rest.drop count) middle
      | .error error middle =>
        if error.isInterrupted then writeAll (byte :: rest) middle else .error error middle := by
  conv => lhs; unfold writeAll
  cases ByteSink.write (byte :: rest) start with
  | ok count middle => cases count <;> rfl
  | error error middle =>
    dsimp only
    split <;> rfl

/-- **Streams whose writes agree** take whole writes alike. -/
theorem simulates_writeAll_of_write [ByteSink σ] [ByteSink σ']
    (h : ∀ bytes, Simulates related (ByteSink.write bytes) (ByteSink.write bytes))
    (bytes : List UInt8) : Simulates related (writeAll bytes) (writeAll bytes) := by
  intro start start' hstart
  have hwrite := h bytes start start' hstart
  fun_induction writeAll bytes start generalizing start' with
  | case1 start =>
    rw [writeAll]
    exact .ok hstart
  | case2 start byte rest final hrun =>
    rw [hrun] at hwrite
    obtain ⟨final', hrun', hfinal⟩ := hwrite.exists_ok_right
    rw [writeAll_cons, hrun']
    exact .error hfinal
  | case3 start byte rest count middle hrun ih =>
    rw [hrun] at hwrite
    obtain ⟨middle', hrun', hmiddle⟩ := hwrite.exists_ok_right
    rw [writeAll_cons byte rest start', hrun']
    exact ih middle' hmiddle (h _ _ _ hmiddle)
  | case4 start byte rest error middle hrun hagain ih =>
    rw [hrun] at hwrite
    obtain ⟨middle', hrun', hmiddle⟩ := hwrite.exists_error_right
    rw [writeAll_cons byte rest start', hrun']
    simp only [hagain, if_true]
    exact ih middle' hmiddle (h _ _ _ hmiddle)
  | case5 start byte rest error middle hrun hagain =>
    rw [hrun] at hwrite
    obtain ⟨final', hrun', hfinal⟩ := hwrite.exists_error_right
    rw [writeAll_cons byte rest start', hrun']
    simp only [hagain]
    exact .error hfinal

end Alike

/-! ## The log -/

/-- A stream beside the bytes that were written to it. -/
structure Logged (σ : Type) where
  inner : σ
  log : List UInt8 := []

namespace Logged

/-- A program on the inner stream, which logs what its value says. -/
def lift (logs : α → List UInt8) (program : EStateM ε σ α) : EStateM ε (Logged σ) α := fun stream =>
  match program stream.inner with
  | .ok value inner => .ok value ⟨inner, stream.log ++ logs value⟩
  | .error error inner => .error error ⟨inner, stream.log⟩

section Lift

variable {logs : α → List UInt8} {program : EStateM ε σ α} {start final : Logged σ}

/-- A success of the stream inside. -/
theorem lift_ok {value : α} (h : lift logs program start = .ok value final) :
    program start.inner = .ok value final.inner := by
  unfold lift at h
  cases hrun : program start.inner <;> rw [hrun] at h <;> cases h
  rfl

/-- A failure of the stream inside. -/
theorem lift_error {error : ε} (h : lift logs program start = .error error final) :
    program start.inner = .error error final.inner := by
  unfold lift at h
  cases hrun : program start.inner <;> rw [hrun] at h <;> cases h
  rfl

/-- What a program logs stands behind what has been logged, and a failure logs nothing. -/
theorem outcome_lift (logs : α → List UInt8) (program : EStateM ε σ α) (start : Logged σ) :
    Outcome (fun value final => final.log = start.log ++ logs value)
      (fun _ final => final.log = start.log) (lift logs program start) := by
  unfold lift
  cases program start.inner with
  | ok value inner => rfl
  | error error inner => rfl

end Lift

/-- The inner stream is the given one. -/
def Wraps (stream : Logged σ) (inner : σ) : Prop := stream.inner = inner

/-- The same stream, on which some bytes had been logged before. -/
structure Behind (before : List UInt8) (stream stream' : Logged σ) : Prop where
  inner : stream.inner = stream'.inner
  log : stream.log = before ++ stream'.log

/-- The log does not change what is done on the stream inside. -/
theorem simulates_lift_inner (logs : α → List UInt8) (program : EStateM ε σ α) :
    Simulates Wraps (lift logs program) program := by
  rintro ⟨inner, log⟩ _ rfl
  unfold lift
  cases program inner with
  | ok value final => exact .ok rfl
  | error error final => exact .error rfl

/-- What has been logged before does not matter. -/
theorem simulates_lift_behind (before : List UInt8) (logs : α → List UInt8)
    (program : EStateM ε σ α) :
    Simulates (Behind before) (lift logs program) (lift logs program) := by
  rintro ⟨inner, log⟩ ⟨inner', log'⟩ ⟨hinner, hlog⟩
  dsimp only at hinner hlog
  subst hinner hlog
  unfold lift
  cases program inner with
  | ok value final => exact .ok ⟨rfl, List.append_assoc _ _ _⟩
  | error error final => exact .error ⟨rfl, rfl⟩

instance [ByteSource σ] : ByteSource (Logged σ) where
  read count := lift (fun _ => []) (ByteSource.read count)
  readBudget stream := ByteSource.readBudget stream.inner
  length_read_le h := ByteSource.length_read_le (lift_ok h)
  readBudget_ok h := ByteSource.readBudget_ok (lift_ok h)
  readBudget_error h := ByteSource.readBudget_error (lift_error h)

/-- A write logs the bytes that were accepted. -/
instance [ByteSink σ] : ByteSink (Logged σ) where
  write bytes := lift bytes.take (ByteSink.write bytes)
  flush := lift (fun _ => []) ByteSink.flush
  writeBudget stream := ByteSink.writeBudget stream.inner
  write_le_length h := ByteSink.write_le_length (lift_ok h)
  writeBudget_error h := ByteSink.writeBudget_error (lift_error h)

instance [Seekable σ] : Seekable (Logged σ) where
  tell := lift (fun _ => []) Seekable.tell
  seekTo position := lift (fun _ => []) (Seekable.seekTo position)

/-- **The log changes nothing** for whoever reads. -/
theorem readsAlike_inner [ByteSource σ] : ReadsAlike (Wraps : Logged σ → σ → Prop) :=
  .of_read fun count => simulates_lift_inner _ (ByteSource.read count)

/-- What is read does not depend on what has been logged. -/
theorem readsAlike_behind [ByteSource σ] (before : List UInt8) :
    ReadsAlike (Behind before : Logged σ → Logged σ → Prop) :=
  .of_read fun count => simulates_lift_behind before _ (ByteSource.read count)

section Writing

variable [ByteSink σ] [Seekable σ]

/-- **The log changes nothing** for whoever writes. -/
theorem writesAlike_inner : WritesAlike (Wraps : Logged σ → σ → Prop) where
  writeAll := simulates_writeAll_of_write fun bytes => simulates_lift_inner _ (ByteSink.write bytes)
  flush := simulates_lift_inner _ ByteSink.flush
  tell := simulates_lift_inner _ Seekable.tell
  seekTo position := simulates_lift_inner _ (Seekable.seekTo position)

/-- **What is logged** does not depend on what has been logged before. -/
theorem writesAlike_behind (before : List UInt8) :
    WritesAlike (Behind before : Logged σ → Logged σ → Prop) where
  writeAll := simulates_writeAll_of_write fun bytes =>
    simulates_lift_behind before _ (ByteSink.write bytes)
  flush := simulates_lift_behind before _ ByteSink.flush
  tell := simulates_lift_behind before _ Seekable.tell
  seekTo position := simulates_lift_behind before _ (Seekable.seekTo position)

end Writing

/-- A stream with a log may fail at any write. -/
theorem isFallibleSink [ByteSink σ] : IsFallibleSink (Logged.log : Logged σ → List UInt8) Appends where
  nil log := (List.append_nil log).symm
  append := by
    rintro front back log _ _ rfl rfl
    exact List.append_assoc _ _ _
  write bytes start := outcome_lift _ _ start

/-- **A whole write** is logged, and a failed one has logged some of its bytes, but not all of them. -/
theorem outcome_writeAll [ByteSink σ] (bytes : List UInt8) (start : Logged σ) :
    Outcome (fun _ final => final.log = start.log ++ bytes)
      (fun _ final => ∃ front, front <+: bytes ∧ front.length < bytes.length ∧
        final.log = start.log ++ front) (writeAll bytes start) := by
  fun_induction writeAll bytes start with
  | case1 start => exact (List.append_nil _).symm
  | case2 start byte rest final hrun =>
    exact ⟨[], List.nil_prefix, Nat.zero_lt_succ _, (isFallibleSink.write _ start).of_ok hrun⟩
  | case3 start byte rest count middle hrun ih =>
    have hmiddle : middle.log = start.log ++ (byte :: rest).take (count + 1) :=
      (isFallibleSink.write _ start).of_ok hrun
    have hle := ByteSink.write_le_length hrun
    rw [List.take_succ_cons] at hmiddle
    refine ih.mono (fun _ final hfinal => ?_) ?_
    · rw [hfinal, hmiddle, List.append_assoc, List.cons_append, List.take_append_drop]
    · rintro error final ⟨front, hfront, hlength, hfinal⟩
      refine ⟨byte :: rest.take count ++ front, ?_, ?_, ?_⟩
      · rw [List.cons_append, List.cons_prefix_cons]
        refine ⟨rfl, ?_⟩
        have hprefix := (List.prefix_append_right_inj (rest.take count)).mpr hfront
        rwa [List.take_append_drop] at hprefix
      · simp only [List.length_cons, List.length_append, List.length_take, List.length_drop]
          at hle hlength ⊢
        omega
      · rw [hfinal, hmiddle, List.append_assoc]
  | case4 start byte rest error middle hrun hagain ih =>
    -- An interruption logs nothing, and the same bytes are written again.
    rw [← show middle.log = start.log from (isFallibleSink.write _ start).of_error hrun]
    exact ih
  | case5 start byte rest error middle hrun hagain =>
    refine ⟨[], List.nil_prefix, Nat.zero_lt_succ _, ?_⟩
    rw [List.append_nil]
    exact (isFallibleSink.write _ start).of_error hrun

end Logged

end RecordArchive
