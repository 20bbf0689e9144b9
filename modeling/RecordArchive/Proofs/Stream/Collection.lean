import RecordArchive.Proofs.Program
import RecordArchive.Stream.BoundedSink
import RecordArchive.Stream.Transfer

/-! # Sinks that collect what they are given

An infallible sink keeps every byte that it accepts, in order; single writes may be short and may be
interrupted. `IsCollector holds` says so of a relation between sinks and what they hold. The list of
the collected bytes is itself such a sink, and the plainest one: a write accepts everything.

* `IsCollector.writeAll`: a whole write appends its bytes. -/

namespace RecordArchive

open Program

variable {τ : Type}

/-- A list collects at its end. -/
instance : ByteSink (List UInt8) where
  write bytes := fun held => .ok bytes.length (held ++ bytes)
  flush := pure ()
  writeBudget _ := 0
  write_le_length h := by
    simp only [EStateM.Result.ok.injEq] at h
    omega
  writeBudget_error h := by simp at h

/-- A relation between sinks and what they hold that every write keeps: a write appends the bytes
that it accepts, accepts none only where none are given, and fails only by an interruption, which
changes nothing. -/
structure IsCollector [ByteSink τ] (holds : τ → List UInt8 → Prop) : Prop where
  write_ok {start final : τ} {count : Nat} {bytes held : List UInt8} (h : holds start held)
    (hrun : ByteSink.write bytes start = .ok count final) :
    holds final (held ++ bytes.take count) ∧ (count = 0 → bytes = [])
  write_error {start final : τ} {bytes held : List UInt8} {error : IoError} (h : holds start held)
    (hrun : ByteSink.write bytes start = .error error final) :
    error.isInterrupted = true ∧ holds final held

/-- A list holds itself. -/
theorem isCollector_eq : IsCollector (Eq : List UInt8 → List UInt8 → Prop) where
  write_ok := by
    rintro start final count bytes _ rfl hrun
    cases hrun
    exact ⟨by rw [List.take_length], List.length_eq_zero_iff.mp⟩
  write_error := by
    rintro start final bytes _ error rfl hrun
    cases hrun

/-- A sink in memory without a limit holds its bytes. -/
theorem BoundedSink.isCollector :
    IsCollector fun (sink : BoundedSink) held => sink.room? = none ∧ sink.bytes.toList = held where
  write_ok := by
    rintro ⟨bytes, _⟩ final count content _ ⟨rfl, rfl⟩ hrun
    obtain ⟨rfl, rfl⟩ : content.length = count ∧ (⟨bytes.appendList content, none⟩ : BoundedSink)
        = final := (EStateM.Result.ok.injEq _ _ _ _).mp hrun
    refine ⟨⟨rfl, ?_⟩, List.length_eq_zero_iff.mp⟩
    rw [List.take_length]
    exact Array.toList_appendList
  write_error := by
    rintro ⟨bytes, _⟩ final content _ error ⟨rfl, rfl⟩ hrun
    cases hrun

/-- A whole write appends its bytes. -/
theorem IsCollector.writeAll [ByteSink τ] {holds : τ → List UInt8 → Prop} (hc : IsCollector holds)
    {start : τ} {held : List UInt8} (h : holds start held) (bytes : List UInt8) :
    ∃ final, writeAll bytes start = .ok () final ∧ holds final (held ++ bytes) := by
  fun_induction RecordArchive.writeAll bytes start generalizing held with
  | case1 start => exact ⟨start, rfl, by rwa [List.append_nil]⟩
  | case2 start byte rest final hrun =>
    -- A write that accepts nothing would have been given nothing.
    exact absurd ((hc.write_ok h hrun).2 rfl) (List.cons_ne_nil _ _)
  | case3 start byte rest count middle hrun ih =>
    obtain ⟨final, hfinal, hheld⟩ := ih (hc.write_ok h hrun).1
    refine ⟨final, hfinal, ?_⟩
    rwa [List.append_assoc, List.take_succ_cons, List.cons_append, List.take_append_drop] at hheld
  | case4 start byte rest error middle hrun hagain ih =>
    -- An interruption changes nothing, and the same bytes are written again.
    exact ih (hc.write_error h hrun).2
  | case5 start byte rest error middle hrun hagain =>
    exact absurd (hc.write_error h hrun).1 hagain

end RecordArchive
