import RecordArchive.Proofs.Archive.Calls

/-! # Both outcomes of programs and calls

A program that keeps its state after a failure can be taken up again, so what a failure leaves
counts as much as what a success gives. `Program.Outcome ok failed result` says one thing of a
value with its state and another one of an error with its state.

* `Program.Outcome.bind`: programs in a row are judged from the first one on, and a failure of
  that is one of both.
* `Program.Outcome.repeatUntil`: what every round that asks for another one keeps leads to the
  outcome of the last round.
* `Call.outcome_onStream` and its companions: the programs from which calls are built. -/

namespace RecordArchive

open Program

variable {ε σ ρ α β : Type}

namespace Program

/-- **Both outcomes**: what holds of the value and the state of a success, and of the error and the
state of a failure. -/
def Outcome (ok : α → σ → Prop) (failed : ε → σ → Prop) : EStateM.Result ε σ α → Prop
  | .ok value final => ok value final
  | .error error final => failed error final

namespace Outcome

variable {ok ok' : α → σ → Prop} {failed failed' : ε → σ → Prop} {result : EStateM.Result ε σ α}

/-- What is known of a success. -/
theorem of_ok (h : Outcome ok failed result) {value : α} {final : σ}
    (hrun : result = .ok value final) : ok value final := by
  rw [hrun] at h
  exact h

/-- What is known of a failure. -/
theorem of_error (h : Outcome ok failed result) {error : ε} {final : σ}
    (hrun : result = .error error final) : failed error final := by
  rw [hrun] at h
  exact h

/-- What follows from an outcome. -/
theorem mono (h : Outcome ok failed result) (hok : ∀ value final, ok value final → ok' value final)
    (hfailed : ∀ error final, failed error final → failed' error final) :
    Outcome ok' failed' result := by
  cases result with
  | ok value final => exact hok value final h
  | error error final => exact hfailed error final h

/-- A result is what it is. -/
theorem self (result : EStateM.Result ε σ α) :
    Outcome (fun value final => result = .ok value final)
      (fun error final => result = .error error final) result := by
  cases result with
  | ok value final => rfl
  | error error final => rfl

/-- Two outcomes of one result hold together. -/
theorem and (h : Outcome ok failed result) (h' : Outcome ok' failed' result) :
    Outcome (fun value final => ok value final ∧ ok' value final)
      (fun error final => failed error final ∧ failed' error final) result := by
  cases result with
  | ok value final => exact ⟨h, h'⟩
  | error error final => exact ⟨h, h'⟩

/-- What a program that spends makes of the measure. -/
theorem of_spends {measure : σ → Nat} {cost : α → Nat} {program : EStateM ε σ α}
    (h : Spends measure cost program) (start : σ) :
    Outcome (fun value final => measure final + cost value ≤ measure start)
      (fun _ final => measure final ≤ measure start) (program start) :=
  (self (program start)).mono (fun _ _ hrun => h.of_ok hrun) fun _ _ hrun => h.of_error hrun

/-- **Programs in a row**: the second one goes on where the first one succeeds, and a failure of the
first one is one of both. -/
theorem bind {first : EStateM ε σ β} {next : β → EStateM ε σ α} {start : σ}
    (h : Outcome (fun value middle => Outcome ok failed (next value middle)) failed (first start)) :
    Outcome ok failed ((first >>= next) start) := by
  rw [bind_apply]
  cases hfirst : first start with
  | ok value middle => exact h.of_ok hfirst
  | error error middle => exact h.of_error hfirst

/-- Rewording failures. -/
theorem adaptExcept {ε' : Type} {failed : ε' → σ → Prop} {program : EStateM ε σ α}
    {reword : ε → ε'} {start : σ}
    (h : Outcome ok (fun error final => failed (reword error) final) (program start)) :
    Outcome ok failed (EStateM.adaptExcept reword program start) := by
  unfold EStateM.adaptExcept
  cases hrun : program start with
  | ok value final => exact h.of_ok hrun
  | error error final => exact h.of_error hrun

/-- **Repetitions**: what holds at the start and is kept by every round that asks for another one
leads to the outcome of the last round. -/
theorem repeatUntil {step : EStateM ε σ (Option α)} {measure : σ → Nat}
    {progress : Spends measure roundCost step} (inv : σ → Prop)
    (hround : ∀ state, inv state →
      Outcome (fun round final => round.elim (inv final) fun value => ok value final) failed
        (step state))
    {start : σ} (hstart : inv start) :
    Outcome ok failed (repeatUntil step measure progress start) := by
  refine repeatUntil_induction inv (Outcome ok failed) ?_ ?_ ?_ start hstart
  · intro state middle hstate hrun
    exact (hround state hstate).of_ok hrun
  · intro state value final hstate hrun
    exact (hround state hstate).of_ok hrun
  · intro state error final hstate hrun
    exact (hround state hstate).of_error hrun

end Outcome

end Program

/-! ## Calls -/

namespace Call

variable {ok : α → Archive σ → Prop} {failed : ArchiveError → Archive σ → Prop}

/-- A program on the stream leaves the state of the handle alone, whatever comes of it. -/
theorem outcome_onStream {program : EStateM ArchiveError σ α} {stream : σ} {state : HandleState}
    (h : Outcome (fun value rest => ok value ⟨rest, state⟩)
      (fun error rest => failed error ⟨rest, state⟩) (program stream)) :
    Outcome ok failed (Call.onStream program ⟨stream, state⟩) := by
  rw [onStream_apply]
  cases hrun : program stream with
  | ok value rest => exact h.of_ok hrun
  | error error rest => exact h.of_error hrun

/-- What a result that is there already comes to. -/
theorem outcome_ofResult {result : Except ArchiveError α} {archive : Archive σ}
    (hok : ∀ value, result = .ok value → ok value archive)
    (hfailed : ∀ error, result = .error error → failed error archive) :
    Outcome ok failed (Call.ofResult result archive) := by
  cases result with
  | ok value => exact hok value rfl
  | error error => exact hfailed error rfl

/-- What a check comes to. -/
theorem outcome_require {condition : Prop} [Decidable condition] {error : ArchiveError}
    {archive : Archive σ} {ok : Unit → Archive σ → Prop} (hok : condition → ok () archive)
    (hfailed : ¬ condition → failed error archive) :
    Outcome ok failed (Call.require condition error archive) := by
  by_cases h : condition
  · rw [Call.require, if_pos h]
    exact hok h
  · rw [require_of_not h]
    exact hfailed h

/-- A call whose value is dropped has the same outcome. -/
theorem outcome_of_dropped {call : Call σ α} {archive : Archive σ} {ok : Archive σ → Prop}
    (h : Outcome (fun _ final => ok final) failed (call archive)) :
    Outcome (fun _ final => ok final) failed
      ((do let _ ← call; pure () : Call σ Unit) archive) :=
  Outcome.bind (h.mono (fun _ _ hfinal => hfinal) fun _ _ hfinal => hfinal)

/-- A call leaves the value of the caller that it does not need alone. -/
theorem outcome_lift {call : Call σ α} {value : ρ} {archive : Archive σ}
    {ok : α → ρ × Archive σ → Prop} {failed : ArchiveError → ρ × Archive σ → Prop}
    (h : Outcome (fun result rest => ok result (value, rest))
      (fun error rest => failed error (value, rest)) (call archive)) :
    Outcome ok failed ((Call.lift call : CallWith ρ σ α) (value, archive)) := by
  rw [lift_apply]
  cases hrun : call archive with
  | ok result rest => exact h.of_ok hrun
  | error error rest => exact h.of_error hrun

end Call

namespace CallWith

/-- A program on the value of the caller leaves the handle alone. -/
theorem outcome_onValue {program : EStateM ArchiveError ρ α} {value : ρ} {archive : Archive σ}
    {ok : α → ρ × Archive σ → Prop} {failed : ArchiveError → ρ × Archive σ → Prop}
    (h : Outcome (fun result rest => ok result (rest, archive))
      (fun error rest => failed error (rest, archive)) (program value)) :
    Outcome ok failed (CallWith.onValue program (value, archive)) := by
  rw [onValue_apply]
  cases hrun : program value with
  | ok result rest => exact h.of_ok hrun
  | error error rest => exact h.of_error hrun

/-- A call that makes its own start value drops the final one. -/
theorem outcome_withValue {call : CallWith ρ σ α} {value : ρ} {archive : Archive σ}
    {ok : α → Archive σ → Prop} {failed : ArchiveError → Archive σ → Prop}
    (h : Outcome (fun result final => ok result final.2) (fun error final => failed error final.2)
      (call (value, archive))) :
    Outcome ok failed (CallWith.withValue value call archive) := by
  unfold CallWith.withValue
  cases hrun : call (value, archive) with
  | ok result final => exact h.of_ok hrun
  | error error final => exact h.of_error hrun

end CallWith

end RecordArchive
