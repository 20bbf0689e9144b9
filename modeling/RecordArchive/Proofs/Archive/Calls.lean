import RecordArchive.Archive.Basic
import RecordArchive.Proofs.Program

/-! # Successes and simulations of calls

The programs from which the calls on a handle are built, judged as in `RecordArchive.Proofs.Program`:
when they succeed, and that they do the same on handles in the same state whose streams are related.

* `Call.onStream_eq_ok`: a program on the stream leaves the state of the handle alone.
* `Archive.Related`: handles in the same state on related streams. -/

namespace RecordArchive

open Program

variable {ρ ρ' σ τ α : Type}

/-! ## Successes -/

namespace Call

/-- Looking at the state of a handle does not change the handle. -/
theorem state_apply (archive : Archive σ) : Call.state archive = .ok archive.state archive := rfl

/-- A change of the state leaves the stream alone. -/
theorem update_apply (change : HandleState → HandleState) (stream : σ) (state : HandleState) :
    Call.update change ⟨stream, state⟩ = .ok () ⟨stream, change state⟩ := rfl

/-- Moving to another mode leaves everything else alone. -/
theorem setMode_apply (mode : Mode) (stream : σ) (state : HandleState) :
    Call.setMode mode ⟨stream, state⟩ = .ok () ⟨stream, { state with mode }⟩ := rfl

/-- A program on the stream leaves the state alone, whether it succeeds or fails. -/
theorem onStream_apply (program : EStateM ArchiveError σ α) (stream : σ) (state : HandleState) :
    Call.onStream program ⟨stream, state⟩ = match program stream with
      | .ok value rest => .ok value ⟨rest, state⟩
      | .error error rest => .error error ⟨rest, state⟩ := rfl

/-- A call leaves the value beside the handle alone. -/
theorem lift_apply (call : Call σ α) (value : ρ) (archive : Archive σ) :
    (Call.lift call : CallWith ρ σ α) (value, archive) = match call archive with
      | .ok result rest => .ok result (value, rest)
      | .error error rest => .error error (value, rest) := rfl

/-- A program on the stream below the handle leaves the state of the handle alone. -/
theorem onStream_eq_ok {program : EStateM ArchiveError σ α} {stream : σ} {state : HandleState}
    {value : α} {final : Archive σ} : Call.onStream program ⟨stream, state⟩ = .ok value final ↔
      ∃ rest, program stream = .ok value rest ∧ ⟨rest, state⟩ = final := by
  rw [onStream_apply]
  cases program stream with
  | ok result rest =>
    rw [EStateM.Result.ok.injEq]
    constructor
    · rintro ⟨rfl, rfl⟩
      exact ⟨rest, rfl, rfl⟩
    · rintro ⟨_, heq, rfl⟩
      cases heq
      exact ⟨rfl, rfl⟩
  | error error rest => simp

/-- A failure of the stream is the failure of the call. -/
theorem onStream_of_error {program : EStateM ArchiveError σ α} {stream rest : σ}
    {state : HandleState} {error : ArchiveError} (h : program stream = .error error rest) :
    Call.onStream program ⟨stream, state⟩ = .error error ⟨rest, state⟩ := by
  rw [onStream_apply, h]

/-- A result that is there already is given as it is. -/
theorem ofResult_eq_ok {result : Except ArchiveError α} {archive final : Archive σ} {value : α} :
    Call.ofResult result archive = .ok value final ↔ result = .ok value ∧ archive = final := by
  cases result <;> simp [Call.ofResult]

/-- A check is passed if and only if its condition holds. -/
theorem require_eq_ok {condition : Prop} [Decidable condition] {error : ArchiveError}
    {archive final : Archive σ} {value : Unit} :
    Call.require condition error archive = .ok value final ↔ condition ∧ archive = final := by
  unfold Call.require
  split
  next h => simp [pure_eq_ok, h]
  next h => simp [throw_eq_ok, h]

/-- A check whose condition holds does nothing. -/
theorem require_of {condition : Prop} [Decidable condition] (h : condition) (error : ArchiveError)
    (archive : Archive σ) : Call.require condition error archive = .ok () archive :=
  require_eq_ok.mpr ⟨h, rfl⟩

/-- A check whose condition does not hold gives its error and changes nothing. -/
theorem require_of_not {condition : Prop} [Decidable condition] (h : ¬ condition)
    (error : ArchiveError) (archive : Archive σ) :
    Call.require condition error archive = .error error archive := by
  rw [Call.require, if_neg h]
  rfl

/-- A call beside a value succeeds just where it succeeds alone. -/
theorem lift_eq_ok {call : Call σ α} {value : ρ} {archive : Archive σ} {result : α}
    {final : ρ × Archive σ} : (Call.lift call : CallWith ρ σ α) (value, archive) = .ok result final ↔
      ∃ rest, call archive = .ok result rest ∧ (value, rest) = final := by
  rw [lift_apply]
  cases call archive with
  | ok found rest =>
    rw [EStateM.Result.ok.injEq]
    constructor
    · rintro ⟨rfl, rfl⟩
      exact ⟨rest, rfl, rfl⟩
    · rintro ⟨_, heq, rfl⟩
      cases heq
      exact ⟨rfl, rfl⟩
  | error error rest => simp

/-- A call beside a value fails as it fails alone. -/
theorem lift_of_error {call : Call σ α} {value : ρ} {archive rest : Archive σ}
    {error : ArchiveError} (h : call archive = .error error rest) :
    (Call.lift call : CallWith ρ σ α) (value, archive) = .error error (value, rest) := by
  rw [lift_apply, h]

end Call

namespace CallWith

/-- The value beside the handle can be looked at. -/
theorem value_apply (value : ρ) (archive : Archive σ) :
    (CallWith.value : CallWith ρ σ ρ) (value, archive) = .ok value (value, archive) := rfl

/-- The value beside the handle can be replaced. -/
theorem setValue_apply (value value' : ρ) (archive : Archive σ) :
    (CallWith.setValue value' : CallWith ρ σ Unit) (value, archive)
      = .ok () (value', archive) := rfl

/-- A program on the value leaves the handle alone, whether it succeeds or fails. -/
theorem onValue_apply (program : EStateM ArchiveError ρ α) (value : ρ) (archive : Archive σ) :
    CallWith.onValue program (value, archive) = match program value with
      | .ok result rest => .ok result (rest, archive)
      | .error error rest => .error error (rest, archive) := rfl

/-- A program on the value succeeds just where it succeeds alone. -/
theorem onValue_eq_ok {program : EStateM ArchiveError ρ α} {value : ρ} {archive : Archive σ}
    {result : α} {final : ρ × Archive σ} :
    CallWith.onValue program (value, archive) = .ok result final ↔
      ∃ rest, program value = .ok result rest ∧ (rest, archive) = final := by
  rw [onValue_apply]
  cases program value with
  | ok found rest =>
    rw [EStateM.Result.ok.injEq]
    constructor
    · rintro ⟨rfl, rfl⟩
      exact ⟨rest, rfl, rfl⟩
    · rintro ⟨_, heq, rfl⟩
      cases heq
      exact ⟨rfl, rfl⟩
  | error error rest => simp

/-- A call that makes its own start value succeeds if it does beside that value. -/
theorem withValue_eq_ok {call : CallWith ρ σ α} {value : ρ} {archive final : Archive σ} {result : α} :
    CallWith.withValue value call archive = .ok result final ↔
      ∃ value', call (value, archive) = .ok result (value', final) := by
  unfold CallWith.withValue
  rcases call (value, archive) with ⟨found, value', rest⟩ | ⟨error, value', rest⟩
  · rw [EStateM.Result.ok.injEq]
    constructor
    · rintro ⟨rfl, rfl⟩
      exact ⟨value', rfl⟩
    · rintro ⟨_, heq⟩
      cases heq
      exact ⟨rfl, rfl⟩
  · simp

/-- A success keeps the handle, and the value at its end is dropped. -/
theorem withValue_of_ok {call : CallWith ρ σ α} {value value' : ρ} {archive final : Archive σ}
    {result : α} (h : call (value, archive) = .ok result (value', final)) :
    CallWith.withValue value call archive = .ok result final := by
  unfold CallWith.withValue
  rw [h]

/-- A failure keeps the handle, and the value at its end is dropped. -/
theorem withValue_of_error {call : CallWith ρ σ α} {value value' : ρ} {archive final : Archive σ}
    {error : ArchiveError} (h : call (value, archive) = .error error (value', final)) :
    CallWith.withValue value call archive = .error error final := by
  unfold CallWith.withValue
  rw [h]

/-- A call that drops its value and begins with one that does not need it. -/
theorem withValue_lift_bind {β : Type} (call : Call σ α) (next : α → CallWith ρ σ β) (value : ρ) :
    withValue value (Call.lift call >>= next)
      = call >>= fun result => withValue value (next result) := by
  funext archive
  cases hcall : call archive with
  | ok result middle =>
    rw [bind_of_ok hcall]
    unfold withValue
    rw [bind_of_ok (Call.lift_eq_ok.mpr ⟨_, hcall, rfl⟩)]
  | error error middle =>
    rw [withValue_of_error (bind_of_error (Call.lift_of_error hcall)), bind_of_error hcall]

/-- A call that does not use the value needs none. -/
theorem withValue_lift (call : Call σ α) (value : ρ) :
    withValue value (Call.lift call) = call := by
  funext archive
  unfold withValue
  rw [Call.lift_apply]
  cases call archive <;> rfl

end CallWith

/-! ## Simulations -/

/-- Handles in the same state on related streams. -/
structure Archive.Related (streams : σ → τ → Prop) (first : Archive σ) (second : Archive τ) :
    Prop where
  stream : streams first.stream second.stream
  state : first.state = second.state

/-- Such handles beside related values of a caller. -/
structure Archive.Paired (values : ρ → ρ' → Prop) (streams : σ → τ → Prop)
    (first : ρ × Archive σ) (second : ρ' × Archive τ) : Prop where
  value : values first.1 second.1
  archive : Related streams first.2 second.2

open Archive (Related Paired)

variable {streams : σ → τ → Prop}

namespace Call

/-- Related handles have the same state. -/
theorem simulates_state : Simulates (Related streams) Call.state Call.state := by
  intro first second h
  rw [state_apply, state_apply, h.state]
  exact .ok h

/-- A change of the state keeps handles related. -/
theorem simulates_update (change : HandleState → HandleState) :
    Simulates (Related streams) (Call.update change) (Call.update change) := by
  rintro ⟨stream, state⟩ ⟨stream', state'⟩ ⟨hstream, hstate⟩
  exact .ok ⟨hstream, congrArg change hstate⟩

/-- Moving to a mode keeps handles related. -/
theorem simulates_setMode (mode : Mode) :
    Simulates (Related streams) (Call.setMode mode) (Call.setMode mode) :=
  simulates_update _

/-- Programs on the streams that simulate each other do so below handles. -/
theorem simulates_onStream {program : EStateM ArchiveError σ α}
    {program' : EStateM ArchiveError τ α} (h : Simulates streams program program') :
    Simulates (Related streams) (Call.onStream program) (Call.onStream program') := by
  rintro ⟨stream, state⟩ ⟨stream', state'⟩ ⟨hstream, hstate⟩
  have hrun := h stream stream' hstream
  rw [onStream_apply, onStream_apply]
  revert hrun
  generalize program stream = result
  generalize program' stream' = result'
  rintro (⟨hfinal⟩ | ⟨hfinal⟩)
  · exact .ok ⟨hfinal, hstate⟩
  · exact .error ⟨hfinal, hstate⟩

/-- A result that is there already is the same for both. -/
theorem simulates_ofResult (result : Except ArchiveError α) :
    Simulates (Related streams) (Call.ofResult result) (Call.ofResult result) := by
  intro first second h
  cases result with
  | ok value => exact .ok h
  | error error => exact .error h

/-- A check is passed by both or by none. -/
theorem simulates_require (condition : Prop) [Decidable condition] (error : ArchiveError) :
    Simulates (Related streams) (Call.require condition error) (Call.require condition error) :=
  .ite (.pure ()) (.throw error)

/-- Calls that simulate each other do so beside values that they do not need. -/
theorem simulates_lift {values : ρ → ρ' → Prop} {call : Call σ α} {call' : Call τ α}
    (h : Simulates (Related streams) call call') :
    Simulates (Paired values streams) (Call.lift call) (Call.lift call') := by
  rintro ⟨value, first⟩ ⟨value', second⟩ ⟨hvalue, harchive⟩
  have hrun := h first second harchive
  rw [lift_apply, lift_apply]
  revert hrun
  generalize call first = result
  generalize call' second = result'
  -- the values stay as they are, the handles end as the calls leave them
  rintro (⟨hfinal⟩ | ⟨hfinal⟩)
  · exact .ok ⟨hvalue, hfinal⟩
  · exact .error ⟨hvalue, hfinal⟩

end Call

namespace CallWith

/-- The values beside related handles are the same. -/
theorem simulates_value :
    Simulates (Paired Eq streams) (CallWith.value : CallWith ρ σ ρ) CallWith.value := by
  rintro ⟨value, first⟩ ⟨value', second⟩ ⟨rfl, harchive⟩
  exact .ok ⟨rfl, harchive⟩

/-- Both handles get the same value beside them. -/
theorem simulates_setValue (value : ρ) :
    Simulates (Paired Eq streams) (CallWith.setValue value : CallWith ρ σ Unit)
      (CallWith.setValue value) := by
  rintro ⟨_, first⟩ ⟨_, second⟩ ⟨rfl, harchive⟩
  exact .ok ⟨rfl, harchive⟩

/-- Programs on related values that simulate each other do so beside handles. -/
theorem simulates_onValue {values : ρ → ρ' → Prop} {program : EStateM ArchiveError ρ α}
    {program' : EStateM ArchiveError ρ' α} (h : Simulates values program program') :
    Simulates (Paired values streams) (CallWith.onValue program) (CallWith.onValue program') := by
  rintro ⟨value, first⟩ ⟨value', second⟩ ⟨hvalue, harchive⟩
  have hrun := h value value' hvalue
  rw [onValue_apply, onValue_apply]
  revert hrun
  generalize program value = result
  generalize program' value' = result'
  rintro (⟨hfinal⟩ | ⟨hfinal⟩)
  · exact .ok ⟨hfinal, harchive⟩
  · exact .error ⟨hfinal, harchive⟩

/-- Calls that start with the same value and do the same with it. -/
theorem simulates_withValue (value : ρ) {call : CallWith ρ σ α} {call' : CallWith ρ τ α}
    (h : Simulates (Paired Eq streams) call call') :
    Simulates (Related streams) (CallWith.withValue value call)
      (CallWith.withValue value call') := by
  intro first second harchive
  have hrun := h (value, first) (value, second) ⟨rfl, harchive⟩
  unfold CallWith.withValue
  revert hrun
  generalize call (value, first) = result
  generalize call' (value, second) = result'
  rintro (⟨hfinal⟩ | ⟨hfinal⟩)
  · exact .ok hfinal.archive
  · exact .error hfinal.archive

end CallWith

end RecordArchive
