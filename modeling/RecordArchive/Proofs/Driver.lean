import RecordArchive.Proofs.Outcome

/-! # Driven programs and the rounds of repetitions

A driver chooses each of its steps by what the steps before it gave. `Program.MeetsError` says that
such a driver meets an error, that it does so within a number of steps, and what the error is like.

* `Program.meetsError`: a driver meets an error if each step either fails as it should or lowers a
  measure.
* `Program.Rounds`: the rounds that a repetition takes, with the result of the last one.
  `Program.exists_rounds` bounds their number.
* Both are judged on one side of a simulation and hold on the other one
  (`Program.MeetsError.of_simulates`, `Program.exists_rounds_of_simulates`). -/

namespace RecordArchive.Program

variable {ε σ τ α : Type}

/-! ## Drivers -/

/-- The next `count` steps of a driver behind steps that gave some values. It chooses each step by
all values before it. -/
def drive (driver : List α → EStateM ε σ α) : Nat → List α → EStateM ε σ (List α)
  | 0, given => pure given
  | count + 1, given => do
    let value ← driver given
    drive driver count (given ++ [value])

/-- **A driver meets an error** of the given kind: at most `bound` of its steps succeed, and the next
one fails. -/
def MeetsError (driver : List α → EStateM ε σ α) (bound : Nat) (expected : ε → Prop)
    (given : List α) (start : σ) : Prop :=
  ∃ count ≤ bound, ∃ values middle error final, drive driver count given start = .ok values middle ∧
    driver values middle = .error error final ∧ expected error

/-- An error within some steps comes within more. -/
theorem MeetsError.mono {driver : List α → EStateM ε σ α} {bound bound' : Nat} {expected : ε → Prop}
    {given : List α} {start : σ} (h : MeetsError driver bound expected given start)
    (hle : bound ≤ bound') : MeetsError driver bound' expected given start := by
  obtain ⟨count, hcount, hsteps⟩ := h
  exact ⟨count, Nat.le_trans hcount hle, hsteps⟩

/-- **Steps that get on** come to an error: if every step fails as expected or lowers a measure, then a
driver meets an error within as many steps as the measure says. -/
theorem meetsError {driver : List α → EStateM ε σ α} {expected : ε → Prop} (inv : σ → Prop)
    (measure : σ → Nat)
    (hstep : ∀ given start, inv start → Outcome
      (fun _ final => inv final ∧ measure final < measure start) (fun error _ => expected error)
      (driver given start))
    (given : List α) {start : σ} (hstart : inv start) :
    MeetsError driver (measure start) expected given start := by
  induction hm : measure start using Nat.strongRecOn generalizing given start with
  | _ bound ih =>
    have hfirst := hstep given start hstart
    cases hrun : driver given start with
    | error error final =>
      exact ⟨0, Nat.zero_le _, given, start, error, final, rfl, hrun, hfirst.of_error hrun⟩
    | ok value middle =>
      -- the measure is lower behind the step, so the error comes by induction
      obtain ⟨hmiddle, hlt⟩ := hfirst.of_ok hrun
      obtain ⟨count, hcount, values, last, error, final, hdrive, herror⟩ :=
        ih (measure middle) (by omega) (given ++ [value]) hmiddle rfl
      refine ⟨count + 1, by omega, values, last, error, final, ?_, herror⟩
      rw [drive, bind_of_ok hrun, hdrive]

/-- A driver of programs that simulate others gets the same values. -/
theorem simulates_drive {related : σ → τ → Prop} {first : List α → EStateM ε σ α}
    {second : List α → EStateM ε τ α} (h : ∀ given, Simulates related (first given) (second given))
    (count : Nat) (given : List α) :
    Simulates related (drive first count given) (drive second count given) := by
  induction count generalizing given with
  | zero => exact .pure given
  | succ count ih => exact (h given).bind fun value => ih (given ++ [value])

/-- A driver of programs meets the error that a driver of programs which they simulate meets. -/
theorem MeetsError.of_simulates {related : σ → τ → Prop} {first : List α → EStateM ε σ α}
    {second : List α → EStateM ε τ α} (h : ∀ given, Simulates related (first given) (second given))
    {bound : Nat} {expected : ε → Prop} {given : List α} {start : σ} {start' : τ}
    (hstart : related start start') (hmeets : MeetsError second bound expected given start') :
    MeetsError first bound expected given start := by
  obtain ⟨count, hcount, values, middle', error, final', hdrive, herror, hexpected⟩ := hmeets
  have hsteps := simulates_drive h count given start start' hstart
  rw [hdrive] at hsteps
  obtain ⟨middle, hrun, hmiddle⟩ := hsteps.exists_ok
  have hlast := h values middle middle' hmiddle
  rw [herror] at hlast
  obtain ⟨final, hfail, -⟩ := hlast.exists_error
  exact ⟨count, hcount, values, middle, error, final, hrun, hfail, hexpected⟩

/-! ## Rounds -/

/-- **The rounds of a repetition**: `count` rounds that ask for another one, and then a last one that
gives the result. -/
inductive Rounds (step : EStateM ε σ (Option α)) : Nat → σ → EStateM.Result ε σ α → Prop
  /-- The round gives a value. -/
  | done {start final : σ} {value : α} (h : step start = .ok (some value) final) :
    Rounds step 0 start (.ok value final)
  /-- The round fails. -/
  | failed {start final : σ} {error : ε} (h : step start = .error error final) :
    Rounds step 0 start (.error error final)
  /-- The round asks for another one. -/
  | next {start middle : σ} {count : Nat} {result : EStateM.Result ε σ α}
    (h : step start = .ok none middle) (hrest : Rounds step count middle result) :
    Rounds step (count + 1) start result

/-- A repetition gives what its last round gives. -/
theorem Rounds.repeatUntil_eq {step : EStateM ε σ (Option α)} {measure : σ → Nat}
    {progress : Spends measure roundCost step} {count : Nat} {start : σ}
    {result : EStateM.Result ε σ α} (h : Rounds step count start result) :
    repeatUntil step measure progress start = result := by
  induction h with
  | done h => rw [repeatUntil_apply, h]
  | failed h => rw [repeatUntil_apply, h]
  | next h _ ih =>
    rw [repeatUntil_apply, h]
    exact ih

/-- **A repetition takes no more rounds than its measure says.** -/
theorem exists_rounds {step : EStateM ε σ (Option α)} {measure : σ → Nat}
    (progress : Spends measure roundCost step) (start : σ) :
    ∃ count ≤ measure start, Rounds step count start (repeatUntil step measure progress start) := by
  induction hm : measure start using Nat.strongRecOn generalizing start with
  | _ bound ih =>
    rw [repeatUntil_apply]
    cases hrun : step start with
    | error error final => exact ⟨0, Nat.zero_le _, .failed hrun⟩
    | ok round middle =>
      cases round with
      | some value => exact ⟨0, Nat.zero_le _, .done hrun⟩
      | none =>
        have hlt := progress.of_ok hrun
        rw [roundCost] at hlt
        obtain ⟨count, hcount, hrounds⟩ := ih (measure middle) (by omega) middle rfl
        exact ⟨count + 1, by omega, .next hrun hrounds⟩

/-- Programs take as many rounds as those that they simulate. -/
theorem Rounds.exists_of_simulates {related : σ → τ → Prop} {first : EStateM ε σ (Option α)}
    {second : EStateM ε τ (Option α)} (h : Simulates related first second) {count : Nat} {start : σ}
    {start' : τ} {result' : EStateM.Result ε τ α} (hstart : related start start')
    (hrounds : Rounds second count start' result') : ∃ result, Rounds first count start result := by
  induction hrounds generalizing start with
  | done hrun =>
    have hround := h _ _ hstart
    rw [hrun] at hround
    obtain ⟨final, hfirst, -⟩ := hround.exists_ok
    exact ⟨_, .done hfirst⟩
  | failed hrun =>
    have hround := h _ _ hstart
    rw [hrun] at hround
    obtain ⟨final, hfirst, -⟩ := hround.exists_error
    exact ⟨_, .failed hfirst⟩
  | next hrun _ ih =>
    have hround := h _ _ hstart
    rw [hrun] at hround
    obtain ⟨middle, hfirst, hmiddle⟩ := hround.exists_ok
    obtain ⟨result, hrest⟩ := ih hmiddle
    exact ⟨result, .next hfirst hrest⟩

/-- A repetition takes no more rounds than the measure of what it simulates says. -/
theorem exists_rounds_of_simulates {related : σ → τ → Prop} {first : EStateM ε σ (Option α)}
    {second : EStateM ε τ (Option α)} (h : Simulates related first second) {measure : σ → Nat}
    {measure' : τ → Nat} {progress : Spends measure roundCost first}
    (progress' : Spends measure' roundCost second) {start : σ} {start' : τ}
    (hstart : related start start') : ∃ count ≤ measure' start',
      Rounds first count start (repeatUntil first measure progress start) := by
  obtain ⟨count, hcount, hrounds⟩ := exists_rounds progress' start'
  obtain ⟨result, hfirst⟩ := hrounds.exists_of_simulates h hstart
  exact ⟨count, hcount, hfirst.repeatUntil_eq ▸ hfirst⟩

end RecordArchive.Program
