import RecordArchive.Budget

/-! # Successes and simulations of programs

A program that keeps its state after a failure is judged in two ways.

* **Successes.** `Program.bind_eq_ok` opens a success of two programs in a row, and
  `Program.repeatUntil_iff` says what a repetition decides if each of its rounds decides it.
* **Simulations.** `Program.Simulates related first second` says that two programs that start in
  related states give the same value or the same error and end in related states. Simulations
  compose along programs, and repetitions of programs that simulate each other do so too. -/

namespace RecordArchive.Program

variable {ε σ τ α β : Type}

/-! ## Successes -/

/-- Two programs in a row: the second one starts with the value and in the state that the first one
leaves, unless that fails. -/
theorem bind_apply (first : EStateM ε σ α) (next : α → EStateM ε σ β) (start : σ) :
    (first >>= next) start = match first start with
      | .ok value middle => next value middle
      | .error error final => .error error final := rfl

/-- A success of two programs in a row is a success of both. -/
theorem bind_eq_ok {first : EStateM ε σ α} {next : α → EStateM ε σ β} {start final : σ}
    {result : β} : (first >>= next) start = .ok result final ↔
      ∃ value middle, first start = .ok value middle ∧ next value middle = .ok result final := by
  rw [bind_apply]
  cases hfirst : first start with
  | ok value middle =>
    constructor
    · exact fun h => ⟨value, middle, rfl, h⟩
    · rintro ⟨_, _, h, hnext⟩
      cases h
      exact hnext
  | error error middle => simp

/-- After a success of the first program the second one decides. -/
theorem bind_of_ok {first : EStateM ε σ α} {next : α → EStateM ε σ β} {start middle : σ} {value : α}
    (h : first start = .ok value middle) : (first >>= next) start = next value middle := by
  rw [bind_apply, h]

/-- A failure of the first program is one of both. -/
theorem bind_of_error {first : EStateM ε σ α} {next : α → EStateM ε σ β} {start final : σ}
    {error : ε} (h : first start = .error error final) :
    (first >>= next) start = .error error final := by
  rw [bind_apply, h]

/-- Programs in a row that agree behind the first one agree. -/
theorem bind_eq_of_ok {first : EStateM ε σ α} {next : α → EStateM ε σ β} {start start' middle : σ}
    {value : α} (h : first start = .ok value middle) (h' : first start' = .ok value middle) :
    (first >>= next) start = (first >>= next) start' := by
  rw [bind_of_ok h, bind_of_ok h']

/-- A value at once is given, and changes nothing. -/
theorem pure_eq_ok {start final : σ} {value result : α} :
    (pure value : EStateM ε σ α) start = .ok result final ↔ value = result ∧ start = final := by
  show EStateM.Result.ok value start = .ok result final ↔ _
  rw [EStateM.Result.ok.injEq]

/-- A failure at once is no success. -/
theorem throw_eq_ok {start final : σ} {error : ε} {result : α} :
    (throw error : EStateM ε σ α) start = .ok result final ↔ False := by
  show EStateM.Result.error error start = .ok result final ↔ _
  simp

/-- A program that goes on with the value of another one gives that value changed. -/
theorem map_eq_ok {program : EStateM ε σ α} {change : α → β} {start final : σ} {result : β} :
    (change <$> program) start = .ok result final ↔
      ∃ value, program start = .ok value final ∧ change value = result := by
  show (program >>= fun value => pure (change value)) start = .ok result final ↔ _
  rw [bind_eq_ok]
  constructor
  · rintro ⟨value, middle, hprogram, hpure⟩
    obtain ⟨rfl, rfl⟩ := pure_eq_ok.mp hpure
    exact ⟨value, hprogram, rfl⟩
  · rintro ⟨value, hprogram, rfl⟩
    exact ⟨value, final, hprogram, rfl⟩

/-- Rewording failures keeps the successes. -/
theorem adaptExcept_eq_ok {ε' : Type} {program : EStateM ε σ α} {reword : ε → ε'} {start final : σ}
    {result : α} : EStateM.adaptExcept reword program start = .ok result final ↔
      program start = .ok result final := by
  unfold EStateM.adaptExcept
  cases program start <;> simp

/-- A failure is reworded. -/
theorem adaptExcept_of_error {ε' : Type} {program : EStateM ε σ α} {reword : ε → ε'}
    {start final : σ} {error : ε} (h : program start = .error error final) :
    EStateM.adaptExcept reword program start = .error (reword error) final := by
  unfold EStateM.adaptExcept
  rw [h]

/-- A success of a repetition ends with a round that gives the value, in a state in which whatever every
other round keeps still holds. -/
theorem exists_of_repeatUntil_eq_ok {step : EStateM ε σ (Option α)} {measure : σ → Nat}
    {progress : Spends measure roundCost step} (inv : σ → Prop)
    (hnext : ∀ start middle, inv start → step start = .ok none middle → inv middle)
    {start final : σ} {result : α} (hstart : inv start)
    (h : repeatUntil step measure progress start = .ok result final) :
    ∃ last, inv last ∧ step last = .ok (some result) final := by
  -- the last round is the only one that gives a value, and it starts where the others end
  refine @repeatUntil_induction _ _ _ step measure progress inv
    (fun outcome => outcome = .ok result final → ∃ last, inv last ∧ step last = .ok (some result) final)
    hnext ?_ ?_ start hstart h
  · intro state value _ hstate hround heq
    cases heq
    exact ⟨state, hstate, hround⟩
  · intro _ _ _ _ _ heq
    cases heq

/-- **What a repetition decides.** If every round decides whether a condition holds, in that the state
after a round that asks for another one fulfils it again and a last round ends as it should, then so
does the repetition. -/
theorem repeatUntil_iff {step : EStateM ε σ (Option α)} {measure : σ → Nat}
    {progress : Spends measure roundCost step} (inv before : σ → Prop) (after : α → σ → Prop)
    (hinv : ∀ start final, inv start → step start = .ok none final → inv final)
    (hstep : ∀ start, inv start → (before start ↔ ∃ round final, step start = .ok round final ∧
      round.elim (before final) fun value => after value final)) {start : σ} (hstart : inv start) :
    before start ↔
      ∃ value final, repeatUntil step measure progress start = .ok value final ∧
        after value final := by
  induction hm : measure start using Nat.strongRecOn generalizing start with
  | _ bound ih =>
    rw [hstep start hstart, repeatUntil_apply]
    cases hrun : step start with
    | error error final => simp
    | ok round middle =>
      cases round with
      | some value =>
        -- A last round: the repetition ends as the round does.
        constructor
        · rintro ⟨_, _, heq, hafter⟩
          cases heq
          exact ⟨value, middle, rfl, hafter⟩
        · rintro ⟨_, _, heq, hafter⟩
          cases heq
          exact ⟨some value, middle, rfl, hafter⟩
      | none =>
        -- One more round: the measure is lower, so what follows decides by induction.
        have hlt := progress.of_ok hrun
        rw [roundCost] at hlt
        have hmiddle := ih (measure middle) (by omega) (hinv start middle hstart hrun) rfl
        constructor
        · rintro ⟨_, _, heq, hbefore⟩
          cases heq
          exact hmiddle.mp hbefore
        · exact fun h => ⟨none, middle, rfl, hmiddle.mpr h⟩

/-! ## Simulations -/

/-- Two results agree: the same value or the same error, and related final states. -/
inductive Agree (related : σ → τ → Prop) :
    EStateM.Result ε σ α → EStateM.Result ε τ α → Prop
  /-- Both succeed. -/
  | ok {value : α} {first : σ} {second : τ} (h : related first second) :
    Agree related (.ok value first) (.ok value second)
  /-- Both fail. -/
  | error {error : ε} {first : σ} {second : τ} (h : related first second) :
    Agree related (.error error first) (.error error second)

/-- A success has a counterpart with the same value. -/
theorem Agree.exists_ok {related : σ → τ → Prop} {first : EStateM.Result ε σ α} {value : α}
    {second : τ} (h : Agree related first (.ok value second)) :
    ∃ final, first = .ok value final ∧ related final second := by
  cases h with
  | ok hrelated => exact ⟨_, rfl, hrelated⟩

/-- A failure has a counterpart with the same error. -/
theorem Agree.exists_error {related : σ → τ → Prop} {first : EStateM.Result ε σ α} {error : ε}
    {second : τ} (h : Agree related first (.error error second)) :
    ∃ final, first = .error error final ∧ related final second := by
  cases h with
  | error hrelated => exact ⟨_, rfl, hrelated⟩

/-- A success stands opposite a success with the same value. -/
theorem Agree.exists_ok_right {related : σ → τ → Prop} {value : α} {first : σ}
    {second : EStateM.Result ε τ α} (h : Agree related (.ok value first) second) :
    ∃ final, second = .ok value final ∧ related first final := by
  cases h with
  | ok hrelated => exact ⟨_, rfl, hrelated⟩

/-- A failure stands opposite a failure with the same error. -/
theorem Agree.exists_error_right {related : σ → τ → Prop} {error : ε} {first : σ}
    {second : EStateM.Result ε τ α} (h : Agree related (.error error first) second) :
    ∃ final, second = .error error final ∧ related first final := by
  cases h with
  | error hrelated => exact ⟨_, rfl, hrelated⟩

/-- One of two results that agree is a success if the other is. -/
theorem Agree.exists_ok_iff {related : σ → τ → Prop} {first : EStateM.Result ε σ α}
    {second : EStateM.Result ε τ α} (h : Agree related first second) (value : α) :
    (∃ final, first = .ok value final) ↔ ∃ final, second = .ok value final := by
  constructor
  · rintro ⟨final, rfl⟩
    obtain ⟨final', hsecond, -⟩ := h.exists_ok_right
    exact ⟨final', hsecond⟩
  · rintro ⟨final, rfl⟩
    obtain ⟨final', hfirst, -⟩ := h.exists_ok
    exact ⟨final', hfirst⟩

/-- Results that agree also agree up to a weaker relation. -/
theorem Agree.mono {related related' : σ → τ → Prop} {first : EStateM.Result ε σ α}
    {second : EStateM.Result ε τ α} (h : Agree related first second)
    (hmono : ∀ final final', related final final' → related' final final') :
    Agree related' first second := by
  cases h with
  | ok hrelated => exact .ok (hmono _ _ hrelated)
  | error hrelated => exact .error (hmono _ _ hrelated)

/-- Results that agree with the same second one agree through it. -/
theorem Agree.trans {ρ : Type} {related : σ → τ → Prop} {related' : τ → ρ → Prop}
    {first : EStateM.Result ε σ α} {second : EStateM.Result ε τ α} {third : EStateM.Result ε ρ α}
    (h : Agree related first second) (h' : Agree related' second third) :
    Agree (fun final final' => ∃ kept, related final kept ∧ related' kept final') first third := by
  cases h with
  | ok hrelated =>
    obtain ⟨final, rfl, hfinal⟩ := h'.exists_ok_right
    exact .ok ⟨_, hrelated, hfinal⟩
  | error hrelated =>
    obtain ⟨final, rfl, hfinal⟩ := h'.exists_error_right
    exact .error ⟨_, hrelated, hfinal⟩

/-- Two results that agree with the same third one agree with each other. -/
theorem Agree.join {ρ : Type} {related : σ → ρ → Prop} {related' : τ → ρ → Prop}
    {first : EStateM.Result ε σ α} {second : EStateM.Result ε τ α} {third : EStateM.Result ε ρ α}
    (h : Agree related first third) (h' : Agree related' second third) :
    Agree (fun final final' => ∃ kept, related final kept ∧ related' final' kept) first second := by
  cases h with
  | ok hrelated =>
    obtain ⟨final, rfl, hfinal⟩ := h'.exists_ok
    exact .ok ⟨_, hrelated, hfinal⟩
  | error hrelated =>
    obtain ⟨final, rfl, hfinal⟩ := h'.exists_error
    exact .error ⟨_, hrelated, hfinal⟩

/-- Programs that start in related states agree. -/
def Simulates (related : σ → τ → Prop) (first : EStateM ε σ α) (second : EStateM ε τ α) : Prop :=
  ∀ start start', related start start' → Agree related (first start) (second start')

namespace Simulates

variable {related : σ → τ → Prop}

/-- A value at once is the same for both. -/
theorem pure (value : α) :
    Simulates related (Pure.pure value : EStateM ε σ α) (Pure.pure value : EStateM ε τ α) :=
  fun _ _ h => .ok h

/-- A failure at once is the same for both. -/
theorem throw (error : ε) :
    Simulates related (MonadExcept.throw error : EStateM ε σ α)
      (MonadExcept.throw error : EStateM ε τ α) :=
  fun _ _ h => .error h

/-- Every program does the same when it starts in the same state. -/
theorem refl (program : EStateM ε σ α) : Simulates Eq program program := by
  rintro start _ rfl
  cases program start with
  | ok value final => exact .ok rfl
  | error error final => exact .error rfl

/-- Programs in a row simulate each other part by part. -/
theorem bind {first : EStateM ε σ α} {first' : EStateM ε τ α} {next : α → EStateM ε σ β}
    {next' : α → EStateM ε τ β} (hfirst : Simulates related first first')
    (hnext : ∀ value, Simulates related (next value) (next' value)) :
    Simulates related (first >>= next) (first' >>= next') := by
  intro start start' hstart
  have hmiddle := hfirst start start' hstart
  rw [bind_apply, bind_apply]
  revert hmiddle
  generalize first start = middle
  generalize first' start' = middle'
  rintro (⟨h⟩ | ⟨h⟩)
  · exact hnext _ _ _ h
  · exact .error h

/-- Rewording failures on both sides keeps a simulation. -/
theorem adaptExcept {ε' : Type} {first : EStateM ε σ α} {second : EStateM ε τ α}
    (h : Simulates related first second) (reword : ε → ε') :
    Simulates related (EStateM.adaptExcept reword first) (EStateM.adaptExcept reword second) := by
  intro start start' hstart
  have hresult := h start start' hstart
  unfold EStateM.adaptExcept
  revert hresult
  generalize first start = result
  generalize second start' = result'
  rintro (⟨h⟩ | ⟨h⟩)
  · exact .ok h
  · exact .error h

/-- Programs that branch on the same condition simulate each other branch by branch. -/
theorem ite {condition : Prop} [Decidable condition] {first first' : EStateM ε σ α}
    {second second' : EStateM ε τ α} (h : Simulates related first second)
    (h' : Simulates related first' second') :
    Simulates related (if condition then first else first')
      (if condition then second else second') := by
  split
  · exact h
  · exact h'

/-- Programs for the members of a list, one after another. -/
theorem forM {γ : Type} {first : γ → EStateM ε σ Unit} {second : γ → EStateM ε τ Unit}
    (h : ∀ member, Simulates related (first member) (second member)) (members : List γ) :
    Simulates related (members.forM first) (members.forM second) := by
  induction members with
  | nil => exact .pure ()
  | cons member members ih => exact (h member).bind fun _ => ih

/-- **Repetitions** of programs that simulate each other simulate each other. -/
theorem repeatUntil {step : EStateM ε σ (Option α)} {step' : EStateM ε τ (Option α)}
    {measure : σ → Nat} {measure' : τ → Nat} {progress : Spends measure roundCost step}
    {progress' : Spends measure' roundCost step'} (h : Simulates related step step') :
    Simulates related (repeatUntil step measure progress)
      (repeatUntil step' measure' progress') := by
  intro start start' hstart
  -- Every round lowers the measure, so the rounds ahead are what the induction is on.
  induction hm : measure start using Nat.strongRecOn generalizing start start' with
  | _ bound ih =>
    rw [repeatUntil_apply, repeatUntil_apply]
    have hround := h start start' hstart
    have hcost := fun final value (hrun : step start = .ok value final) => progress.of_ok hrun
    revert hround hcost
    generalize step start = round
    generalize step' start' = round'
    rintro (⟨hnext⟩ | ⟨hnext⟩) hcost
    next value middle middle' =>
      cases value with
      | some value => exact .ok hnext
      | none =>
        -- Both go on from related states.
        have hlt := hcost _ _ rfl
        simp only [roundCost] at hlt
        exact ih (measure middle) (by omega) middle middle' hnext rfl
    next => exact .error hnext

end Simulates

end RecordArchive.Program
