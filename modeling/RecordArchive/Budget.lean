/-! # Programs with a budget

A program that keeps its state after a failure is a function to `EStateM.Result`. `Spends` says that
such a program never raises a measure of its state, and that a success lowers it by at least the
cost of the result. Programs that spend compose (`Spends.bind`), and `repeatUntil` repeats a program
that spends on every round that asks for another one, so that the repetition ends. -/

namespace RecordArchive

variable {ε σ α β : Type}

/-- The measure of the final state stays below a bound, by the cost of the value if there is one. -/
def Within (measure : σ → Nat) (cost : α → Nat) (bound : Nat) : EStateM.Result ε σ α → Prop
  | .ok value final => measure final + cost value ≤ bound
  | .error _ final => measure final ≤ bound

/-- The program never raises the measure, and a success lowers it by the cost of its result. -/
def Spends (measure : σ → Nat) (cost : α → Nat) (program : EStateM ε σ α) : Prop :=
  ∀ start, Within measure cost (measure start) (program start)

namespace Spends

variable {measure : σ → Nat}

/-- What a success has spent, by the cost of its result. -/
theorem of_ok {cost : α → Nat} {program : EStateM ε σ α} (h : Spends measure cost program)
    {start final : σ} {value : α} (hrun : program start = .ok value final) :
    measure final + cost value ≤ measure start := by
  have := h start
  rwa [hrun] at this

/-- A failure does not raise the measure. -/
theorem of_error {cost : α → Nat} {program : EStateM ε σ α} (h : Spends measure cost program)
    {start final : σ} {error : ε} (hrun : program start = .error error final) :
    measure final ≤ measure start := by
  have := h start
  rwa [hrun] at this

/-- A program spends at least what a program of smaller cost has to. -/
theorem mono {cost lower : α → Nat} {program : EStateM ε σ α} (h : Spends measure cost program)
    (hle : ∀ value, lower value ≤ cost value) : Spends measure lower program := by
  intro start
  have hstart := h start
  cases hrun : program start with
  | ok value final =>
    rw [hrun] at hstart
    exact Nat.le_trans (Nat.add_le_add_left (hle value) _) hstart
  | error error final =>
    rw [hrun] at hstart
    exact hstart

/-- A value without cost spends nothing. -/
theorem pure {cost : α → Nat} (value : α) (h : cost value = 0) :
    Spends measure cost (pure value : EStateM ε σ α) := by
  intro start
  show measure start + cost value ≤ measure start
  omega

/-- A failure at once spends nothing. -/
theorem throw (error : ε) (cost : α → Nat) :
    Spends measure cost (throw error : EStateM ε σ α) := by
  intro start
  exact Nat.le_refl _

/-- Rewording failures costs nothing. -/
theorem adaptExcept {ε' : Type} {cost : α → Nat} {program : EStateM ε σ α}
    (h : Spends measure cost program) (reword : ε → ε') :
    Spends measure cost (EStateM.adaptExcept reword program) := by
  intro start
  have hstart := h start
  unfold EStateM.adaptExcept
  cases hrun : program start <;> simpa only [hrun, Within] using hstart

/-- Two programs in a row spend what both of them spend. -/
theorem bind {cost : α → Nat} (nextCost : α → β → Nat) {total : β → Nat}
    {first : EStateM ε σ α} {next : α → EStateM ε σ β} (hfirst : Spends measure cost first)
    (hnext : ∀ value, Spends measure (nextCost value) (next value))
    (htotal : ∀ value result, total result ≤ cost value + nextCost value result) :
    Spends measure total (first >>= next) := by
  intro start
  have hstart := hfirst start
  show Within measure total (measure start) (EStateM.bind first next start)
  unfold EStateM.bind
  cases hrun : first start with
  | error error middle =>
    rw [hrun] at hstart
    exact hstart
  | ok value middle =>
    rw [hrun] at hstart
    have hmiddle := hnext value middle
    cases hrest : next value middle with
    | error error final =>
      rw [hrest] at hmiddle
      simp only [Within, hrest] at hmiddle hstart ⊢
      omega
    | ok result final =>
      rw [hrest] at hmiddle
      have := htotal value result
      simp only [Within, hrest] at hmiddle hstart ⊢
      omega

/-- A program spends what its last part spends if the first part may be free. -/
theorem bind_of_free {total : β → Nat} {first : EStateM ε σ α} {next : α → EStateM ε σ β}
    (hfirst : Spends measure (fun _ => 0) first)
    (hnext : ∀ value, Spends measure total (next value)) : Spends measure total (first >>= next) :=
  bind (fun _ => total) hfirst hnext fun _ _ => Nat.le_add_left _ _

/-- A program spends what its first part always spends if the last part may be free. -/
theorem bind_free {amount : Nat} {first : EStateM ε σ α} {next : α → EStateM ε σ β}
    (hfirst : Spends measure (fun _ => amount) first)
    (hnext : ∀ value, Spends measure (fun _ => 0) (next value)) :
    Spends measure (fun _ => amount) (first >>= next) :=
  bind (fun _ _ => 0) hfirst hnext fun _ _ => Nat.le_refl _

end Spends

/-- What one round of a repetition costs: one, if it asks for another round. -/
def roundCost : Option α → Nat
  | none => 1
  | some _ => 0

/-- Runs `step` until it gives a value or fails. -/
def repeatUntil (step : EStateM ε σ (Option α)) (measure : σ → Nat)
    (progress : Spends measure roundCost step) : EStateM ε σ α := fun start =>
  match _hrun : step start with
  | .ok (some value) final => .ok value final
  | .ok none middle => repeatUntil step measure progress middle
  | .error error final => .error error final
termination_by start => measure start
decreasing_by
  have := progress.of_ok _hrun
  simp only [roundCost] at this
  omega

/-- A repetition is one round and, if that asks for it, the repetition from there. -/
theorem repeatUntil_apply {step : EStateM ε σ (Option α)} {measure : σ → Nat}
    {progress : Spends measure roundCost step} (start : σ) :
    repeatUntil step measure progress start = match step start with
      | .ok (some value) final => .ok value final
      | .ok none middle => repeatUntil step measure progress middle
      | .error error final => .error error final := by
  rw [repeatUntil]
  split <;> simp_all

/-- What holds of a state and is kept by every round that asks for another one leads to what every
last round makes of it. -/
theorem repeatUntil_induction {step : EStateM ε σ (Option α)} {measure : σ → Nat}
    {progress : Spends measure roundCost step} (inv : σ → Prop)
    (post : EStateM.Result ε σ α → Prop)
    (hnext : ∀ start middle, inv start → step start = .ok none middle → inv middle)
    (hdone : ∀ start value final, inv start → step start = .ok (some value) final →
      post (.ok value final))
    (hfail : ∀ start error final, inv start → step start = .error error final →
      post (.error error final))
    (start : σ) (hstart : inv start) : post (repeatUntil step measure progress start) := by
  induction hm : measure start using Nat.strongRecOn generalizing start with
  | _ bound ih =>
    rw [repeatUntil_apply]
    split
    next value final hrun => exact hdone _ _ _ hstart hrun
    next middle hrun =>
      have hlt := progress.of_ok hrun
      simp only [roundCost] at hlt
      exact ih (measure middle) (by omega) middle (hnext _ _ hstart hrun) rfl
    next error final hrun => exact hfail _ _ _ hstart hrun

/-- A repetition spends what its last round spends. -/
theorem repeatUntil_spends {step : EStateM ε σ (Option α)} {measure : σ → Nat}
    {progress : Spends measure roundCost step} {cost : α → Nat}
    (h : Spends measure (fun round => round.elim 1 cost) step) :
    Spends measure cost (repeatUntil step measure progress) := by
  intro start
  refine repeatUntil_induction (fun state => measure state ≤ measure start)
    (Within measure cost (measure start)) ?_ ?_ ?_ start (Nat.le_refl _)
  · intro state middle hstate hrun
    have := h.of_ok hrun
    simp only [Option.elim] at this
    omega
  · intro state value final hstate hrun
    have := h.of_ok hrun
    simp only [Option.elim, Within] at this ⊢
    omega
  · intro state error final hstate hrun
    have := h.of_error hrun
    simp only [Within]
    omega

end RecordArchive
