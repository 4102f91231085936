/-
  Repetition until nothing changes. Every analysis of a grammar is the outcome of repeating one
  step from a start, with a bound on the number of repetitions that its data cannot reach.
-/

namespace TopDown

/-- Applies `step` until it changes nothing, at most `rounds` times. -/
def stabilize {σ : Type} [DecidableEq σ] (step : σ → σ) : Nat → σ → σ
  | 0, x => x
  | rounds + 1, x =>
    let y := step x
    if y = x then x else stabilize step rounds y

/-- What holds at the start and is kept by the step holds of the outcome. -/
theorem stabilize_induction {σ : Type} [DecidableEq σ] {step : σ → σ} {P : σ → Prop}
    (kept : ∀ x, P x → P (step x)) (rounds : Nat) (x : σ) (h : P x) :
    P (stabilize step rounds x) := by
  induction rounds generalizing x with
  | zero => exact h
  | succ rounds ih =>
    unfold stabilize
    dsimp only
    split
    · exact h
    · exact ih (step x) (kept x h)

/-- If every change increases a measure, the outcome is stable once the measure's bound allows no
further change. -/
theorem step_stabilize {σ : Type} [DecidableEq σ] {step : σ → σ} {P : σ → Prop} (size : σ → Nat)
    (bound : Nat) (kept : ∀ x, P x → P (step x)) (le : ∀ x, P x → size x ≤ bound)
    (grows : ∀ x, P x → step x ≠ x → size x < size (step x)) (rounds : Nat) (x : σ) (h : P x)
    (enough : bound ≤ size x + rounds) :
    step (stabilize step rounds x) = stabilize step rounds x := by
  induction rounds generalizing x with
  | zero =>
    refine Decidable.byContradiction fun changed => ?_
    have := grows x h changed
    have := le (step x) (kept x h)
    omega
  | succ rounds ih =>
    unfold stabilize
    dsimp only
    split
    · next same => exact same
    · next changed =>
      have := grows x h changed
      exact ih (step x) (kept x h) (by omega)

end TopDown
