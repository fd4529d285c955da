import Mathlib.Data.List.Basic

/-!
# Systems that answer

`step : σ → ι → σ × ο` takes a state and an input to the next state and an answer.

* `answers_eq` — two systems answer alike when a relation of their states and the inputs still to come is kept.
-/
namespace Async

variable {σ τ ι ο : Type}

/-- The answers to the inputs, in their order. -/
def answers (step : σ → ι → σ × ο) : σ → List ι → List ο
  | _, [] => []
  | s, x :: xs => (step s x).2 :: answers step (step s x).1 xs

/-- **Simulation**: the relation may ask something of the inputs that are still to come. -/
theorem answers_eq {step : σ → ι → σ × ο} {step' : τ → ι → τ × ο} {R : List ι → σ → τ → Prop}
    (hstep : ∀ x xs s t, R (x :: xs) s t →
      (step s x).2 = (step' t x).2 ∧ R xs (step s x).1 (step' t x).1)
    {xs : List ι} {s : σ} {t : τ} (hs : R xs s t) : answers step s xs = answers step' t xs := by
  induction xs generalizing s t with
  | nil => rfl
  | cons x xs ih =>
    obtain ⟨hanswer, hnext⟩ := hstep x xs s t hs
    rw [answers, answers, hanswer, ih hnext]

end Async
