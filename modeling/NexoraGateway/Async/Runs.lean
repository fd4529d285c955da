import Mathlib.Data.List.Basic

/-!
# Runs of a system

A system is a function `step : σ → ι → σ`: what a state becomes by one input. `exec` is its run over a list of
inputs, and `Along` says that every step of the run meets a condition on the state it is taken in and its input.
-/
namespace Async.Runs

variable {σ ι : Type} (step : σ → ι → σ)

def exec (s : σ) (xs : List ι) : σ := xs.foldl step s

@[simp] theorem exec_nil (s : σ) : exec step s [] = s := rfl
@[simp] theorem exec_cons (s : σ) (x : ι) (xs : List ι) : exec step s (x :: xs) = exec step (step s x) xs := rfl
theorem exec_append (s : σ) (xs ys : List ι) : exec step s (xs ++ ys) = exec step (exec step s xs) ys :=
  List.foldl_append

variable (cond : σ → ι → Prop)

def Along : σ → List ι → Prop
  | _, [] => True
  | s, x :: xs => cond s x ∧ Along (step s x) xs

instance instDecidableAlong [∀ s x, Decidable (cond s x)] : (s : σ) → (xs : List ι) → Decidable (Along step cond s xs)
  | _, [] => inferInstanceAs (Decidable True)
  | s, x :: xs =>
    have := instDecidableAlong (step s x) xs
    inferInstanceAs (Decidable (_ ∧ _))

variable {step cond} {s : σ} {xs ys : List ι}

theorem along_append : Along step cond s (xs ++ ys) ↔ Along step cond s xs ∧ Along step cond (exec step s xs) ys := by
  induction xs generalizing s with
  | nil => simp [Along]
  | cons x xs ih => simp [Along, ih, and_assoc]

/-- A condition holds along a run when it holds after each of its beginnings. -/
theorem along_iff : Along step cond s xs ↔ ∀ ys x, ys ++ [x] <+: xs → cond (exec step s ys) x := by
  constructor
  · rintro h ys x ⟨zs, rfl⟩
    exact (along_append.1 (along_append.1 h).1).2.1
  · induction xs generalizing s with
    | nil => exact fun _ => trivial
    | cons x xs ih =>
      intro h
      refine ⟨h [] x ⟨xs, rfl⟩, ih fun ys y hys => ?_⟩
      exact h (x :: ys) y (List.cons_prefix_cons.2 ⟨rfl, hys⟩)

theorem Along.and {cond' : σ → ι → Prop} (h : Along step cond s xs) (h' : Along step cond' s xs) :
    Along step (fun s x => cond s x ∧ cond' s x) s xs := by
  induction xs generalizing s with
  | nil => trivial
  | cons x xs ih => exact ⟨⟨h.1, h'.1⟩, ih h.2 h'.2⟩

/-- A condition on the inputs alone holds along a run when it holds of each. -/
theorem along_of_forall {P : ι → Prop} (h : ∀ x ∈ xs, P x) (s : σ) : Along step (fun _ x => P x) s xs := by
  induction xs generalizing s with
  | nil => trivial
  | cons x xs ih =>
    exact ⟨h x List.mem_cons_self, ih (fun y hy => h y (List.mem_cons_of_mem x hy)) (step s x)⟩

/-- **The invariant rule**: what holds at first and is kept by every step that meets the condition holds in
every state of a run whose steps all do. -/
theorem exec_inv {I : σ → Prop} (hstep : ∀ s x, I s → cond s x → I (step s x)) (hs : I s)
    (hxs : Along step cond s xs) : I (exec step s xs) := by
  induction xs generalizing s with
  | nil => exact hs
  | cons x xs ih => exact ih (hstep s x hs hxs.1) hxs.2

/-- Steps that meet a condition meet another one where an invariant that they keep makes the first imply it. -/
theorem Along.of_inv {I : σ → Prop} {cond' : σ → ι → Prop}
    (hstep : ∀ s x, I s → cond s x → I (step s x) ∧ cond' s x) (hs : I s) (hxs : Along step cond s xs) :
    Along step cond' s xs := by
  induction xs generalizing s with
  | nil => trivial
  | cons x xs ih =>
    obtain ⟨hinv, hx⟩ := hstep s x hs hxs.1
    exact ⟨hx, ih hinv hxs.2⟩

/-- Two conditions that agree under an invariant of every step are met by the same runs. -/
theorem along_congr {I : σ → Prop} {cond' : σ → ι → Prop} (hkept : ∀ s x, I s → I (step s x))
    (hcond : ∀ s x, I s → (cond s x ↔ cond' s x)) (hs : I s) :
    Along step cond s xs ↔ Along step cond' s xs :=
  ⟨Along.of_inv (fun s x hI hx => ⟨hkept s x hI, (hcond s x hI).1 hx⟩) hs,
    Along.of_inv (fun s x hI hx => ⟨hkept s x hI, (hcond s x hI).2 hx⟩) hs⟩

/-- The same for an invariant that every step keeps. -/
theorem exec_inv' {I : σ → Prop} (hstep : ∀ s x, I s → I (step s x)) (hs : I s) (xs : List ι) :
    I (exec step s xs) := by
  induction xs generalizing s with
  | nil => exact hs
  | cons x xs ih => exact ih (hstep s x hs)

/-- **Unwinding**: two runs stay related when one of them leaves out inputs that the relation does not see. -/
theorem exec_filter {R : σ → σ → Prop} {hidden : ι → Prop} [DecidablePred hidden]
    (hhidden : ∀ s s' x, R s s' → hidden x → R (step s x) s') (hstep : ∀ s s' x, R s s' → R (step s x) (step s' x))
    {s' : σ} (hs : R s s') (xs : List ι) : R (exec step s xs) (exec step s' (xs.filter fun x => ¬ hidden x)) := by
  induction xs generalizing s s' with
  | nil => exact hs
  | cons x xs ih =>
    by_cases hx : hidden x
    · rw [List.filter_cons_of_neg (by simpa using hx)]
      exact ih (hhidden s s' x hs hx)
    · rw [List.filter_cons_of_pos (by simpa using hx)]
      exact ih (hstep s s' x hs)

variable (step cond) in
/-- A run whose steps all meet the condition leads from `s` to `s'`. -/
def Reachable (s s' : σ) : Prop := ∃ xs, Along step cond s xs ∧ exec step s xs = s'

theorem Reachable.refl (s : σ) : Reachable step cond s s := ⟨[], trivial, rfl⟩

theorem Reachable.snoc {s' : σ} (h : Reachable step cond s s') {x : ι} (hx : cond s' x) :
    Reachable step cond s (step s' x) := by
  obtain ⟨xs, hxs, rfl⟩ := h
  refine ⟨xs ++ [x], along_append.2 ⟨hxs, hx, trivial⟩, ?_⟩
  simp only [exec_append, exec_cons, exec_nil]

theorem Reachable.inv {s' : σ} (h : Reachable step cond s s') {I : σ → Prop}
    (hstep : ∀ s x, I s → cond s x → I (step s x)) (hs : I s) : I s' := by
  obtain ⟨xs, hxs, rfl⟩ := h
  exact exec_inv hstep hs hxs

end Async.Runs
