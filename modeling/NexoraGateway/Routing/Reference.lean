import NexoraGateway.Async.Transducer
import NexoraGateway.Routing.CircuitBreaker

/-!
# The circuit breaker as an automaton of two numbers

Used by one caller at a time the breaker is determined by how many failures there were since the last success or
reset, and by when the last of them was: `Reference`. The breaker stores a state besides them and brings it up to
date late, in `execute` and `getState`; nobody can tell (`answers_eq_reference`).
-/
namespace NexoraGateway.Routing

open Async

/-- A call of one of the methods. Of `execute` the outcome of the wrapped function is a part; its second reading of
the clock is that of the error or that of the failure, whichever it comes to. -/
inductive Request where
  | execute (now later : Time) (succeeds : Bool)
  | getState (now : Time)
  | getFailureCount
  | reset

/-- What the caller sees. -/
inductive Response where
  | invoked
  | rejected (retryAfterMs : ℚ)
  | state (s : CircuitState)
  | failures (n : ℕ)
  | done
  deriving DecidableEq

/-- The readings of the clock during a call. -/
def Request.readings : Request → List Time
  | .execute now later _ => [now, later]
  | .getState now => [now]
  | .getFailureCount | .reset => []

/-- What the clock has reached after a call. -/
def Request.clock (before : Time) : Request → Time
  | .execute _ later _ => later
  | .getState now => now
  | .getFailureCount | .reset => before

variable (options : CircuitBreakerOptions)

def CircuitBreaker.serve (b : CircuitBreaker) : Request → CircuitBreaker × Response
  | .execute now later succeeds =>
    match b.execute options now later with
    | .error retryAfterMs => (b, .rejected retryAfterMs)
    | .ok b' => (if succeeds then .onSuccess else b'.onFailure options later, .invoked)
  | .getState now => (b.getState options now, .state (b.getState options now).state)
  | .getFailureCount => (b, .failures b.getFailureCount)
  | .reset => (.reset, .done)

/-- The number of failures since the last success or reset, and the time of the last failure. -/
structure Reference where
  c : ℕ := 0
  last : Time := 0

namespace Reference

/-- CLOSED below the threshold; from there on OPEN until the timeout has passed since the last failure, and
HALF_OPEN afterwards. -/
def stateAt (r : Reference) (now : Time) : CircuitState :=
  if (r.c : ℚ) < options.failureThreshold then .closed
  else if elapsed now r.last < options.recoveryTimeout then .opened
  else .halfOpen

/-- What is left of the timeout. -/
def remaining (r : Reference) (now : Time) : ℚ := max 0 (options.recoveryTimeout - elapsed now r.last)

def serve (r : Reference) : Request → Reference × Response
  | .execute now later succeeds =>
    if r.stateAt options now = .opened then (r, .rejected (r.remaining options later))
    else (if succeeds then { r with c := 0 } else ⟨r.c + 1, later⟩, .invoked)
  | .getState now => (r, .state (r.stateAt options now))
  | .getFailureCount => (r, .failures r.c)
  | .reset => ({ r with c := 0 }, .done)

/-- How the breaker stores the two numbers, the clock having reached `clock`. -/
structure Stored (clock : Time) (b : CircuitBreaker) (r : Reference) : Prop where
  failures : b.failures = r.c
  last : 0 < r.c → b.lastFailureTime = some r.last ∧ 0 < r.last
  closed : b.state = .closed ↔ (r.c : ℚ) < options.failureThreshold
  halfOpen : b.state = .halfOpen → options.recoveryTimeout ≤ elapsed clock r.last

variable {options} {clock now : Time} {b : CircuitBreaker} {r : Reference}

theorem stateAt_of_lt (h : (r.c : ℚ) < options.failureThreshold) : r.stateAt options now = .closed := if_pos h

theorem stateAt_of_not_lt (h : ¬ (r.c : ℚ) < options.failureThreshold) : r.stateAt options now =
    if elapsed now r.last < options.recoveryTimeout then .opened else .halfOpen := if_neg h

theorem Stored.later (h : Stored options clock b r) (hclock : clock ≤ now) : Stored options now b r :=
  { h with halfOpen := fun hstate => (h.halfOpen hstate).trans (elapsed_mono hclock) }

/-- What a failure leaves. -/
theorem Stored.onFailure (h : Stored options clock b r) (hpos : 0 < now) :
    Stored options now (b.onFailure options now) ⟨r.c + 1, now⟩ := by
  have hcount : b.failures + 1 = r.c + 1 := by rw [h.failures]
  by_cases hle : options.failureThreshold ≤ ((r.c + 1 : ℕ) : ℚ)
  · have hstate := CircuitBreaker.onFailure_state_of_le now (hcount ▸ hle)
    refine ⟨hcount, fun _ => ⟨rfl, hpos⟩, ?_, ?_⟩
    · rw [hstate]
      exact iff_of_false nofun (not_lt.2 hle)
    · rw [hstate]
      exact nofun
  · have hlt := not_le.1 hle
    have hstate := CircuitBreaker.onFailure_state_of_lt now (hcount ▸ hlt)
    -- one failure less is below the threshold as well
    have hclosed : b.state = .closed := h.closed.2 (lt_trans (by exact_mod_cast Nat.lt_succ_self r.c) hlt)
    refine ⟨hcount, fun _ => ⟨rfl, hpos⟩, ?_, ?_⟩
    · rw [hstate]
      exact iff_of_true hclosed hlt
    · rw [hstate, hclosed]
      exact nofun

section
variable (hthreshold : 1 ≤ options.failureThreshold)
include hthreshold

/-- What a success and a reset leave. -/
theorem Stored.closed_zero (clock last : Time) :
    Stored options clock { state := .closed, failures := 0, lastFailureTime := none } ⟨0, last⟩ := by
  refine ⟨rfl, fun h => absurd h (lt_irrefl 0), iff_of_true rfl ?_, nofun⟩
  rw [Nat.cast_zero]
  linarith

/-- At the threshold and above there has been a failure. -/
theorem Stored.last_of_ne_closed (h : Stored options clock b r) (hstate : b.state ≠ .closed) :
    b.lastFailureTime = some r.last ∧ r.last ≠ 0 := by
  have hle : 1 ≤ (r.c : ℚ) := hthreshold.trans (not_lt.1 fun hlt => hstate (h.closed.2 hlt))
  obtain ⟨hlast, hpos⟩ := h.last (by exact_mod_cast hle)
  exact ⟨hlast, hpos.ne'⟩

theorem Stored.due_iff (h : Stored options clock b r) (hstate : b.state ≠ .closed) :
    b.shouldAttemptRecovery options now = true ↔ ¬ elapsed now r.last < options.recoveryTimeout := by
  obtain ⟨hlast, hne⟩ := h.last_of_ne_closed hthreshold hstate
  rw [CircuitBreaker.shouldAttemptRecovery_iff hlast hne, not_lt]

/-- **Reading the breaker** brings it up to date, and shows the state of the automaton. -/
theorem Stored.getState (h : Stored options clock b r) (hclock : clock ≤ now) :
    Stored options now (b.getState options now) r ∧ (b.getState options now).state = r.stateAt options now := by
  have hnow := h.later hclock
  rcases CircuitBreaker.getState_cases options b now with ⟨hne, hb⟩ | ⟨hopen, hdue, hb⟩ | ⟨hopen, hdue, hb⟩
  · rw [hb]
    refine ⟨hnow, ?_⟩
    cases hstate : b.state with
    | closed => rw [stateAt_of_lt (h.closed.1 hstate)]
    | opened => exact absurd hstate hne
    | halfOpen =>
      have hthrough : ¬ (r.c : ℚ) < options.failureThreshold := fun hlt => by simp [h.closed.2 hlt] at hstate
      rw [stateAt_of_not_lt hthrough, if_neg (not_lt.2 (hnow.halfOpen hstate))]
  · have hclosed : b.state ≠ .closed := by simp [hopen]
    have hearly : elapsed now r.last < options.recoveryTimeout := by
      by_contra hlate
      rw [(h.due_iff hthreshold hclosed).2 hlate] at hdue
      cases hdue
    rw [hb]
    refine ⟨hnow, ?_⟩
    rw [hopen, stateAt_of_not_lt (fun hlt => hclosed (h.closed.2 hlt)), if_pos hearly]
  · have hclosed : b.state ≠ .closed := by simp [hopen]
    have hlate := (h.due_iff hthreshold hclosed).1 hdue
    have hthrough : ¬ (r.c : ℚ) < options.failureThreshold := fun hlt => hclosed (h.closed.2 hlt)
    rw [hb, stateAt_of_not_lt hthrough, if_neg hlate]
    exact ⟨⟨h.failures, h.last, iff_of_false nofun hthrough, fun _ => not_lt.1 hlate⟩, rfl⟩

/-- **One call** is answered alike. -/
theorem Stored.serve (h : Stored options clock b r) {x : Request}
    (hclock : (clock :: x.readings).Pairwise (· ≤ ·)) (hpos : ∀ t ∈ x.readings, 0 < t) :
    (b.serve options x).2 = (r.serve options x).2 ∧
      Stored options (x.clock clock) (b.serve options x).1 (r.serve options x).1 := by
  cases x with
  | execute now later succeeds =>
    have hnow : clock ≤ now := List.rel_of_pairwise_cons hclock List.mem_cons_self
    have hlater : now ≤ later := List.rel_of_pairwise_cons (List.Pairwise.of_cons hclock) List.mem_cons_self
    obtain ⟨hread, hstate⟩ := h.getState hthreshold hnow
    by_cases hopen : r.stateAt options now = .opened
    · have hopen' : (b.getState options now).state = .opened := hstate.trans hopen
      have hclosed : b.state ≠ .closed := fun hclosed => by
        rw [CircuitBreaker.getState_of_ne (by simp [hclosed]), hclosed] at hopen'
        cases hopen'
      obtain ⟨hlast, hne⟩ := h.last_of_ne_closed hthreshold hclosed
      simp only [CircuitBreaker.serve, CircuitBreaker.execute_of_opened hopen', Reference.serve, if_pos hopen,
        CircuitBreaker.getRemainingRecoveryTime_eq hlast hne]
      exact ⟨rfl, h.later (hnow.trans hlater)⟩
    · have hopen' : (b.getState options now).state ≠ .opened := hstate ▸ hopen
      simp only [CircuitBreaker.serve, CircuitBreaker.execute_of_ne_opened hopen', Reference.serve, if_neg hopen]
      refine ⟨trivial, ?_⟩
      cases succeeds with
      | true => exact Stored.closed_zero hthreshold later r.last
      | false => exact hread.onFailure (hpos later (by simp [Request.readings]))
  | getState now =>
    obtain ⟨hread, hstate⟩ := h.getState hthreshold (List.rel_of_pairwise_cons hclock List.mem_cons_self)
    exact ⟨congrArg Response.state hstate, hread⟩
  | getFailureCount => exact ⟨congrArg Response.failures h.failures, h⟩
  | reset => exact ⟨rfl, Stored.closed_zero hthreshold clock r.last⟩

end

/-- **The breaker behaves as the automaton**: for any calls, one after the other, and a clock that does not go back,
it answers what the automaton answers. -/
theorem answers_eq_reference (hthreshold : 1 ≤ options.failureThreshold) (xs : List Request)
    (hclock : (xs.flatMap Request.readings).Pairwise (· ≤ ·)) (hpos : ∀ t ∈ xs.flatMap Request.readings, 0 < t) :
    answers (CircuitBreaker.serve options) {} xs = answers (Reference.serve options) {} xs := by
  refine answers_eq (R := fun xs b r => ∃ clock, Stored options clock b r ∧
    (clock :: xs.flatMap Request.readings).Pairwise (· ≤ ·) ∧ ∀ t ∈ xs.flatMap Request.readings, 0 < t) ?_ ?_
  · rintro x xs b r ⟨clock, h, hclock, hpos⟩
    rw [List.flatMap_cons] at hclock hpos
    rw [← List.cons_append] at hclock
    obtain ⟨hanswer, hnext⟩ := h.serve hthreshold (List.pairwise_append.1 hclock).1
      fun t ht => hpos t (List.mem_append_left _ ht)
    refine ⟨hanswer, x.clock clock, hnext, hclock.sublist ?_, fun t ht => hpos t (List.mem_append_right _ ht)⟩
    cases x with
    | execute now later succeeds => exact .cons clock (.cons now (.refl _))
    | getState now => exact .cons clock (.refl _)
    | getFailureCount => exact .refl _
    | reset => exact .refl _
  · exact ⟨0, Stored.closed_zero hthreshold 0 0, List.pairwise_cons.2 ⟨fun t ht => (hpos t ht).le, hclock⟩, hpos⟩

/-- Two failures open the circuit, a third one in HALF_OPEN does so again. -/
theorem answers_eq_reference_run :
    answers (CircuitBreaker.serve { failureThreshold := 2, recoveryTimeout := 100 }) {}
        [.execute 10 20 false, .execute 30 40 false, .execute 70 80 true, .getState 140, .execute 150 160 false,
          .getFailureCount, .execute 170 180 true, .reset, .getState 190] =
      answers (Reference.serve { failureThreshold := 2, recoveryTimeout := 100 }) {}
        [.execute 10 20 false, .execute 30 40 false, .execute 70 80 true, .getState 140, .execute 150 160 false,
          .getFailureCount, .execute 170 180 true, .reset, .getState 190] :=
  answers_eq_reference (by norm_num) _ (by decide) (by decide)

end Reference

end NexoraGateway.Routing
