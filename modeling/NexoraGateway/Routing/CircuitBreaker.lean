import Mathlib.Data.Rat.Floor
import NexoraGateway.Json

/-!
# The circuit breaker (`routing-engine/src/circuit-breaker.ts`)

`execute` is cut at its `await`. `CircuitBreaker.execute` is what it does before it invokes the wrapped function,
`onSuccess` and `onFailure` are what it does once the promise of that function has settled. A method that reads the
clock takes its readings as arguments.

* `execute_eq` — the function is invoked unless the circuit reads OPEN.
* `onFailure_state_eq_opened_iff` — when a failure leaves the circuit OPEN.
-/
namespace NexoraGateway.Routing

/-- `CircuitState` (:18): `CLOSED`, `OPEN`, `HALF_OPEN`. -/
inductive CircuitState where
  | closed | opened | halfOpen
  deriving DecidableEq

/-- `CircuitBreakerOptions` (:20) with the values of `DEFAULT_OPTIONS`. -/
structure CircuitBreakerOptions where
  failureThreshold : ℚ := 5
  recoveryTimeout : ℚ := 30000

/-- The time that has passed, to be compared with an option. -/
def elapsed (now since : Time) : ℚ := ((now - since : Time) : ℚ)

theorem elapsed_mono {now later since : Time} (h : now ≤ later) : elapsed now since ≤ elapsed later since :=
  Int.cast_le.2 (Int.sub_le_sub_right h since)

/-- The private fields of `CircuitBreaker` (:32). -/
structure CircuitBreaker where
  state : CircuitState := .closed
  failures : ℕ := 0
  lastFailureTime : Option Time := none
  deriving DecidableEq

namespace CircuitBreaker

variable (options : CircuitBreakerOptions) (b : CircuitBreaker)

/-- `lastFailureTime`, unless `!this.lastFailureTime`: both `null` and 0 are falsy. -/
def failedAt? : Option Time := b.lastFailureTime.filter (· ≠ 0)

/-- `shouldAttemptRecovery` (:116). -/
def shouldAttemptRecovery (now : Time) : Bool :=
  match b.failedAt? with
  | none => false
  | some t => options.recoveryTimeout ≤ elapsed now t

/-- `getRemainingRecoveryTime` (:124). -/
def getRemainingRecoveryTime (now : Time) : ℚ :=
  match b.failedAt? with
  | none => 0
  | some t => max 0 (options.recoveryTimeout - elapsed now t)

/-- `getState` (:68); it reports the state that it leaves. -/
def getState (now : Time) : CircuitBreaker :=
  if b.state = .opened ∧ b.shouldAttemptRecovery options now = true then { b with state := .halfOpen } else b

/-- `execute` (:46) up to `await fn()`: the breaker with which `fn` is invoked, or the `retryAfterMs` of the
`CircuitOpenError`. The remaining time is taken from a second reading of the clock. -/
def execute (now later : Time) : Except ℚ CircuitBreaker :=
  if b.state = .opened then
    if b.shouldAttemptRecovery options now then .ok { b with state := .halfOpen }
    else .error (b.getRemainingRecoveryTime options later)
  else .ok b

/-- `getFailureCount` (:79). -/
def getFailureCount : ℕ := b.failures

/-- `reset` (:86). -/
def reset : CircuitBreaker := { state := .closed, failures := 0, lastFailureTime := none }

/-- `onSuccess` (:95). -/
def onSuccess : CircuitBreaker := { state := .closed, failures := 0, lastFailureTime := none }

/-- `onFailure` (:104). -/
def onFailure (now : Time) : CircuitBreaker :=
  { state := if options.failureThreshold ≤ ((b.failures + 1 : ℕ) : ℚ) then .opened else b.state
    failures := b.failures + 1
    lastFailureTime := some now }

/-! ## What the methods leave -/

@[simp] theorem onSuccess_failures : onSuccess.failures = 0 := rfl
@[simp] theorem onFailure_failures (now : Time) : (b.onFailure options now).failures = b.failures + 1 := rfl
@[simp] theorem onFailure_lastFailureTime (now : Time) : (b.onFailure options now).lastFailureTime = some now := rfl

variable {options b} {now later : Time}

theorem getState_of_ne (h : b.state ≠ .opened) : b.getState options now = b := if_neg fun h' => h h'.1

@[simp] theorem getState_failures : (b.getState options now).failures = b.failures := by
  unfold getState
  split <;> rfl

@[simp] theorem getState_lastFailureTime : (b.getState options now).lastFailureTime = b.lastFailureTime := by
  unfold getState
  split <;> rfl

/-- The three ways in which the circuit is read. -/
theorem getState_cases (options : CircuitBreakerOptions) (b : CircuitBreaker) (now : Time) :
    (b.state ≠ .opened ∧ b.getState options now = b) ∨
    (b.state = .opened ∧ b.shouldAttemptRecovery options now = false ∧ b.getState options now = b) ∨
    (b.state = .opened ∧ b.shouldAttemptRecovery options now = true ∧
      b.getState options now = { b with state := .halfOpen }) := by
  by_cases hstate : b.state = .opened
  · cases hdue : b.shouldAttemptRecovery options now with
    | false => exact .inr (.inl ⟨hstate, rfl, if_neg (by simp [hdue])⟩)
    | true => exact .inr (.inr ⟨hstate, rfl, if_pos ⟨hstate, hdue⟩⟩)
  · exact .inl ⟨hstate, getState_of_ne hstate⟩

theorem getState_eq_self_of_opened (h : (b.getState options now).state = .opened) : b.getState options now = b := by
  rcases getState_cases options b now with ⟨-, hb⟩ | ⟨-, -, hb⟩ | ⟨-, -, hb⟩
  · exact hb
  · exact hb
  · rw [hb] at h
    cases h

theorem getState_state_eq_closed_iff (options : CircuitBreakerOptions) (b : CircuitBreaker) (now : Time) :
    (b.getState options now).state = .closed ↔ b.state = .closed := by
  rcases getState_cases options b now with ⟨-, hb⟩ | ⟨-, -, hb⟩ | ⟨hopen, -, hb⟩
  · rw [hb]
  · rw [hb]
  · simp [hb, hopen]

/-- **`execute` is `getState` and a test for OPEN.** -/
theorem execute_eq (options : CircuitBreakerOptions) (b : CircuitBreaker) (now later : Time) :
    b.execute options now later =
      if (b.getState options now).state = .opened then .error (b.getRemainingRecoveryTime options later)
      else .ok (b.getState options now) := by
  unfold execute
  rcases getState_cases options b now with ⟨h, hb⟩ | ⟨h, hdue, hb⟩ | ⟨h, hdue, hb⟩
  · rw [hb, if_neg h, if_neg h]
  · rw [hb, if_pos h, if_pos h, hdue, if_neg Bool.false_ne_true]
  · rw [hb, if_pos h, hdue, if_pos rfl, if_neg (by simp)]

theorem execute_of_ne_opened (h : (b.getState options now).state ≠ .opened) :
    b.execute options now later = .ok (b.getState options now) := by
  rw [execute_eq, if_neg h]

theorem execute_of_opened (h : (b.getState options now).state = .opened) :
    b.execute options now later = .error (b.getRemainingRecoveryTime options later) := by
  rw [execute_eq, if_pos h]

theorem failedAt?_of_ne_zero {t : Time} (hlast : b.lastFailureTime = some t) (ht : t ≠ 0) : b.failedAt? = some t := by
  rw [failedAt?, hlast]
  exact Option.filter_some_pos (by simpa using ht)

theorem shouldAttemptRecovery_iff {t : Time} (hlast : b.lastFailureTime = some t) (ht : t ≠ 0) :
    b.shouldAttemptRecovery options now = true ↔ options.recoveryTimeout ≤ elapsed now t := by
  simp [shouldAttemptRecovery, failedAt?_of_ne_zero hlast ht]

theorem getRemainingRecoveryTime_eq {t : Time} (hlast : b.lastFailureTime = some t) (ht : t ≠ 0) :
    b.getRemainingRecoveryTime options now = max 0 (options.recoveryTimeout - elapsed now t) := by
  simp [getRemainingRecoveryTime, failedAt?_of_ne_zero hlast ht]

/-- The circuit turns HALF_OPEN only once the timeout has passed since the failure that it remembers. -/
theorem elapsed_of_shouldAttemptRecovery (h : b.shouldAttemptRecovery options now = true) :
    ∃ t, b.lastFailureTime = some t ∧ options.recoveryTimeout ≤ elapsed now t := by
  cases hfailed : b.failedAt? with
  | none => simp [shouldAttemptRecovery, hfailed] at h
  | some t =>
    obtain ⟨hlast, ht⟩ := Option.filter_eq_some_iff.1 hfailed
    exact ⟨t, hlast, (shouldAttemptRecovery_iff hlast (by simpa using ht)).1 h⟩

theorem onFailure_state_eq_opened_iff : (b.onFailure options now).state = .opened ↔
    b.state = .opened ∨ options.failureThreshold ≤ ((b.failures + 1 : ℕ) : ℚ) := by
  by_cases h : options.failureThreshold ≤ ((b.failures + 1 : ℕ) : ℚ)
  · simp only [onFailure, h, if_true, or_true]
  · simp only [onFailure, h, if_false, or_false]

theorem onFailure_state_ne_closed (h : b.state ≠ .closed) : (b.onFailure options now).state ≠ .closed := by
  unfold onFailure
  split
  · simp
  · exact h

theorem onFailure_state_of_lt (now : Time) (h : ((b.failures + 1 : ℕ) : ℚ) < options.failureThreshold) :
    (b.onFailure options now).state = b.state := if_neg (not_le.2 h)

theorem onFailure_state_of_le (now : Time) (h : options.failureThreshold ≤ ((b.failures + 1 : ℕ) : ℚ)) :
    (b.onFailure options now).state = .opened := if_pos h

end CircuitBreaker

end NexoraGateway.Routing
