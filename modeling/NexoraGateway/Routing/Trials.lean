import NexoraGateway.Async.Runs
import NexoraGateway.Routing.CircuitBreaker

/-!
# Overlapping calls through one circuit breaker (`routing-engine/src/circuit-breaker.ts`)

A call of `execute` tests the state before its `await` and changes it after, and other calls run in between. A
`Circuit` is the breaker with the wrapped calls that are in flight; each is marked with the state in which it was
started and with the number of times that the circuit had opened by then.

* `oneTrial_iff` — HALF_OPEN lets one request through as long as its callers do not send a second one.
* `transitions_documented_iff` — the transitions are those of the header as long as no call that was in flight before
  the trial succeeds during the recovery.
-/
namespace NexoraGateway.Routing

open Async.Runs

/-- A wrapped call in flight. -/
structure Call where
  startedIn : CircuitState
  opening : ℕ
  deriving DecidableEq

structure Circuit where
  breaker : CircuitBreaker := {}
  inFlight : List Call := []
  /-- How many times the circuit has gone to OPEN. -/
  openings : ℕ := 0
  /-- When a wrapped call last failed. -/
  lastFailure : Option Time := none

/-- What happens to the circuit. A call in flight is named by its place in the list. -/
inductive Event where
  | execute (now later : Time)
  | resolves (i : ℕ)
  | rejects (i : ℕ) (now : Time)
  | getState (now : Time)

/-- The reading of the clock that an event makes first. -/
def Event.now? : Event → Option Time
  | .execute now _ | .rejects _ now | .getState now => some now
  | .resolves _ => none

namespace Circuit

variable (options : CircuitBreakerOptions) (c : Circuit)

/-- The wrapped function is invoked with the breaker `b`. -/
def invoke (b : CircuitBreaker) : Circuit :=
  { c with breaker := b, inFlight := c.inFlight ++ [⟨b.state, c.openings⟩] }

def succeed (i : ℕ) : Circuit :=
  { c with breaker := .onSuccess, inFlight := c.inFlight.eraseIdx i }

def fail (i : ℕ) (now : Time) : Circuit :=
  let b := c.breaker.onFailure options now
  { breaker := b
    inFlight := c.inFlight.eraseIdx i
    openings := if c.breaker.state ≠ .opened ∧ b.state = .opened then c.openings + 1 else c.openings
    lastFailure := some now }

def step (c : Circuit) : Event → Circuit
  | .execute now later =>
    match c.breaker.execute options now later with
    | .error _ => c
    | .ok b => c.invoke b
  | .resolves i => if i < c.inFlight.length then c.succeed i else c
  | .rejects i now => if i < c.inFlight.length then c.fail options i now else c
  | .getState now => { c with breaker := c.breaker.getState options now }

/-- The wrapped calls in flight that were started in HALF_OPEN. -/
def trials : ℕ := c.inFlight.countP fun call => call.startedIn = .halfOpen

/-- The call whose success is the event. -/
def succeeding? : Event → Option Call
  | .resolves i => c.inFlight[i]?
  | _ => none

/-- The event is a call of `execute` that rejects with a `CircuitOpenError`, its function not invoked. -/
def rejected : Event → Bool
  | .execute now later => !(c.breaker.execute options now later).toBool
  | _ => false

/-- A call of `execute` that comes while the circuit reads HALF_OPEN and a trial is in flight. -/
def SecondTrial : Event → Prop
  | .execute now _ => (c.breaker.getState options now).state = .halfOpen ∧ 0 < c.trials
  | _ => False

/-- **HALF_OPEN allows one request** (:9): after the event no more than one trial is in flight while the circuit is
HALF_OPEN, and a second one is turned away. -/
def OneTrial (x : Event) : Prop :=
  ((c.step options x).breaker.state = .halfOpen → (c.step options x).trials ≤ 1) ∧
    (c.SecondTrial options x → c.rejected options x = true)

instance : (x : Event) → Decidable (c.SecondTrial options x)
  | .execute .. => inferInstanceAs (Decidable (_ ∧ _))
  | .resolves _ | .rejects .. | .getState _ => inferInstanceAs (Decidable False)

instance (x : Event) : Decidable (c.OneTrial options x) := inferInstanceAs (Decidable (_ ∧ _))

/-! ## What a step does -/

variable {options c}

theorem step_execute (now later : Time) : c.step options (.execute now later) =
    if (c.breaker.getState options now).state = .opened then c else c.invoke (c.breaker.getState options now) := by
  by_cases h : (c.breaker.getState options now).state = .opened
  · simp only [step, CircuitBreaker.execute_of_opened h, if_pos h]
  · simp only [step, CircuitBreaker.execute_of_ne_opened h, if_neg h]

@[simp] theorem trials_invoke (b : CircuitBreaker) :
    (c.invoke b).trials = c.trials + if b.state = .halfOpen then 1 else 0 := by
  simp [trials, invoke, List.countP_append, List.countP_singleton]

/-- A call that settles leaves no more trials in flight. -/
theorem trials_le_of_inFlight {c' : Circuit} (i : ℕ) (h : c'.inFlight = c.inFlight.eraseIdx i) :
    c'.trials ≤ c.trials := by
  rw [trials, trials, h]
  exact (List.eraseIdx_sublist c.inFlight i).countP_le

/-- A call of `execute` adds a trial just when the circuit reads HALF_OPEN; nothing else adds one. -/
theorem trials_step_le (x : Event) (h : ¬ c.SecondTrial options x) :
    (c.step options x).trials ≤ max c.trials 1 := by
  cases x with
  | execute now later =>
    rw [step_execute]
    by_cases hopened : (c.breaker.getState options now).state = .opened
    · rw [if_pos hopened]
      exact le_max_left c.trials 1
    · rw [if_neg hopened, trials_invoke]
      by_cases hhalf : (c.breaker.getState options now).state = .halfOpen
      · have hnone : c.trials = 0 := by
          by_contra hsome
          exact h ⟨hhalf, Nat.pos_of_ne_zero hsome⟩
        simp [hhalf, hnone]
      · simp [hhalf]
  | resolves i =>
    simp only [step]
    split
    · exact le_max_of_le_left (trials_le_of_inFlight i rfl)
    · exact le_max_left c.trials 1
  | rejects i now =>
    simp only [step]
    split
    · exact le_max_of_le_left (trials_le_of_inFlight i rfl)
    · exact le_max_left c.trials 1
  | getState now => exact le_max_left c.trials 1

/-- A second trial is never turned away: the circuit does not read OPEN. -/
theorem rejected_eq_false {x : Event} (h : c.SecondTrial options x) : c.rejected options x = false := by
  cases x with
  | execute now later =>
    have hstate : (c.breaker.getState options now).state ≠ .opened := by
      rw [h.1]
      simp
    simp [rejected, CircuitBreaker.execute_of_ne_opened hstate, Except.toBool]
  | resolves i => exact h.elim
  | rejects i now => exact h.elim
  | getState now => exact h.elim

/-- **One trial at a time**: the circuit lets a single request through in HALF_OPEN exactly in the runs in which no
`execute` comes while it reads HALF_OPEN and an earlier trial is in flight. -/
theorem oneTrial_iff (options : CircuitBreakerOptions) (xs : List Event) :
    Along (step options) (OneTrial options) {} xs ↔
      Along (step options) (fun c x => ¬ c.SecondTrial options x) {} xs := by
  constructor
  · refine Along.of_inv (I := fun _ => True) (fun c x _ hone => ⟨trivial, fun hsecond => ?_⟩) trivial
    have hrejected := hone.2 hsecond
    rw [rejected_eq_false hsecond] at hrejected
    cases hrejected
  · refine Along.of_inv (I := fun c => c.trials ≤ 1) (fun c x hle hfirst => ?_) (Nat.zero_le 1)
    have hle' : (c.step options x).trials ≤ 1 := by
      simpa [hle] using trials_step_le x hfirst
    exact ⟨hle', fun _ => hle', fun hsecond => absurd hsecond hfirst⟩

/-- A failure opens the circuit, and two callers come together when the timeout has passed. -/
theorem oneTrial_fails : ¬ Along (step { failureThreshold := 1, recoveryTimeout := 100 })
    (OneTrial { failureThreshold := 1, recoveryTimeout := 100 }) {}
    [.execute 1000 1000, .rejects 0 1000, .execute 1100 1100, .execute 1100 1100] := by
  decide +kernel

/-! ## The transitions of the header -/

variable (options c) in
/-- **The transitions of the header** (:11): from OPEN the circuit goes to HALF_OPEN only, once the timeout has
passed since the last failure, and it becomes CLOSED by the success of a call that was started in HALF_OPEN, after
the circuit had last opened. -/
def Documented (x : Event) : Prop :=
  (c.breaker.state = .opened → (c.step options x).breaker.state = .opened ∨
    (c.step options x).breaker.state = .halfOpen ∧
      ∃ t ∈ c.lastFailure, ∃ now ∈ x.now?, options.recoveryTimeout ≤ elapsed now t) ∧
  (c.breaker.state ≠ .closed → (c.step options x).breaker.state = .closed →
    ∃ call ∈ c.succeeding? x, call.startedIn = .halfOpen ∧ call.opening = c.openings)

variable (c) in
/-- Unless the circuit is CLOSED, no call succeeds but one that was started in HALF_OPEN, after the circuit had last
opened. -/
def InTurn (x : Event) : Prop :=
  c.breaker.state ≠ .closed →
    ∀ call ∈ c.succeeding? x, call.startedIn = .halfOpen ∧ call.opening = c.openings

/-- What the breaker and the marks of the calls have in common with the history. -/
structure Remembers (c : Circuit) : Prop where
  lastFailure : c.breaker.state ≠ .closed → c.breaker.lastFailureTime = c.lastFailure
  opening_le : ∀ call ∈ c.inFlight, call.opening ≤ c.openings
  opening_lt : c.breaker.state = .opened → ∀ call ∈ c.inFlight, call.opening < c.openings

theorem Remembers.init : Remembers {} :=
  ⟨fun h => absurd rfl h, fun _ h => absurd h List.not_mem_nil, fun _ _ h => absurd h List.not_mem_nil⟩

theorem Remembers.getState (h : c.Remembers) (now : Time) :
    Remembers { c with breaker := c.breaker.getState options now } := by
  rcases CircuitBreaker.getState_cases options c.breaker now with ⟨hne, hb⟩ | ⟨hopen, hdue, hb⟩ | ⟨hopen, hdue, hb⟩
  · rw [hb]
    exact h
  · rw [hb]
    exact h
  · refine ⟨fun _ => ?_, h.opening_le, fun hstate => ?_⟩
    · rw [CircuitBreaker.getState_lastFailureTime]
      exact h.lastFailure (by simp [hopen])
    · rw [hb] at hstate
      cases hstate

theorem Remembers.invoke (h : c.Remembers) (hstate : c.breaker.state ≠ .opened) :
    (c.invoke c.breaker).Remembers := by
  refine ⟨h.lastFailure, fun call hcall => ?_, fun hopen => absurd hopen hstate⟩
  rcases List.mem_append.1 hcall with hcall | hcall
  · exact h.opening_le call hcall
  · rw [List.mem_singleton.1 hcall]
    exact le_rfl

theorem Remembers.succeed (h : c.Remembers) (i : ℕ) : (c.succeed i).Remembers :=
  ⟨fun hne => absurd rfl hne, fun call hcall => h.opening_le call (List.mem_of_mem_eraseIdx hcall), nofun⟩

theorem Remembers.fail (h : c.Remembers) (i : ℕ) (now : Time) : (c.fail options i now).Remembers := by
  refine ⟨fun _ => rfl, fun call hcall => ?_, fun hopen call hcall => ?_⟩
  · have hle := h.opening_le call (List.mem_of_mem_eraseIdx hcall)
    simp only [Circuit.fail]
    split <;> omega
  · have hmem : call ∈ c.inFlight := List.mem_of_mem_eraseIdx hcall
    have hle := h.opening_le call hmem
    have hopen' : (c.breaker.onFailure options now).state = .opened := hopen
    by_cases hstate : c.breaker.state = .opened
    · have hlt := h.opening_lt hstate call hmem
      simpa [Circuit.fail, hstate] using hlt
    · simp only [Circuit.fail, hstate, hopen', ne_eq, not_false_eq_true, and_self, if_true]
      omega

theorem Remembers.step (h : c.Remembers) (x : Event) : (c.step options x).Remembers := by
  cases x with
  | execute now later =>
    rw [step_execute]
    by_cases hopen : (c.breaker.getState options now).state = .opened
    · rwa [if_pos hopen]
    · rw [if_neg hopen]
      exact (h.getState now).invoke hopen
  | resolves i =>
    simp only [Circuit.step]
    split
    · exact h.succeed i
    · exact h
  | rejects i now =>
    simp only [Circuit.step]
    split
    · exact h.fail i now
    · exact h
  | getState now => exact h.getState now

/-- Reading the circuit makes no other transition than that of the header. -/
theorem getState_documented (options : CircuitBreakerOptions) (h : c.Remembers) (now : Time)
    (hstate : c.breaker.state = .opened) :
    (c.breaker.getState options now).state = .opened ∨ (c.breaker.getState options now).state = .halfOpen ∧
      ∃ t ∈ c.lastFailure, options.recoveryTimeout ≤ elapsed now t := by
  rcases CircuitBreaker.getState_cases options c.breaker now with ⟨hne, hb⟩ | ⟨hopen, hdue, hb⟩ | ⟨hopen, hdue, hb⟩
  · exact absurd hstate hne
  · rw [hb]
    exact .inl hopen
  · obtain ⟨t, hlast, ht⟩ := CircuitBreaker.elapsed_of_shouldAttemptRecovery hdue
    rw [h.lastFailure (by simp [hopen])] at hlast
    rw [hb]
    exact .inr ⟨rfl, t, hlast, ht⟩

theorem documented_execute (h : c.Remembers) (now later : Time) : c.Documented options (.execute now later) := by
  have hclosed := CircuitBreaker.getState_state_eq_closed_iff options c.breaker now
  rw [Documented, step_execute]
  by_cases hopen : (c.breaker.getState options now).state = .opened
  · rw [if_pos hopen]
    exact ⟨.inl, fun hne heq => absurd heq hne⟩
  · rw [if_neg hopen]
    refine ⟨fun hstate => .inr ?_, fun hne heq => absurd (hclosed.1 heq) hne⟩
    obtain ⟨hhalf, t, ht, helapsed⟩ := (getState_documented options h now hstate).resolve_left hopen
    exact ⟨hhalf, t, ht, now, rfl, helapsed⟩

theorem documented_rejects (i : ℕ) (now : Time) : c.Documented options (.rejects i now) := by
  by_cases hi : i < c.inFlight.length
  · simp only [Documented, step, if_pos hi, fail]
    refine ⟨fun hstate => .inl (CircuitBreaker.onFailure_state_eq_opened_iff.2 (.inl hstate)), fun hne heq => ?_⟩
    exact absurd heq (CircuitBreaker.onFailure_state_ne_closed hne)
  · rw [Documented, step, if_neg hi]
    exact ⟨.inl, fun hne heq => absurd heq hne⟩

theorem documented_getState (h : c.Remembers) (now : Time) : c.Documented options (.getState now) := by
  have hclosed := CircuitBreaker.getState_state_eq_closed_iff options c.breaker now
  refine ⟨fun hstate => ?_, fun hne heq => absurd (hclosed.1 heq) hne⟩
  refine (getState_documented options h now hstate).imp_right ?_
  rintro ⟨hhalf, t, ht, helapsed⟩
  exact ⟨hhalf, t, ht, now, rfl, helapsed⟩

/-- A success closes the circuit, whichever call it is of. -/
theorem documented_resolves_iff (h : c.Remembers) (i : ℕ) :
    c.Documented options (.resolves i) ↔ c.InTurn (.resolves i) := by
  by_cases hi : i < c.inFlight.length
  · simp only [Documented, InTurn, step, if_pos hi, succeed, succeeding?]
    constructor
    · rintro ⟨hopened, hclosed⟩ hne call hcall
      obtain ⟨call', hcall', htrial⟩ := hclosed hne rfl
      rwa [Option.mem_unique hcall hcall']
    · intro hturn
      have hcall : c.inFlight[i] ∈ c.inFlight[i]? := List.getElem?_eq_getElem hi
      refine ⟨fun hstate => ?_, fun hne _ => ⟨_, hcall, hturn hne _ hcall⟩⟩
      -- a call in flight while the circuit is OPEN was started before it opened
      have hlt := h.opening_lt hstate _ (List.getElem_mem hi)
      have heq := (hturn (by simp [hstate]) _ hcall).2
      omega
  · have hnone : c.inFlight[i]? = none := List.getElem?_eq_none (not_lt.1 hi)
    simp only [Documented, InTurn, step, if_neg hi, succeeding?, hnone]
    exact iff_of_true ⟨.inl, fun hne heq => absurd heq hne⟩ fun _ => nofun

theorem documented_step_iff (h : c.Remembers) (x : Event) : c.Documented options x ↔ c.InTurn x := by
  cases x with
  | execute now later => exact iff_of_true (documented_execute h now later) fun _ => nofun
  | resolves i => exact documented_resolves_iff h i
  | rejects i now => exact iff_of_true (documented_rejects i now) fun _ => nofun
  | getState now => exact iff_of_true (documented_getState h now) fun _ => nofun

/-- **The documented transitions**: every step of a run is one of the header exactly if, unless the circuit is
CLOSED, the calls that succeed in the run are trials that were started after the circuit had last opened. -/
theorem transitions_documented_iff (options : CircuitBreakerOptions) (xs : List Event) :
    Along (step options) (Documented options) {} xs ↔ Along (step options) InTurn {} xs :=
  along_congr (fun _ x h => h.step x) (fun _ x h => documented_step_iff h x) Remembers.init

instance (x : Event) : Decidable (c.Documented options x) := inferInstanceAs (Decidable (_ ∧ _))

/-- Of two calls that were started in CLOSED one fails and opens the circuit, the other one succeeds and closes it. -/
theorem transitions_documented_fails : ¬ Along (step { failureThreshold := 1, recoveryTimeout := 100 })
    (Documented { failureThreshold := 1, recoveryTimeout := 100 }) {}
    [.execute 1000 1000, .execute 1000 1000, .rejects 0 1001, .resolves 0] := by
  decide +kernel

end Circuit

end NexoraGateway.Routing
