import NexoraGateway.Routing.CircuitBreaker
import NexoraGateway.Routing.Engine

/-!
# One provider through many selections (`routing-engine/src/base-route-provider.ts`, `route-engine.ts`)

A `BaseRouteProvider` makes its quotes through a circuit breaker, which hears of a quote when the wrapped call
settles. The engine discards a quote when its timer fires; the breaker does not hear of that, and the call goes on.

* `excludes_of_prompt` — a provider whose calls settle before the timer is passed over after `failureThreshold`
  discarded quotes.
* `excludes_fails` — one that hangs is asked again each time.
-/
namespace NexoraGateway.Routing

open Async.Runs

/-- A provider as its selections see it. -/
structure Served where
  breaker : CircuitBreaker := {}
  /-- Its quote is awaited by the selection under way. -/
  racing : Bool := false
  /-- How many of its calls go on that a selection has given up. -/
  late : ℕ := 0
  /-- What became of its quotes and when, the last one first. -/
  ended : List (Slot × Time) := []

namespace Served

inductive Event where
  | select (now later : Time)
  | ends (settlement : Settlement) (now : Time)
  | endsLate (succeeds : Bool) (now : Time)

/-- `isHealthy` (base-route-provider.ts:64). -/
def isHealthy (options : CircuitBreakerOptions) (b : CircuitBreaker) (now : Time) : Bool :=
  (b.getState options now).state ≠ .opened

/-- What the breaker hears of a quote (base-route-provider.ts:37). -/
def hear (options : CircuitBreakerOptions) (b : CircuitBreaker) (now : Time) : Settlement → CircuitBreaker
  | .resolves _ => .onSuccess
  | .rejects => b.onFailure options now
  | .timesOut => b

variable (config : RouteEngineConfig) (options : CircuitBreakerOptions)

/-- `provider.quote(params)`, unless the breaker rejects it. -/
def quote (s : Served) (now later : Time) : Served :=
  match s.breaker.execute options now later with
  | .error _ => s
  | .ok b => { s with breaker := b, racing := true }

/-- A selection starts when the one before has returned. -/
def step (s : Served) : Event → Served
  | .select now later =>
    if s.racing then s
    else if config.skipOpenCircuits then
      let read := { s with breaker := s.breaker.getState options now }
      if isHealthy options s.breaker now then read.quote options now later else read
    else s.quote options now later
  | .ends settlement now =>
    if s.racing then
      { breaker := hear options s.breaker now settlement
        racing := false
        late := if settlement = .timesOut then s.late + 1 else s.late
        ended := (Slot.pending.settle settlement, now) :: s.ended }
    else s
  | .endsLate succeeds now =>
    if 0 < s.late then
      { s with
        breaker := if succeeds then .onSuccess else s.breaker.onFailure options now
        late := s.late - 1 }
    else s

/-- **A failing provider is passed over**: where its last quotes, `failureThreshold` of them or more, were all
discarded, less than one `recoveryTimeout` ago, a selection finds the circuit OPEN and does not ask the provider. -/
def Excludes (s : Served) : Event → Prop
  | .select now later => s.racing = false → ∀ k ≤ s.ended.length, 1 ≤ k → options.failureThreshold ≤ (k : ℚ) →
      (∀ e ∈ s.ended.take k, e.1 = .discarded ∧ elapsed now e.2 < options.recoveryTimeout) →
      (s.breaker.getState options now).state = .opened ∧ (s.step config options (.select now later)).racing = false
  | .ends _ _ | .endsLate _ _ => True

/-- The timer does not come before the wrapped call. -/
def Prompt (s : Served) : Event → Prop
  | .ends .timesOut _ => s.racing = false
  | _ => True

instance (s : Served) : (x : Event) → Decidable (s.Excludes config options x)
  | .select .. => inferInstanceAs (Decidable (_ → _))
  | .ends _ _ | .endsLate _ _ => inferInstanceAs (Decidable True)

instance (s : Served) : (x : Event) → Decidable (s.Prompt x)
  | .ends .timesOut _ => inferInstanceAs (Decidable (_ = false))
  | .select .. | .ends (.resolves _) _ | .ends .rejects _ | .endsLate _ _ => inferInstanceAs (Decidable True)

/-- How the breaker counts the quotes that were discarded since the last one that was used. -/
structure Counted (s : Served) : Prop where
  late : s.late = 0
  failures : s.breaker.failures = (s.ended.takeWhile fun e => e.1 = .discarded).length
  last : ∀ e rest, s.ended = e :: rest → e.1 = .discarded → s.breaker.lastFailureTime = some e.2
  reached : s.breaker.state ≠ .closed → options.failureThreshold ≤ (s.breaker.failures : ℚ)
  opened : 0 < s.breaker.failures → options.failureThreshold ≤ (s.breaker.failures : ℚ) → s.breaker.state ≠ .closed
  tried : s.breaker.state = .halfOpen → s.racing = true

variable {config options} {s : Served}

/-- Both settings of `skipOpenCircuits` pass over a provider whose circuit reads OPEN. -/
theorem step_select (now later : Time) (h : s.racing = false) : s.step config options (.select now later) =
    if (s.breaker.getState options now).state = .opened then s
    else { s with breaker := s.breaker.getState options now, racing := true } := by
  have hidle : ¬ s.racing = true := by simp [h]
  by_cases hopen : (s.breaker.getState options now).state = .opened
  · have hself : s.breaker.getState options now = s.breaker := CircuitBreaker.getState_eq_self_of_opened hopen
    have hquote : s.quote options now later = s := by rw [quote, CircuitBreaker.execute_of_opened hopen]
    rw [if_pos hopen, step, if_neg hidle]
    simp only [isHealthy, hself, hself ▸ hopen, hquote, ite_self]
  · have hself : (s.breaker.getState options now).getState options now = s.breaker.getState options now :=
      CircuitBreaker.getState_of_ne hopen
    have hquote : s.quote options now later =
        { s with breaker := s.breaker.getState options now, racing := true } := by
      rw [quote, CircuitBreaker.execute_of_ne_opened hopen]
    have hread : quote options { s with breaker := s.breaker.getState options now } now later =
        { s with breaker := s.breaker.getState options now, racing := true } := by
      rw [quote, CircuitBreaker.execute_of_ne_opened (by rwa [hself]), hself]
    have hhealthy : isHealthy options s.breaker now = true := decide_eq_true hopen
    rw [if_neg hopen, step, if_neg hidle]
    simp only [hhealthy, if_true, hquote, hread, ite_self]

theorem Counted.init : Counted options {} :=
  ⟨rfl, rfl, nofun, fun h => absurd rfl h, fun h => absurd h (lt_irrefl 0), nofun⟩

theorem Counted.ask (h : s.Counted options) (now : Time) :
    Counted options { s with breaker := s.breaker.getState options now, racing := true } := by
  have hclosed := CircuitBreaker.getState_state_eq_closed_iff options s.breaker now
  refine ⟨h.late, ?_, ?_, ?_, ?_, fun _ => rfl⟩
  · simpa using h.failures
  · simpa using h.last
  · simpa [hclosed] using h.reached
  · simpa [hclosed] using h.opened

/-- A failure of a call in HALF_OPEN opens the circuit again, as the failures before it are still counted. -/
theorem Counted.reached_of_onFailure (h : s.Counted options) (now : Time)
    (hstate : (s.breaker.onFailure options now).state ≠ .closed) :
    options.failureThreshold ≤ ((s.breaker.failures + 1 : ℕ) : ℚ) := by
  by_contra hlt
  rw [CircuitBreaker.onFailure_state_of_lt now (not_le.1 hlt)] at hstate
  exact hlt ((h.reached hstate).trans (by exact_mod_cast Nat.le_succ _))

theorem Counted.discard (h : s.Counted options) (now : Time) :
    Counted options { s with
      breaker := s.breaker.onFailure options now, racing := false, ended := (.discarded, now) :: s.ended } := by
  refine ⟨h.late, ?_, ?_, h.reached_of_onFailure now, ?_, ?_⟩
  · simp [h.failures]
  · rintro e rest heq -
    obtain ⟨rfl, rfl⟩ := List.cons.inj heq
    rfl
  · intro _ hle
    rw [CircuitBreaker.onFailure_state_of_le now hle]
    simp
  · intro hhalf
    have hhalf' : (s.breaker.onFailure options now).state = .halfOpen := hhalf
    rw [CircuitBreaker.onFailure_state_of_le now (h.reached_of_onFailure now (by simp [hhalf']))] at hhalf'
    cases hhalf'

theorem Counted.step (h : s.Counted options) {x : Event} (hprompt : s.Prompt x) :
    (s.step config options x).Counted options := by
  cases x with
  | select now later =>
    cases hracing : s.racing with
    | true => simpa [Served.step, hracing] using h
    | false =>
      rw [step_select now later hracing]
      split
      · exact h
      · exact h.ask now
  | ends settlement now =>
    cases hracing : s.racing with
    | false => simpa [Served.step, hracing] using h
    | true =>
      cases settlement with
      | resolves quote =>
        simp only [Served.step, hracing, if_true, hear, Slot.settle, reduceCtorEq, if_false]
        exact ⟨h.late, by simp, by simp, fun hne => absurd rfl hne, fun hpos => absurd hpos (lt_irrefl 0), nofun⟩
      | rejects =>
        simp only [Served.step, hracing, if_true, hear, Slot.settle, reduceCtorEq, if_false]
        exact h.discard now
      | timesOut =>
        have hidle : s.racing = false := hprompt
        simp [hracing] at hidle
  | endsLate succeeds now =>
    have hnone : ¬ 0 < s.late := by simp [h.late]
    simpa only [Served.step, if_neg hnone] using h

theorem le_length_takeWhile {α : Type} {p : α → Bool} {k : ℕ} {xs : List α} (hk : k ≤ xs.length)
    (h : ∀ x ∈ xs.take k, p x = true) : k ≤ (xs.takeWhile p).length := by
  rw [← List.take_append_drop k xs, List.takeWhile_append_of_pos h, List.length_append, List.length_take]
  omega

theorem Counted.excludes (h : s.Counted options) (x : Event) : s.Excludes config options x := by
  cases x with
  | ends settlement now => trivial
  | endsLate succeeds now => trivial
  | select now later =>
    intro hracing k hk hpos hthreshold hdiscarded
    have hcount : k ≤ s.breaker.failures := by
      rw [h.failures]
      exact le_length_takeWhile hk fun e he => decide_eq_true (hdiscarded e he).1
    have hne := h.opened (by omega) (hthreshold.trans (by exact_mod_cast hcount))
    have hopened : s.breaker.state = .opened := by
      cases hstate : s.breaker.state with
      | closed => exact absurd hstate hne
      | opened => rfl
      | halfOpen =>
        have htried := h.tried hstate
        simp [hracing] at htried
    -- the last failure is the last discarded quote, and it is too recent for a trial
    obtain ⟨e, rest, hended⟩ : ∃ e rest, s.ended = e :: rest :=
      List.exists_cons_of_length_pos (by omega)
    have hlast : e ∈ s.ended.take k := by
      obtain ⟨j, rfl⟩ := Nat.exists_eq_add_of_le' hpos
      rw [hended]
      exact List.mem_cons_self
    obtain ⟨hdisc, hrecent⟩ := hdiscarded e hlast
    have hdue : ¬ s.breaker.shouldAttemptRecovery options now = true := fun hdue => by
      obtain ⟨t, ht, hlong⟩ := CircuitBreaker.elapsed_of_shouldAttemptRecovery hdue
      rw [h.last e rest hended hdisc, Option.some.injEq] at ht
      exact absurd (ht ▸ hrecent) (not_lt.2 hlong)
    have hread : (s.breaker.getState options now).state = .opened := by
      rw [CircuitBreaker.getState, if_neg fun h' => hdue h'.2, hopened]
    refine ⟨hread, ?_⟩
    rw [step_select now later hracing, if_pos hread, hracing]

/-- **Providers that answer in time**: if no timer comes before the wrapped call, a failing provider is passed over
in every selection of the run. -/
theorem excludes_of_prompt (config : RouteEngineConfig) (options : CircuitBreakerOptions) (xs : List Event)
    (h : Along (step config options) Prompt {} xs) : Along (step config options) (Excludes config options) {} xs :=
  Along.of_inv (fun _ x hcounted hprompt => ⟨hcounted.step hprompt, hcounted.excludes x⟩) Counted.init h

/-- Two quotes are rejected, and the third selection passes the provider over. -/
theorem excludes_of_prompt_run :
    Along (step {} { failureThreshold := 2 }) (Excludes {} { failureThreshold := 2 }) {}
      [.select 1000 1000, .ends .rejects 1100, .select 2000 2000, .ends .rejects 2100, .select 3000 3000] :=
  excludes_of_prompt {} { failureThreshold := 2 } _ ⟨trivial, trivial, trivial, trivial, trivial, trivial⟩

/-- Five quotes time out under the default options, and the sixth selection asks again. -/
theorem excludes_fails : ¬ Along (step {} {}) (Excludes {} {}) {}
    [.select 1000 1000, .ends .timesOut 6000, .select 6000 6000, .ends .timesOut 11000, .select 11000 11000,
      .ends .timesOut 16000, .select 16000 16000, .ends .timesOut 21000, .select 21000 21000,
      .ends .timesOut 26000, .select 26000 26000] := by
  decide +kernel

end Served

end NexoraGateway.Routing
