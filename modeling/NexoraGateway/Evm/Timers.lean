import NexoraGateway.Evm.Client

/-!
# One poll at a time (evm-chain-client.ts:326-374, :468)

`watchDeposits` looks at the timer before `startPolling` awaits the head and sets it, and an interval does not
wait for its callback. `one_poll_at_a_time` says when nothing comes of it: in every run in which nobody meddles
with a start that is pending, no interval fires over a poll, and a start is not answered behind the cursor or
ahead of a poll.

* `Single` — the invariant.
* `step_single` — one step.
-/
namespace NexoraGateway.Evm

open Async Store

variable {L : Type} [DecidableEq L]

/-- A step that leaves one poll at a time: polling is started once, and stays wanted until it has; an interval
fires when no poll is under way; and the head that a start is answered lies between the cursor and any head that
a poll is on its way to. -/
def Orderly (r : Runtime L) : Step L → Prop
  | .watchDeposits .. => r.pollTimer = none → r.starting = 0
  | .unsubscribe address onDeposit => r.starting = 0 ∨
      ∃ entry ∈ r.watchedAddresses.rows, ∃ listener ∈ entry.2, ¬ (entry.1 = address.toLower ∧ listener = onDeposit)
  | .destroy => r.starting = 0
  | .started answer => ∀ n ∈ answer,
      r.lastBlockNumber ≤ n ∧ ∀ poll ∈ r.polls, ∀ current ∈ poll.current?, n ≤ current
  | .tick _ => r.polls = []
  | .answered .. => True

instance (r : Runtime L) : (x : Step L) → Decidable (Orderly r x)
  | .watchDeposits .. => inferInstanceAs (Decidable (r.pollTimer = none → r.starting = 0))
  | .unsubscribe address onDeposit => inferInstanceAs (Decidable (_ ∨
      ∃ entry ∈ r.watchedAddresses.rows, ∃ listener ∈ entry.2, ¬ (entry.1 = address.toLower ∧ listener = onDeposit)))
  | .destroy => inferInstanceAs (Decidable (r.starting = 0))
  | .started answer => inferInstanceAs (Decidable (∀ n ∈ answer,
      r.lastBlockNumber ≤ n ∧ ∀ poll ∈ r.polls, ∀ current ∈ poll.current?, n ≤ current))
  | .tick _ => inferInstanceAs (Decidable (r.polls = []))
  | .answered .. => inferInstanceAs (Decidable True)

/-- The one timer is the client's, and set or about to be only while someone listens; the one poll is not on its
way to a head behind the cursor. -/
structure Single (r : Runtime L) : Prop where
  timers : r.timers = r.pollTimer.toList
  starting : r.starting = 0 ∨ r.starting = 1 ∧ r.pollTimer = none
  wanted : r.watchedAddresses.rows = [] → r.starting = 0 ∧ r.pollTimer = none
  listened : Listened r.watchedAddresses
  polls : r.polls.length ≤ 1
  ahead : ∀ poll ∈ r.polls, ∀ current ∈ poll.current?, r.lastBlockNumber ≤ current

/-! ## One step -/

section
omit [DecidableEq L]
variable {r : Runtime L}

theorem fresh_single (chainId : String) : Single (fresh L chainId) where
  timers := rfl
  starting := .inl rfl
  wanted _ := ⟨rfl, rfl⟩
  listened _ h := absurd h List.not_mem_nil
  polls := Nat.zero_le 1
  ahead _ h := absurd h List.not_mem_nil

theorem clearTimer_timers (htimers : r.timers = r.pollTimer.toList) : (clearTimer r).timers = [] := by
  simp only [clearTimer, htimers, List.filter_eq_nil_iff]
  intro timer htimer
  simpa using htimer

theorem started_single (h : Single r) {answer : Option Nat}
    (hstep : ∀ n ∈ answer, r.lastBlockNumber ≤ n ∧ ∀ poll ∈ r.polls, ∀ current ∈ poll.current?, n ≤ current) :
    Single (started answer r) := by
  unfold started
  by_cases hidle : r.starting = 0
  · rw [if_pos hidle]
    exact h
  · rw [if_neg hidle]
    obtain ⟨hone, hnone⟩ := h.starting.resolve_left hidle
    refine ⟨?_, .inl (by simp [hone]), fun hempty => absurd (h.wanted hempty).1 hidle, h.listened, h.polls, ?_⟩
    · simp [h.timers, hnone]
    · intro poll hpoll current hcurrent
      cases answer with
      | none => exact h.ahead poll hpoll current hcurrent
      | some n => exact (hstep n rfl).2 poll hpoll current hcurrent

theorem tick_single (h : Single r) {timer : Nat} (hstep : r.polls = []) : Single (tick timer r) := by
  unfold tick
  split
  · refine { h with polls := by simp [hstep], ahead := fun poll hpoll current hcurrent => ?_ }
    simp only [hstep, List.nil_append, List.mem_singleton] at hpoll
    subst hpoll
    cases hcurrent
  · exact h

theorem answered_single (h : Single r) (i : Nat) (answer : Answer) : Single (answered i answer r) := by
  -- the poll that is answered is the only one
  have honly {poll : Poll} (hi : r.polls[i]? = some poll) : r.polls.eraseIdx i = [] := by
    have hlt : i < r.polls.length := (List.getElem?_eq_some_iff.1 hi).1
    have hpolls := h.polls
    apply List.eq_nil_of_length_eq_zero
    rw [List.length_eraseIdx_of_lt hlt]
    omega
  have hahead {poll : Poll} {progress : Progress} {told : List (Delivery L)} (hi : r.polls[i]? = some poll)
      (hresume : resume r.toEVMChainClient poll answer = (progress, told)) :
      ∀ current ∈ progress.current?, r.lastBlockNumber ≤ current := by
    intro current hcurrent
    rcases resume_current? _ poll answer (by rw [hresume]; exact hcurrent) with hold | ⟨-, hnew⟩
    · exact h.ahead poll (List.mem_of_getElem? hi) current hold
    · exact Nat.le_of_lt hnew
  have hresumed := answered_resumed i answer r
  generalize answered i answer r = r' at hresumed
  cases hresumed with
  | idle => exact h
  | waits hi hresume =>
    refine { h with polls := by simpa using h.polls, ahead := fun p hp current hcurrent => ?_ }
    rcases List.mem_or_eq_of_mem_set hp with hp | rfl
    · exact h.ahead p hp current hcurrent
    · exact hahead hi hresume current hcurrent
  | polled hi =>
    exact { h with polls := by simp [honly hi], ahead := fun p hp => by simp [honly hi] at hp }
  | ended hi =>
    exact { h with polls := by simp [honly hi], ahead := fun p hp => by simp [honly hi] at hp }

end

variable {r : Runtime L}

theorem watchDeposits_single (h : Single r) {address : String} {onDeposit : L}
    (hstep : r.pollTimer = none → r.starting = 0) : Single (watchDeposits address onDeposit r) := by
  refine ⟨h.timers, ?_, fun hempty => ?_, h.listened.add, h.polls, h.ahead⟩
  · simp only [watchDeposits]
    split
    · rename_i hnone
      have hnone : r.pollTimer = none := Option.isNone_iff_eq_none.1 hnone
      exact .inr ⟨by rw [hstep hnone], hnone⟩
    · exact h.starting
  · have hlistens : Listens (watchDeposits address onDeposit r).watchedAddresses address.toLower onDeposit :=
      listens_addListener.2 (.inr ⟨rfl, rfl⟩)
    obtain ⟨listeners, hentry, -⟩ := hlistens
    rw [hempty] at hentry
    exact absurd hentry List.not_mem_nil

theorem unsubscribe_single (h : Single r) {address : String} {onDeposit : L}
    (hstep : r.starting = 0 ∨ ∃ entry ∈ r.watchedAddresses.rows, ∃ listener ∈ entry.2,
      ¬ (entry.1 = address.toLower ∧ listener = onDeposit)) : Single (unsubscribe address onDeposit r) := by
  unfold unsubscribe
  dsimp only
  split
  · rename_i hempty
    have hidle : r.starting = 0 := by
      refine hstep.resolve_right fun ⟨entry, hentry, listener, hlistener, hne⟩ => ?_
      obtain ⟨listeners, hkept, -⟩ := listens_deleteListener.2 ⟨⟨entry.2, hentry, hlistener⟩, hne⟩
      rw [hempty] at hkept
      exact absurd hkept List.not_mem_nil
    exact ⟨clearTimer_timers h.timers, .inl hidle, fun _ => ⟨hidle, rfl⟩, h.listened.delete, h.polls, h.ahead⟩
  · rename_i hne
    exact ⟨h.timers, h.starting, fun hempty => absurd hempty hne, h.listened.delete, h.polls, h.ahead⟩

theorem step_single (h : Single r) {x : Step L} (hx : Orderly r x) : Single (step r x) := by
  cases x with
  | watchDeposits address onDeposit => exact watchDeposits_single h hx
  | unsubscribe address onDeposit => exact unsubscribe_single h hx
  | destroy =>
    exact ⟨clearTimer_timers h.timers, .inl hx, fun _ => ⟨hx, rfl⟩, fun _ hentry => absurd hentry List.not_mem_nil,
      h.polls, h.ahead⟩
  | started answer => exact started_single h hx
  | tick timer => exact tick_single h hx
  | answered i answer => exact answered_single h i answer

/-- The cursor does not go back. -/
theorem step_forward (h : Single r) {x : Step L} (hx : Orderly r x) :
    r.lastBlockNumber ≤ (step r x).lastBlockNumber := by
  cases x with
  | watchDeposits | destroy => exact Nat.le_refl _
  | unsubscribe address onDeposit =>
    simp only [step, unsubscribe]
    split <;> exact Nat.le_refl _
  | tick timer =>
    simp only [step, tick]
    split <;> exact Nat.le_refl _
  | started answer =>
    simp only [step, started]
    split
    · exact Nat.le_refl _
    · cases answer with
      | none => exact Nat.le_refl _
      | some n => exact (hx n rfl).1
  | answered i answer =>
    have hresumed := answered_resumed i answer r
    change r.lastBlockNumber ≤ (answered i answer r).lastBlockNumber
    generalize answered i answer r = r' at hresumed
    cases hresumed with
    | idle | waits | ended => exact Nat.le_refl _
    | @polled poll current told hi hresume =>
      rcases resume_current? _ poll answer (by rw [hresume]; rfl) with hold | ⟨-, hnew⟩
      · exact h.ahead poll (List.mem_of_getElem? hi) current hold
      · exact Nat.le_of_lt hnew

/-! ## Runs -/

/-- **When one poll at a time is enough**: in every run whose steps are orderly, at most one timer is live and at
most one activation of `pollBlocks` under way, the cursor goes back at no orderly step, and when nobody listens
and nothing is pending no timer is left. -/
theorem one_poll_at_a_time (chainId : String) (xs : List (Step L))
    (hxs : Runs.Along step Orderly (fresh L chainId) xs) :
    let r := Runs.exec step (fresh L chainId) xs
    r.timers.length ≤ 1 ∧ r.polls.length ≤ 1 ∧
    (∀ x, Orderly r x → r.lastBlockNumber ≤ (step r x).lastBlockNumber) ∧
    (r.watchedAddresses.rows = [] → r.starting = 0 → r.polls = [] → r.timers = []) := by
  intro r
  have h : Single r := Runs.exec_inv (fun _ _ hr hx => step_single hr hx) (fresh_single chainId) hxs
  refine ⟨?_, h.polls, fun x hx => step_forward h hx, fun hempty _ _ => ?_⟩
  · rw [h.timers]
    cases r.pollTimer <;> simp
  · rw [h.timers, (h.wanted hempty).2]
    rfl

/-- Two addresses are watched in turn, and two blocks polled. -/
def inTurn : List (Step Nat) :=
  [.watchDeposits "0xA" 0, .started (some 10), .watchDeposits "0xB" 1, .tick 0, .answered 0 (.blockNumber 11),
    .answered 0 (.block (some ⟨[]⟩)), .unsubscribe "0xA" 0, .unsubscribe "0xB" 1]

/-- The rule in that run. -/
theorem one_poll_in_turn :
    let r := Runs.exec step (fresh Nat "1") inTurn
    r.lastBlockNumber = 11 ∧ r.timers = [] := by
  have hxs : Runs.Along step Orderly (fresh Nat "1") inTurn := by decide +kernel
  obtain ⟨-, -, -, htimers⟩ := one_poll_at_a_time "1" inTurn hxs
  exact ⟨by decide +kernel, htimers (by decide +kernel) (by decide +kernel) (by decide +kernel)⟩

/-- A second address is watched before the head is known. -/
def atOnce : List (Step Nat) :=
  [.watchDeposits "0xA" 0, .watchDeposits "0xB" 1, .started (some 10), .started (some 10)]

/-- Two timers are set, one of them for good: it is live when both addresses have been unsubscribed and nothing is
pending. -/
theorem two_timers :
    (Runs.exec step (fresh Nat "1") atOnce).timers = [0, 1] ∧
    let r := Runs.exec step (fresh Nat "1") (atOnce ++ [.unsubscribe "0xA" 0, .unsubscribe "0xB" 1])
    r.watchedAddresses.rows = [] ∧ r.starting = 0 ∧ r.polls = [] ∧ r.timers = [0] := by
  decide +kernel

end NexoraGateway.Evm
