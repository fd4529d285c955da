import NexoraGateway.RateLocks.Service

/-!
# Which rate lock an intent has (rate-lock.service.ts:103)

`getLock` answers the first lock of the intent in the order of creation, whatever became of it: a lock that was
consumed, cancelled or has expired is answered where the interface says `null`, and it hides the lock of a later
quote. `answers_iff` says when the look-ups are right: after every history, at every moment, just when no lock of
the intent that is not live stands ahead of its live ones.
-/
namespace NexoraGateway.RateLocks

open Store Async

/-- A lock that a payment may use. -/
def RateLock.Live (lock : RateLock) (now : Time) : Prop := lock.status = .active ∧ ¬ lock.Overdue now

instance (lock : RateLock) (now : Time) : Decidable (lock.Live now) := inferInstanceAs (Decidable (_ ∧ _))

/-- The store has a live lock for the intent. -/
def Holds (locks : Locks) (intentId : Id) (now : Time) : Prop :=
  ∃ lock ∈ locks.rows, lock.intentId = intentId ∧ lock.Live now

instance (locks : Locks) (intentId : Id) (now : Time) : Decidable (Holds locks intentId now) :=
  inferInstanceAs (Decidable (∃ lock ∈ locks.rows, _ ∧ _))

/-- What the interface promises of the look-ups of an intent. -/
structure Answers (locks : Locks) (intentId : Id) (now : Time) : Prop where
  found : Holds locks intentId now → ∃ lock, getLock intentId locks = some lock ∧ lock.Live now
  null : ¬ Holds locks intentId now → getLock intentId locks = none
  consumed : ∀ consumedAt, (∃ lock, (consumeLock intentId now consumedAt locks).2 = .ok lock) ↔
    Holds locks intentId now
  valid : (isLockValid intentId now locks).2 = true ↔ Holds locks intentId now

/-- Every lock of the intent that is not live was stored after one that is. -/
def Unshadowed (locks : Locks) (intentId : Id) (now : Time) : Prop :=
  ∀ before stale behind, locks.rows = before ++ stale :: behind → stale.intentId = intentId → ¬ stale.Live now →
    ∃ lock ∈ before, lock.intentId = intentId ∧ lock.Live now

variable {locks : Locks} {intentId : Id} {now : Time}

theorem unshadowed_iff : Unshadowed locks intentId now ↔ ∀ lock ∈ getLock intentId locks, lock.Live now := by
  simp only [Unshadowed, getLock, find?_sound_iff, decide_eq_true_iff]

theorem getLock_none (h : getLock intentId locks = none) : ¬ Holds locks intentId now := by
  rintro ⟨lock, hlock, hintent, -⟩
  simpa [hintent] using List.find?_eq_none.1 h lock hlock

theorem answers_of_unshadowed (h : Unshadowed locks intentId now) : Answers locks intentId now := by
  rw [unshadowed_iff] at h
  cases hget : getLock intentId locks with
  | none =>
    have hnone : ¬ Holds locks intentId now := getLock_none hget
    constructor
    · exact fun hholds => absurd hholds hnone
    · exact fun _ => hget
    · intro consumedAt
      simp only [consumeLock_ok, hget]
      simp [hnone]
    · rw [isLockValid_true, hget]
      simp [hnone]
  | some lock =>
    have hlive := h lock hget
    have hholds : Holds locks intentId now := ⟨lock, (getLock_mem hget).1, (getLock_mem hget).2, hlive⟩
    constructor
    · exact fun _ => ⟨lock, hget, hlive⟩
    · exact fun hnone => absurd hholds hnone
    · intro consumedAt
      refine iff_of_true ⟨_, consumeLock_ok.2 ⟨lock, hget, ?_, hlive.2, rfl⟩⟩ hholds
      simp [hlive.1]
    · exact iff_of_true (isLockValid_true.2 ⟨lock, hget, hlive⟩) hholds

theorem Answers.unshadowed (h : Answers locks intentId now) : Unshadowed locks intentId now := by
  rw [unshadowed_iff]
  intro lock hget
  by_cases hholds : Holds locks intentId now
  · obtain ⟨live, hlive, hislive⟩ := h.found hholds
    cases hlive.symm.trans hget
    exact hislive
  · exact nomatch (h.null hholds).symm.trans hget

/-- **After every history the look-ups of an intent are right just when no lock of it hides a live one**, or is
found where there is none. -/
theorem answers_iff (config : SpreadConfig) (calls : List Call) (intentId : Id) (now : Time) :
    Answers (after config calls) intentId now ↔ Unshadowed (after config calls) intentId now :=
  ⟨Answers.unshadowed, answers_of_unshadowed⟩

/-! ## A new quote -/

/-- A lock of five minutes, and after six minutes a second one. -/
def requoted : List Call :=
  [.createLock "pi" "shop" "ETH" "USD" none (.ok 2000) "first" 0,
    .createLock "pi" "shop" "ETH" "USD" none (.ok 2010) "second" 360000]

/-- The new lock is live and in the store, but `getLock` answers the old one, so that it cannot be consumed. -/
theorem requote_shadowed :
    Holds (after {} requoted) "pi" 360001 ∧
      (getLock "pi" (after {} requoted)).map RateLock.id = some "first" ∧
      (consumeLock "pi" 360001 360001 (after {} requoted)).2 = .error (.rateLockExpired "first" "pi") ∧
      ¬ Answers (after {} requoted) "pi" 360001 := by
  have hholds : Holds (after {} requoted) "pi" 360001 := by decide +kernel
  refine ⟨hholds, by decide +kernel, by decide +kernel, fun h => ?_⟩
  exact absurd (h.valid.2 hholds) (by decide +kernel)

end NexoraGateway.RateLocks
