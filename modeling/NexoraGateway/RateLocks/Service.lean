import NexoraGateway.Async.Runs
import NexoraGateway.Json
import NexoraGateway.Store.Table

/-!
# Rate locks (`rate-lock/src/rate-lock.service.ts`)

The service keeps its locks in a `Map` from the lock's id, and finds the lock of an intent by going through the
map. `getLock` answers at once, so a call that awaits it runs through before the next one; `createLock` reads the
clock and writes after its one real `await`, the price.

| here | there |
| --- | --- |
| `createLock` | rate-lock.service.ts:47; `price` is what the oracle answers, `uuid` what `randomUUID` does |
| `getLock`, `consumeLock`, `cancelLock`, `isLockValid` | :103, :112, :142, :151 |
| `cleanupExpiredLocks` | :210 |
-/
namespace NexoraGateway.RateLocks

open Store

/-- `RateLockStatus` (shared/src/types/rate-lock.ts:26). -/
inductive RateLockStatus where
  | active | expired | consumed | cancelled
  deriving DecidableEq, Repr

/-- `RateLock` (:28). -/
structure RateLock where
  id : Id
  intentId : Id
  merchantId : Id
  asset : String
  baseAsset : String
  lockedRate : ℚ
  liveRate : ℚ
  spreadBps : ℚ
  ttlSeconds : ℚ
  status : RateLockStatus := .active
  createdAt : Time
  expiresAt : Time
  consumedAt : Option Time := none
  deriving DecidableEq

/-- `RateLockResult` (:44). -/
structure RateLockResult where
  lock : RateLock
  spreadApplied : ℚ
  paymentWindowSeconds : ℚ

/-- `SpreadConfig` (:100) with the values of `DEFAULT_SPREAD_CONFIG`. -/
structure SpreadConfig where
  baseSpreadBps : ℚ := 50
  volatilitySpreadBps : ℚ := 25
  maxSpreadBps : ℚ := 200
  defaultTtlSeconds : ℚ := 300
  minTtlSeconds : ℚ := 60
  maxTtlSeconds : ℚ := 600

/-- `HIGH_VOLATILITY_ASSETS` (:126). -/
def highVolatilityAssets : List String := ["DOGE", "SHIB", "PEPE", "FLOKI", "WIF", "BONK", "ARB", "OP", "MATIC"]

/-- What the service throws (shared/src/errors/rate-lock-errors.ts:44), and what the oracle rejects with. -/
inductive RateLockError where
  | oracle (error : String)
  | invalidPrice (asset baseAsset : String) (liveRate : ℚ)
  | rateLockExpired (lockId intentId : Id)
  | rateLockNotFound (intentId : Id)
  | rateLockAlreadyConsumed (lockId : Id)
  deriving DecidableEq

/-- `store.locks`. -/
abbrev Locks : Type := Table RateLock.id

/-- `calculateSpread` (rate-lock.service.ts:169). -/
def calculateSpread (config : SpreadConfig) (asset : String) : ℚ :=
  let spread := config.baseSpreadBps +
    if asset.toUpper ∈ highVolatilityAssets then config.volatilitySpreadBps else 0
  min spread config.maxSpreadBps

/-- `this.clock() > lock.expiresAt`. -/
def RateLock.Overdue (lock : RateLock) (now : Time) : Prop := lock.expiresAt < now

instance (lock : RateLock) (now : Time) : Decidable (lock.Overdue now) := inferInstanceAs (Decidable (_ < _))

def createLock (config : SpreadConfig) (intentId merchantId : Id) (asset baseAsset : String)
    (ttlSeconds : Option ℚ) (price : Except String ℚ) (uuid : Id) (now : Time) (locks : Locks) :
    Locks × Except RateLockError RateLockResult :=
  let effectiveTtl := ttlSeconds.getD config.defaultTtlSeconds
  let clampedTtl := max config.minTtlSeconds (min config.maxTtlSeconds effectiveTtl)
  match price with
  | .error e => (locks, .error (.oracle e))
  | .ok liveRate =>
    if liveRate ≤ 0 then (locks, .error (.invalidPrice asset baseAsset liveRate))
    else
      let spreadBps := calculateSpread config asset
      let lock : RateLock :=
        { id := uuid, intentId, merchantId, asset := asset.toUpper, baseAsset := baseAsset.toUpper
          lockedRate := liveRate * (1 + spreadBps / 10000), liveRate, spreadBps, ttlSeconds := clampedTtl
          createdAt := now, expiresAt := toTime (now + clampedTtl * 1000) }
      (locks.put lock, .ok { lock, spreadApplied := spreadBps, paymentWindowSeconds := clampedTtl })

def getLock (intentId : Id) (locks : Locks) : Option RateLock := locks.rows.find? (·.intentId = intentId)

/-- The clock is read a second time for `consumedAt`. -/
def consumeLock (intentId : Id) (now consumedAt : Time) (locks : Locks) : Locks × Except RateLockError RateLock :=
  match getLock intentId locks with
  | none => (locks, .error (.rateLockNotFound intentId))
  | some lock =>
    if lock.status = .expired then (locks, .error (.rateLockExpired lock.id intentId))
    else if lock.status = .consumed then (locks, .error (.rateLockAlreadyConsumed lock.id))
    else if lock.Overdue now then
      (locks.put { lock with status := .expired }, .error (.rateLockExpired lock.id intentId))
    else
      let consumed := { lock with status := .consumed, consumedAt := some consumedAt }
      (locks.put consumed, .ok consumed)

def cancelLock (intentId : Id) (locks : Locks) : Locks :=
  match getLock intentId locks with
  | none => locks
  | some lock => locks.put { lock with status := .cancelled }

def isLockValid (intentId : Id) (now : Time) (locks : Locks) : Locks × Bool :=
  match getLock intentId locks with
  | none => (locks, false)
  | some lock =>
    if lock.status ≠ .active then (locks, false)
    else if lock.Overdue now then (locks.put { lock with status := .expired }, false)
    else (locks, true)

/-- What the sweep makes of a lock that it comes to. -/
def swept (now : Time) (lock : RateLock) : RateLock :=
  if lock.status = .active ∧ lock.Overdue now then { lock with status := .expired } else lock

/-- A lock that is more than a day old. -/
def RateLock.Old (lock : RateLock) (now : Time) : Prop := 24 * 60 * 60 * 1000 < now - lock.createdAt

instance (lock : RateLock) (now : Time) : Decidable (lock.Old now) := inferInstanceAs (Decidable (_ < _))

/-- One round of the loop of `cleanupExpiredLocks`. -/
def sweep (now : Time) (acc : Locks × Nat) (lock : RateLock) : Locks × Nat :=
  let cleanedCount := if lock.status = .active ∧ lock.Overdue now then acc.2 + 1 else acc.2
  let locks := acc.1.put (swept now lock)
  if lock.Old now then (locks.erase lock.id, cleanedCount + 1) else (locks, cleanedCount)

def cleanupExpiredLocks (now : Time) (locks : Locks) : Locks × Nat := locks.rows.foldl (sweep now) (locks, 0)

/-! ## What the calls answer -/

section
variable {locks : Locks} {lock : RateLock} {intentId : Id} {now consumedAt : Time}

theorem getLock_mem (h : getLock intentId locks = some lock) : lock ∈ locks.rows ∧ lock.intentId = intentId :=
  ⟨List.mem_of_find?_eq_some h, by simpa using List.find?_some h⟩

/-- What `consumeLock` needs to succeed. -/
theorem consumeLock_ok : (consumeLock intentId now consumedAt locks).2 = .ok lock ↔
    ∃ row, getLock intentId locks = some row ∧ (row.status ≠ .expired ∧ row.status ≠ .consumed) ∧
      ¬ row.Overdue now ∧ lock = { row with status := .consumed, consumedAt := some consumedAt } := by
  unfold consumeLock
  cases getLock intentId locks with
  | none => simp
  | some row =>
    dsimp only
    by_cases hexpired : row.status = .expired
    · simp [hexpired]
    by_cases hconsumed : row.status = .consumed
    · simp [hconsumed]
    by_cases hlate : row.Overdue now
    · simp [hexpired, hconsumed, hlate]
    · simp [hexpired, hconsumed, hlate]
      exact eq_comm

theorem consumeLock_stored (h : (consumeLock intentId now consumedAt locks).2 = .ok lock) :
    (consumeLock intentId now consumedAt locks).1 = locks.put lock := by
  obtain ⟨row, hget, ⟨hexpired, hconsumed⟩, htime, rfl⟩ := consumeLock_ok.1 h
  simp only [consumeLock, hget]
  rw [if_neg hexpired, if_neg hconsumed, if_neg htime]

theorem isLockValid_true : (isLockValid intentId now locks).2 = true ↔
    ∃ lock, getLock intentId locks = some lock ∧ lock.status = .active ∧ ¬ lock.Overdue now := by
  unfold isLockValid
  cases getLock intentId locks with
  | none => simp
  | some lock =>
    dsimp only
    by_cases hactive : lock.status = .active
    · by_cases hlate : lock.Overdue now <;> simp [hactive, hlate]
    · simp [hactive]

end

/-! ## Histories -/

/-- A call of the service or of its sweep, with what the outside gives it. -/
inductive Call where
  | createLock (intentId merchantId : Id) (asset baseAsset : String) (ttlSeconds : Option ℚ)
      (price : Except String ℚ) (uuid : Id) (now : Time)
  | getLock (intentId : Id)
  | consumeLock (intentId : Id) (now consumedAt : Time)
  | cancelLock (intentId : Id)
  | isLockValid (intentId : Id) (now : Time)
  | cleanupExpiredLocks (now : Time)

/-- What a call makes of the store. -/
def step (config : SpreadConfig) (locks : Locks) : Call → Locks
  | .createLock intentId merchantId asset baseAsset ttlSeconds price uuid now =>
    (createLock config intentId merchantId asset baseAsset ttlSeconds price uuid now locks).1
  | .getLock _ => locks
  | .consumeLock intentId now consumedAt => (consumeLock intentId now consumedAt locks).1
  | .cancelLock intentId => cancelLock intentId locks
  | .isLockValid intentId now => (isLockValid intentId now locks).1
  | .cleanupExpiredLocks now => (cleanupExpiredLocks now locks).1

/-- The store after a history of calls. -/
abbrev after (config : SpreadConfig) (calls : List Call) : Locks :=
  Async.Runs.exec (step config) Table.empty calls

end NexoraGateway.RateLocks
