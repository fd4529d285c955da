import Mathlib.Algebra.Order.Field.Power
import Mathlib.Data.Rat.Floor
import NexoraGateway.Json

/-!
# Jobs (`worker/src/job-queue.ts`, `worker/src/errors.ts`, migration 011)

The rows of the `jobs` table, the records that workers are handed, the options of a queue, and the
delay before a retry.
-/
namespace NexoraGateway.Jobs

inductive JobStatus where
  | pending | running | succeeded | failed | deadLettered
  deriving DecidableEq, Repr

/-- The statuses that no job is to leave. -/
def JobStatus.Terminal (s : JobStatus) : Prop := s = .succeeded ∨ s = .deadLettered

instance : DecidablePred JobStatus.Terminal := fun s => inferInstanceAs (Decidable (s = _ ∨ s = _))

/-- `DEFAULT_QUEUE` (job-queue.ts:23). -/
def defaultQueue : String := "default"

/-- A `jobs` row. -/
structure Job where
  id : Id
  queue : String
  jobType : String
  payload : Payload
  idempotencyKey : String
  status : JobStatus := .pending
  attemptCount : Int := 0
  maxAttempts : Int := 5
  runAt : Time
  lockedAt : Option Time := none
  lockedBy : Option String := none
  lastError : Option String := none
  createdAt : Time
  updatedAt : Time
  completedAt : Option Time := none

/-- `JobRecord` (job-queue.ts:25). -/
structure JobRecord where
  id : Id
  queue : String
  jobType : String
  payload : Payload
  idempotencyKey : String
  status : JobStatus
  attemptCount : Int
  maxAttempts : Int
  runAt : Time
  lastError : Option String

/-- `mapJobRow` (job-queue.ts:118). -/
def mapJobRow (row : Job) : JobRecord :=
  { id := row.id, queue := row.queue, jobType := row.jobType, payload := row.payload
    idempotencyKey := row.idempotencyKey, status := row.status, attemptCount := row.attemptCount
    maxAttempts := row.maxAttempts, runAt := row.runAt, lastError := row.lastError.filter (· ≠ "") }

/-- `EnqueueOptions` (job-queue.ts:50); `client` only says in whose transaction the insert is. -/
structure EnqueueOptions where
  jobType : String
  payload : Payload
  idempotencyKey : String
  queue : Option String := none
  maxAttempts : Option Int := none
  delayMs : Option Int := none

/-- `JobQueueOptions` (job-queue.ts:65). -/
structure JobQueueOptions where
  workerId : String
  pollIntervalMs : Int := 5000
  concurrency : Nat := 4
  defaultMaxAttempts : Int := 5
  backoffBaseMs : Int := 1000
  backoffMaxMs : Int := 300000
  visibilityTimeoutMs : Int := 120000

/-- What is read of a thrown `Error`. -/
structure JsError where
  name : String := "Error"
  message : String
  deriving DecidableEq

/-- `JobHandlerMissingError` (errors.ts:16). -/
def jobHandlerMissingError (jobType : String) : JsError :=
  { name := "JobHandlerMissingError", message := "No handler registered for job type \"" ++ jobType ++ "\"" }

/-- The `last_error` of a failure: the error's name and message, cut to 2000 characters. `slice` counts a character
beyond U+FFFF twice. -/
def truncated (error : JsError) : String :=
  String.ofList ((error.name ++ ": " ++ error.message).toList.take 2000)

/-- What `Math.random()` returns. -/
structure Fraction where
  val : ℚ
  nonneg : 0 ≤ val
  lt_one : val < 1

instance : Inhabited Fraction := ⟨0, le_refl 0, zero_lt_one⟩

/-- `computeBackoffMs` (job-queue.ts:92). -/
def computeBackoffMs (attempt baseMs maxMs : Int) (random : Fraction) : Int :=
  let exponential := min maxMs (baseMs * 2 ^ (max 0 (attempt - 1)).toNat)
  let half := max 1 (exponential / 2)
  half + ⌊random.val * half⌋

/-! ## The delay before a retry -/

variable {attempt attempt' baseMs maxMs half half' : Int}

theorem jitter_nonneg (hhalf : 0 ≤ half) (random : Fraction) : 0 ≤ ⌊random.val * half⌋ :=
  Int.floor_nonneg.2 (mul_nonneg random.nonneg (by exact_mod_cast hhalf))

theorem jitter_lt (hhalf : 0 < half) (random : Fraction) : ⌊random.val * half⌋ < half := by
  rw [Int.floor_lt]
  exact mul_lt_of_lt_one_left (by exact_mod_cast hhalf) random.lt_one

theorem jitter_mono (hhalf : half ≤ half') (random : Fraction) : ⌊random.val * half⌋ ≤ ⌊random.val * half'⌋ :=
  Int.floor_le_floor (mul_le_mul_of_nonneg_left (by exact_mod_cast hhalf) random.nonneg)

theorem one_le_computeBackoffMs (attempt baseMs maxMs : Int) (random : Fraction) :
    1 ≤ computeBackoffMs attempt baseMs maxMs random := by
  unfold computeBackoffMs
  dsimp only
  have hone := le_max_left (1 : ℤ) (min maxMs (baseMs * 2 ^ (max 0 (attempt - 1)).toNat) / 2)
  have hjitter := jitter_nonneg (zero_le_one.trans hone) random
  omega

/-- The jitter stays below the deterministic half, so that both stay below the ceiling. -/
theorem computeBackoffMs_le (hmax : 1 ≤ maxMs) (random : Fraction) :
    computeBackoffMs attempt baseMs maxMs random ≤ maxMs := by
  unfold computeBackoffMs
  dsimp only
  have hceiling := min_le_left maxMs (baseMs * 2 ^ (max 0 (attempt - 1)).toNat)
  generalize min maxMs _ = exponential at hceiling ⊢
  have hjitter := jitter_lt (lt_of_lt_of_le zero_lt_one (le_max_left 1 (exponential / 2))) random
  omega

theorem computeBackoffMs_mono (hbase : 0 ≤ baseMs) (random : Fraction) (h : attempt ≤ attempt') :
    computeBackoffMs attempt baseMs maxMs random ≤ computeBackoffMs attempt' baseMs maxMs random := by
  have hexponent : (max 0 (attempt - 1)).toNat ≤ (max 0 (attempt' - 1)).toNat := by omega
  have hpower : baseMs * 2 ^ (max 0 (attempt - 1)).toNat ≤ baseMs * 2 ^ (max 0 (attempt' - 1)).toNat := by
    gcongr
    norm_num
  have hhalf : max 1 (min maxMs (baseMs * 2 ^ (max 0 (attempt - 1)).toNat) / 2) ≤
      max 1 (min maxMs (baseMs * 2 ^ (max 0 (attempt' - 1)).toNat) / 2) := by omega
  exact add_le_add hhalf (jitter_mono hhalf random)

/-- At an attempt below the first the delay is that of the first, which only helps. -/
theorem ceiling_reached (hbase : 0 ≤ baseMs) (h : (maxMs : ℚ) ≤ baseMs * 2 ^ (attempt - 1)) :
    maxMs ≤ baseMs * 2 ^ (max 0 (attempt - 1)).toNat := by
  have hpower : (2 : ℚ) ^ (attempt - 1) ≤ 2 ^ (max 0 (attempt - 1)).toNat := by
    rw [← zpow_natCast]
    exact zpow_le_zpow_right₀ one_le_two (by omega)
  have hterm : (maxMs : ℚ) ≤ (baseMs * 2 ^ (max 0 (attempt - 1)).toNat : ℤ) := by
    push_cast
    exact h.trans (mul_le_mul_of_nonneg_left hpower (by exact_mod_cast hbase))
  exact_mod_cast hterm

/-- **The delay is at least one, at most the ceiling, and grows with the attempts; once the exponential term has reached
the ceiling it is in the upper half.** -/
theorem computeBackoffMs_bounds (baseMs maxMs : Int) (hbase : 1 ≤ baseMs) (hmax : 1 ≤ maxMs) (random : Fraction) :
    (∀ attempt, 1 ≤ computeBackoffMs attempt baseMs maxMs random ∧
      computeBackoffMs attempt baseMs maxMs random ≤ maxMs) ∧
    (∀ attempt attempt', attempt ≤ attempt' →
      computeBackoffMs attempt baseMs maxMs random ≤ computeBackoffMs attempt' baseMs maxMs random) ∧
    ∀ attempt : Int, (maxMs : ℚ) ≤ baseMs * 2 ^ (attempt - 1) →
      max 1 (maxMs / 2) ≤ computeBackoffMs attempt baseMs maxMs random ∧
      computeBackoffMs attempt baseMs maxMs random ≤ maxMs := by
  refine ⟨fun attempt => ⟨one_le_computeBackoffMs .., computeBackoffMs_le hmax random⟩,
    fun attempt attempt' h => computeBackoffMs_mono (by omega) random h,
    fun attempt h => ⟨?_, computeBackoffMs_le hmax random⟩⟩
  have hterm := ceiling_reached (by omega) h
  unfold computeBackoffMs
  dsimp only
  rw [min_eq_left hterm]
  have hjitter := jitter_nonneg (zero_le_one.trans (le_max_left (1 : ℤ) (maxMs / 2))) random
  omega

theorem computeBackoffMs_bounds_five_seconds : (1 ≤ (1000 : Int) ∧ 1 ≤ (5000 : Int)) ∧
    (5000 : ℚ) ≤ 1000 * 2 ^ (4 - 1 : Int) ∧
    max 1 (5000 / 2) ≤ computeBackoffMs 4 1000 5000 ⟨1 / 2, by norm_num, by norm_num⟩ ∧
    computeBackoffMs 4 1000 5000 ⟨1 / 2, by norm_num, by norm_num⟩ ≤ 5000 :=
  ⟨by decide, by norm_num, (computeBackoffMs_bounds 1000 5000 (by decide) (by decide) _).2.2 4 (by norm_num)⟩

end NexoraGateway.Jobs
