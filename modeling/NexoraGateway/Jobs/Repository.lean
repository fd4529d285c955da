import Mathlib.Data.List.Sort
import NexoraGateway.Async.Prog
import NexoraGateway.Jobs.Types
import NexoraGateway.Store.Atomic
import NexoraGateway.Store.Table

/-!
# The statements of the job queue (`worker/src/job-queue.ts:164-291`)

Each statement of the queue is one atomic call on the `jobs` table. A call may be rejected, and then
it may still have been executed, only its answer being lost. Time is the clock of the database: it
passes after each call, by as much as the oracle says.

The code that handlers and producers run besides is left open: `Outside` is any set of calls on any
state. A call of a handler carries the job it is made for.

The store also keeps two records that no statement reads: `claims` has an entry (job, attempt) for each
claim, `outcomes` one for each claim that `complete` or `fail` has written an outcome of.

* `enqueue` — the `INSERT … ON CONFLICT (idempotency_key) DO NOTHING` (job-queue.ts:164).
* `claimBatch` — job-queue.ts:204; `SKIP LOCKED` passes over the rows of `Oracle.skips`.
* `writeOutcome` — the `UPDATE … WHERE id` of `complete` and the two of `fail` (job-queue.ts:228, :244).
* `reclaimStale` — job-queue.ts:280.
-/
namespace NexoraGateway.Jobs

open Store

/-- The calls, the state and the randomness of the code around the queue. -/
structure Outside where
  Call : Type
  Ret : Call → Type
  Oracle : Type
  State : Type
  handle : (b : Call) → Oracle → State → Except JsError (Ret b) × State

variable (X : Outside)

structure Db where
  jobs : Table Job.id
  clock : Time
  claims : List (Id × Int)
  outcomes : List (Id × Int)
  outer : X.State

/-- What one call meets: a fresh UUID, whether it is rejected and then executed all the same, the rows
that others have locked, a random number, what the outside call meets, and the time until the next. -/
structure Oracle where
  uuid : Id := ""
  rejects : Option JsError := none
  lost : Bool := false
  skips : List Id := []
  random : Fraction := default
  outer : X.Oracle
  took : Nat := 0

/-- What `complete` and `fail` record of an attempt. -/
inductive Outcome where
  | succeeded
  | deadLettered (lastError : String)
  | retried (delay : Int) (lastError : String)

/-- The `SET` of the outcome's `UPDATE`. -/
def Outcome.set (now : Time) : Outcome → Job → Job
  | succeeded, row =>
    { row with
      status := .succeeded, completedAt := some now, updatedAt := now, lockedAt := none, lockedBy := none
      lastError := none }
  | deadLettered lastError, row =>
    { row with
      status := .deadLettered, completedAt := some now, updatedAt := now, lockedAt := none
      lockedBy := none, lastError := some lastError }
  | retried delay lastError, row =>
    { row with
      status := .pending, runAt := now + delay, updatedAt := now, lockedAt := none, lockedBy := none
      lastError := some lastError }

variable {X}

inductive Call (X : Outside) : Type where
  | enqueue (queue jobType : String) (payload : Payload) (idempotencyKey : String) (maxAttempts delayMs : Int)
  | claimBatch (queue : String) (limit : Nat) (workerId : String)
  | writeOutcome (job : JobRecord) (outcome : Outcome)
  | reclaimStale (visibilityTimeoutMs : Int)
  | random
  | sleep (ms : Int)
  | outer (job : Option JobRecord) (b : X.Call)

def Call.Ans : Call X → Type
  | enqueue .. => Bool
  | claimBatch .. => List JobRecord
  | writeOutcome .. => Unit
  | reclaimStale _ => Nat
  | random => Fraction
  | sleep _ => Unit
  | outer _ b => X.Ret b

abbrev Answer (a : Call X) : Type := Except JsError a.Ans

/-- The row that `enqueue` inserts. -/
def newJob (id : Id) (now : Time) (queue jobType : String) (payload : Payload) (idempotencyKey : String)
    (maxAttempts delayMs : Int) : Job :=
  { id, queue, jobType, payload, idempotencyKey, maxAttempts, runAt := now + delayMs, createdAt := now
    updatedAt := now }

def enqueue (o : Oracle X) (queue jobType : String) (payload : Payload) (idempotencyKey : String)
    (maxAttempts delayMs : Int) (db : Db X) : Except JsError Bool × Db X :=
  let job := newJob o.uuid db.clock queue jobType payload idempotencyKey maxAttempts delayMs
  if db.jobs.rows.any (·.idempotencyKey = idempotencyKey) then request o.rejects o.lost (false, db) db
  else
    match db.jobs.insert? job with
    | none =>
      (.error { name := "error", message := "duplicate key value violates unique constraint \"jobs_pkey\"" }, db)
    | some jobs => request o.rejects o.lost (true, { db with jobs }) db

/-- `SET status = 'RUNNING', locked_at, locked_by, attempt_count + 1`. -/
def lock (now : Time) (workerId : String) (row : Job) : Job :=
  { row with
    status := .running, lockedAt := some now, lockedBy := some workerId, attemptCount := row.attemptCount + 1
    updatedAt := now }

/-- `WHERE queue = $1 AND status = 'PENDING' AND run_at <= NOW()`. -/
def Runnable (queue : String) (now : Time) (row : Job) : Prop :=
  row.queue = queue ∧ row.status = .pending ∧ row.runAt ≤ now

instance (queue : String) (now : Time) : DecidablePred (Runnable queue now) := fun _ =>
  inferInstanceAs (Decidable (_ ∧ _ ∧ _))

/-- The rows that a claim takes, oldest `run_at` first. -/
def runnable (o : Oracle X) (queue : String) (limit : Nat) (db : Db X) : List Job :=
  let due := db.jobs.rows.filter fun row => Runnable queue db.clock row ∧ row.id ∉ o.skips
  (due.insertionSort fun a b => a.runAt ≤ b.runAt).take limit

@[simp] theorem lock_id (now : Time) (workerId : String) (row : Job) :
    (lock now workerId row).id = row.id := rfl

def claimBatch (o : Oracle X) (queue : String) (limit : Nat) (workerId : String) (db : Db X) :
    Except JsError (List JobRecord) × Db X :=
  let batch := runnable o queue limit db
  let claimed := fun row : Job => decide (row.id ∈ batch.map Job.id)
  let jobs := db.jobs.updateWhere claimed (lock db.clock workerId) (lock_id db.clock workerId)
  let claims := db.claims ++ batch.map fun row => (row.id, row.attemptCount + 1)
  request o.rejects o.lost
    (batch.map fun row => mapJobRow (lock db.clock workerId row), { db with jobs, claims }) db

@[simp] theorem set_id (outcome : Outcome) (now : Time) (row : Job) : (outcome.set now row).id = row.id := by
  cases outcome <;> rfl

def writeOutcome (o : Oracle X) (job : JobRecord) (outcome : Outcome) (db : Db X) :
    Except JsError Unit × Db X :=
  let jobs := db.jobs.updateWhere (fun row => row.id = job.id) (outcome.set db.clock) (set_id outcome db.clock)
  request o.rejects o.lost ((), { db with jobs, outcomes := db.outcomes ++ [(job.id, job.attemptCount)] }) db

/-- `WHERE status = 'RUNNING' AND locked_at < NOW() - $1`. -/
def Stale (visibilityTimeoutMs : Int) (now : Time) (row : Job) : Prop :=
  row.status = .running ∧ ∃ t ∈ row.lockedAt, t < now - visibilityTimeoutMs

instance (visibilityTimeoutMs : Int) (now : Time) : DecidablePred (Stale visibilityTimeoutMs now) := fun row =>
  inferInstanceAs (Decidable (_ ∧ ∃ t ∈ row.lockedAt, _))

def reclaim (now : Time) (row : Job) : Job :=
  { row with
    status := .pending, runAt := now, updatedAt := now, lockedAt := none, lockedBy := none
    lastError := some ((row.lastError.map (· ++ " | ")).getD "" ++ "reclaimed after visibility timeout") }

@[simp] theorem reclaim_id (now : Time) (row : Job) : (reclaim now row).id = row.id := rfl

def reclaimStale (o : Oracle X) (visibilityTimeoutMs : Int) (db : Db X) : Except JsError Nat × Db X :=
  let stale := fun row => decide (Stale visibilityTimeoutMs db.clock row)
  let jobs := db.jobs.updateWhere stale (reclaim db.clock) (reclaim_id db.clock)
  request o.rejects o.lost ((db.jobs.rows.countP stale), { db with jobs }) db

/-- Time passes. -/
def Db.tick (o : Oracle X) (db : Db X) : Db X := { db with clock := db.clock + o.took }

def execute (o : Oracle X) (db : Db X) : (a : Call X) → Answer a × Db X
  | .enqueue queue jobType payload key maxAttempts delayMs =>
    enqueue o queue jobType payload key maxAttempts delayMs db
  | .claimBatch queue limit workerId => claimBatch o queue limit workerId db
  | .writeOutcome job outcome => writeOutcome o job outcome db
  | .reclaimStale visibilityTimeoutMs => reclaimStale o visibilityTimeoutMs db
  | .random => (.ok o.random, db)
  | .sleep _ => (.ok (), db)
  | .outer _ b => ((X.handle b o.outer db.outer).1, { db with outer := (X.handle b o.outer db.outer).2 })

def handle : Async.Handler (Call X) Answer (Oracle X) (Db X) := fun a o db =>
  ((execute o db a).1, (execute o db a).2.tick o)

/-! ## What a call does -/

/-- A call only lets time pass, or it is executed. -/
inductive Effect (db : Db X) : Call X → Db X → Prop
  | idle (a : Call X) (clock : Time) : Effect db a { db with clock }
  | enqueued {queue jobType : String} {payload : Payload} {key : String} {maxAttempts delayMs : Int} {id : Id}
      {jobs : Table Job.id} (clock : Time) (hkey : ∀ row ∈ db.jobs.rows, row.idempotencyKey ≠ key)
      (hins : db.jobs.insert? (newJob id db.clock queue jobType payload key maxAttempts delayMs) = some jobs) :
      Effect db (.enqueue queue jobType payload key maxAttempts delayMs) { db with jobs, clock }
  | claimed {queue : String} (limit : Nat) (workerId : String) {batch : List Job} (clock : Time)
      (hbatch : ∀ row ∈ batch, row ∈ db.jobs.rows ∧ Runnable queue db.clock row)
      (hnodup : (batch.map Job.id).Nodup) :
      Effect db (.claimBatch queue limit workerId)
        { db with
          jobs := db.jobs.updateWhere (fun row => row.id ∈ batch.map Job.id) (lock db.clock workerId) (lock_id _ _)
          claims := db.claims ++ batch.map fun row => (row.id, row.attemptCount + 1)
          clock }
  | wrote (job : JobRecord) (outcome : Outcome) (clock : Time) :
      Effect db (.writeOutcome job outcome)
        { db with
          jobs := db.jobs.updateWhere (fun row => row.id = job.id) (outcome.set db.clock) (set_id outcome _)
          outcomes := db.outcomes ++ [(job.id, job.attemptCount)]
          clock }
  | reclaimed (timeout : Int) (clock : Time) :
      Effect db (.reclaimStale timeout)
        { db with
          jobs := db.jobs.updateWhere (fun row => Stale timeout db.clock row) (reclaim db.clock) (reclaim_id _)
          clock }
  | outer (job : Option JobRecord) (b : X.Call) (state : X.State) (clock : Time) :
      Effect db (.outer job b) { db with outer := state, clock }

variable {db db' : Db X} {a : Call X} {o : Oracle X}

theorem mem_runnable {queue : String} {limit : Nat} {row : Job} (h : row ∈ runnable o queue limit db) :
    row ∈ db.jobs.rows ∧ Runnable queue db.clock row := by
  have hmem := List.mem_of_mem_take h
  simp only [List.mem_insertionSort, List.mem_filter, decide_eq_true_eq] at hmem
  exact ⟨hmem.1, hmem.2.1⟩

theorem nodup_runnable (o : Oracle X) (queue : String) (limit : Nat) (db : Db X) :
    ((runnable o queue limit db).map Job.id).Nodup := by
  have hdue : ((db.jobs.rows.filter fun row => Runnable queue db.clock row ∧ row.id ∉ o.skips).map Job.id).Nodup :=
    db.jobs.nodup.sublist (List.filter_sublist.map _)
  have hsort := ((List.perm_insertionSort (fun a b : Job => a.runAt ≤ b.runAt) _).map Job.id).nodup_iff.2 hdue
  exact hsort.sublist ((List.take_sublist _ _).map _)

theorem handle_effect (a : Call X) (o : Oracle X) (db : Db X) : Effect db a (handle a o db).2 := by
  have idle : Effect db a (db.tick o) := .idle a _
  cases a with
  | enqueue queue jobType payload key maxAttempts delayMs =>
    simp only [handle, execute, enqueue]
    split
    · exact request_rule (P := fun t : Db X => Effect db _ (t.tick o)) idle idle
    · rename_i hfree
      split
      · exact idle
      · rename_i jobs hins
        refine request_rule (P := fun t : Db X => Effect db _ (t.tick o)) (.enqueued _ ?_ hins) idle
        simpa using hfree
  | claimBatch queue limit workerId =>
    exact request_rule (P := fun t : Db X => Effect db _ (t.tick o))
      (.claimed limit workerId _ (fun _ => mem_runnable) (nodup_runnable o queue limit db)) idle
  | writeOutcome job outcome =>
    exact request_rule (P := fun t : Db X => Effect db _ (t.tick o)) (.wrote job outcome _) idle
  | reclaimStale timeout =>
    exact request_rule (P := fun t : Db X => Effect db _ (t.tick o)) (.reclaimed timeout _) idle
  | random => exact idle
  | sleep ms => exact idle
  | outer job b => exact .outer job b _ _

/-- A batch that is answered was claimed. -/
theorem claimBatch_ok {queue : String} {limit : Nat} {workerId : String} {jobs : List JobRecord}
    (h : (handle (.claimBatch queue limit workerId) o db).1 = .ok jobs) :
    ∃ batch : List Job, jobs = (batch.map (lock db.clock workerId)).map mapJobRow ∧
      (∀ row ∈ batch, row ∈ db.jobs.rows ∧ Runnable queue db.clock row) ∧ (batch.map Job.id).Nodup ∧
      (handle (.claimBatch queue limit workerId) o db).2 =
        { db with
          jobs := db.jobs.updateWhere (fun row => row.id ∈ batch.map Job.id) (lock db.clock workerId)
            (lock_id _ _)
          claims := db.claims ++ batch.map fun row => (row.id, row.attemptCount + 1)
          clock := db.clock + o.took } := by
  obtain ⟨hdb, hjobs⟩ := request_ok h
  refine ⟨runnable o queue limit db, ?_, fun _ => mem_runnable, nodup_runnable .., ?_⟩
  · rw [← hjobs, List.map_map]
    rfl
  · exact congrArg (Db.tick o) hdb

/-! ## What a call does to one row -/

/-- How often a job was claimed. -/
def Db.claimsOf (db : Db X) (id : Id) : Nat := db.claims.countP fun c => c.1 = id

/-- A row is left alone, or the call's statement has selected it. -/
inductive RowEffect (db db' : Db X) : Call X → Job → Job → Prop
  | same (a : Call X) (row : Job) (hclaims : db'.claimsOf row.id = db.claimsOf row.id) :
      RowEffect db db' a row row
  | claimed {queue : String} {limit : Nat} {workerId : String} {row : Job} (hrun : Runnable queue db.clock row)
      (hclaims : db'.claimsOf row.id = db.claimsOf row.id + 1) :
      RowEffect db db' (.claimBatch queue limit workerId) row (lock db.clock workerId row)
  | wrote {job : JobRecord} {row : Job} (outcome : Outcome) (hid : row.id = job.id)
      (hclaims : db'.claims = db.claims)
      (hwrote : db'.outcomes = db.outcomes ++ [(job.id, job.attemptCount)]) :
      RowEffect db db' (.writeOutcome job outcome) row (outcome.set db.clock row)
  | reclaimed {timeout : Int} {row : Job} (hstale : Stale timeout db.clock row)
      (hclaims : db'.claims = db.claims) :
      RowEffect db db' (.reclaimStale timeout) row (reclaim db.clock row)

theorem claimsOf_claim (db : Db X) {batch : List Job} (hnodup : (batch.map Job.id).Nodup) (id : Id) :
    (db.claims ++ batch.map fun row : Job => (row.id, row.attemptCount + 1)).countP (fun c => c.1 = id) =
      db.claimsOf id + if id ∈ batch.map Job.id then 1 else 0 := by
  have hcount : (batch.map fun row : Job => (row.id, row.attemptCount + 1)).countP (fun c => c.1 = id) =
      (batch.map Job.id).count id := by
    rw [List.count, List.countP_map, List.countP_map]
    rfl
  rw [List.countP_append, hcount, List.Nodup.count hnodup]
  rfl

/-- A row before the call becomes a row after it. -/
theorem Effect.row {row : Job} (h : Effect db a db') (hrow : row ∈ db.jobs.rows) :
    ∃ row' ∈ db'.jobs.rows, RowEffect db db' a row row' := by
  cases h with
  | idle a clock => exact ⟨row, hrow, .same a row rfl⟩
  | enqueued clock hkey hins =>
    exact ⟨row, Table.rows_insert? hins ▸ List.mem_append_left _ hrow, .same _ row rfl⟩
  | @claimed queue limit workerId batch clock hbatch hnodup =>
    have hclaims := claimsOf_claim db hnodup row.id
    by_cases hin : row.id ∈ batch.map Job.id
    · obtain ⟨row', hrow', hid⟩ := List.mem_map.1 hin
      obtain ⟨hmem, hrun⟩ := hbatch row' hrow'
      obtain rfl := Table.eq_of_key hmem hrow hid
      rw [if_pos hin] at hclaims
      exact ⟨_, by rw [Table.mem_updateWhere]; exact ⟨_, hrow, if_pos (decide_eq_true hin)⟩,
        .claimed hrun hclaims⟩
    · rw [if_neg hin] at hclaims
      exact ⟨row, by rw [Table.mem_updateWhere]; exact ⟨_, hrow, if_neg (by simpa using hin)⟩,
        .same _ row hclaims⟩
  | wrote job outcome clock =>
    by_cases hid : row.id = job.id
    · exact ⟨_, by rw [Table.mem_updateWhere]; exact ⟨_, hrow, if_pos (decide_eq_true hid)⟩,
        .wrote outcome hid rfl rfl⟩
    · exact ⟨row, by rw [Table.mem_updateWhere]; exact ⟨_, hrow, if_neg (by simpa using hid)⟩, .same _ row rfl⟩
  | reclaimed timeout clock =>
    by_cases hstale : Stale timeout db.clock row
    · exact ⟨_, by rw [Table.mem_updateWhere]; exact ⟨_, hrow, if_pos (decide_eq_true hstale)⟩,
        .reclaimed hstale rfl⟩
    · exact ⟨row, by rw [Table.mem_updateWhere]; exact ⟨_, hrow, if_neg (by simpa using hstale)⟩,
        .same _ row rfl⟩
  | outer job b state clock => exact ⟨row, hrow, .same _ row rfl⟩

/-- No statement writes what identifies a job. -/
theorem RowEffect.kept {row row' : Job} (h : RowEffect db db' a row row') :
    row'.id = row.id ∧ row'.queue = row.queue ∧ row'.jobType = row.jobType ∧ row'.payload = row.payload ∧
      row'.idempotencyKey = row.idempotencyKey ∧ row'.maxAttempts = row.maxAttempts := by
  cases h with
  | same => exact ⟨rfl, rfl, rfl, rfl, rfl, rfl⟩
  | claimed => exact ⟨rfl, rfl, rfl, rfl, rfl, rfl⟩
  | wrote outcome => cases outcome <;> exact ⟨rfl, rfl, rfl, rfl, rfl, rfl⟩
  | reclaimed => exact ⟨rfl, rfl, rfl, rfl, rfl, rfl⟩

/-- A row after the call was inserted by it, or it was there before. -/
theorem Effect.row_of {row' : Job} (h : Effect db a db') (hrow' : row' ∈ db'.jobs.rows) :
    (∃ queue jobType payload key maxAttempts delayMs,
      a = .enqueue queue jobType payload key maxAttempts delayMs ∧
        (∀ row ∈ db.jobs.rows, row.idempotencyKey ≠ key) ∧
      db'.claims = db.claims ∧ (∀ row ∈ db.jobs.rows, row.id ≠ row'.id) ∧
      row' = newJob row'.id db.clock queue jobType payload key maxAttempts delayMs) ∨
    ∃ row ∈ db.jobs.rows, RowEffect db db' a row row' := by
  by_cases hold : ∃ row ∈ db.jobs.rows, row.id = row'.id
  · obtain ⟨row, hrow, hid⟩ := hold
    obtain ⟨row'', hrow'', heff⟩ := h.row hrow
    obtain rfl := Table.eq_of_key hrow'' hrow' (heff.kept.1.trans hid)
    exact .inr ⟨row, hrow, heff⟩
  · have hnew : ∀ row ∈ db.jobs.rows, row.id ≠ row'.id := fun row hrow hid => hold ⟨row, hrow, hid⟩
    cases h with
    | @enqueued queue jobType payload key maxAttempts delayMs id jobs clock hkey hins =>
      simp only [Table.rows_insert? hins, List.mem_append, List.mem_singleton] at hrow'
      rcases hrow' with hrow' | rfl
      · exact absurd rfl (hnew _ hrow')
      · exact .inl ⟨queue, jobType, payload, key, maxAttempts, delayMs, rfl, hkey, rfl, hnew, rfl⟩
    | idle | outer => exact absurd rfl (hnew _ hrow')
    | claimed | wrote | reclaimed =>
      rw [Table.mem_updateWhere] at hrow'
      obtain ⟨row, hrow, rfl⟩ := hrow'
      refine absurd ?_ (hnew row hrow)
      split <;> simp

theorem Effect.claims (h : Effect db a db') : db.claims <+: db'.claims := by
  cases h with
  | claimed => exact List.prefix_append _ _
  | idle | enqueued | wrote | reclaimed | outer => exact List.prefix_refl _

theorem Effect.outcomes (h : Effect db a db') : db.outcomes <+: db'.outcomes := by
  cases h with
  | wrote => exact List.prefix_append _ _
  | idle | enqueued | claimed | reclaimed | outer => exact List.prefix_refl _

/-- The statements of the queue leave the outside alone. -/
theorem Effect.outer_eq (h : Effect db a db') (ha : ∀ job b, a ≠ .outer job b) : db'.outer = db.outer := by
  cases h with
  | outer job b => exact absurd rfl (ha job b)
  | idle | enqueued | claimed | wrote | reclaimed => rfl

end NexoraGateway.Jobs
