import NexoraGateway.Async.Knowledge
import NexoraGateway.Jobs.Repository

/-!
# The job queue (`worker/src/job-queue.ts`)

The methods of `JobQueue` as programs of its statements, and any number of workers and producers as a
pool (`Queue`). A worker that is not scheduled any more has stalled or died.

* `runOnce` — claims a batch and works it off, one job after another (job-queue.ts:298).
* `run` — the polling loop (job-queue.ts:329). The schedule decides how far it gets, so a bound on the
  cycles stands for the moment at which the signal is aborted.
* `within` — the code of a handler or a producer, as calls of the queue's pool.

A worker only starts handlers for, and only writes outcomes of, jobs of the batch it has claimed and
not yet dealt with: `run_obeys`.
-/
namespace NexoraGateway.Jobs

open Async

variable {X : Outside} {α : Type}

/-- Code around the queue. -/
abbrev Outside.Prog (X : Outside) (α : Type) :=
  Async.Prog X.Call (fun b => Except JsError (X.Ret b)) JsError α

/-- An `async` function on the queue. -/
abbrev Task (X : Outside) (α : Type) := Prog (Call X) Answer JsError α

def within (job : Option JobRecord) : X.Prog α → Task X α
  | .ret x => .ret x
  | .throw e => .throw e
  | .call b k => .call (.outer job b) fun r => within job (k r)

theorem within_bind {β : Type} (job : Option JobRecord) (p : X.Prog α) (f : α → X.Prog β) :
    within job (p.bind f) = (within job p).bind fun x => within job (f x) := by
  induction p with
  | ret x => rfl
  | throw e => rfl
  | call b k ih => exact congrArg (Prog.call _) (funext ih)

/-- The handlers of a queue, by job type. -/
abbrev Handlers (X : Outside) := String → Option (JobRecord → X.Prog Unit)

/-- What `fail` answers. -/
inductive FailResult where
  | retry | deadLetter
  deriving DecidableEq

namespace Task

def random : Task X Fraction := Prog.await Call.random
def writeOutcome (job : JobRecord) (outcome : Outcome) : Task X Unit :=
    Prog.await (Call.writeOutcome job outcome)
def sleep (ms : Int) : Task X Unit := Prog.await (Call.sleep ms)

end Task

variable (options : JobQueueOptions)

/-- job-queue.ts:164. -/
def enqueueJob (e : EnqueueOptions) : Task X Bool :=
  Prog.await (Call.enqueue (e.queue.getD defaultQueue) e.jobType e.payload e.idempotencyKey
    (e.maxAttempts.getD options.defaultMaxAttempts) (e.delayMs.getD 0))

/-- job-queue.ts:204. -/
def claim (limit : Nat) (queueName : String) : Task X (List JobRecord) :=
  Prog.await (Call.claimBatch queueName limit options.workerId)

/-- job-queue.ts:228. -/
def complete (job : JobRecord) : Task X Unit := Task.writeOutcome job .succeeded

/-- `delayMs ?? computeBackoffMs(…)` (job-queue.ts:262). -/
def retryDelay (attemptCount : Int) : Option Int → Task X Int
  | some delay => pure delay
  | none => do
    let random ← Task.random
    return computeBackoffMs attemptCount options.backoffBaseMs options.backoffMaxMs random

/-- `fail` (job-queue.ts:244); `attemptCount` is the job's own but for a missing handler. -/
def fail (job : JobRecord) (attemptCount : Int) (error : JsError) (delayMs : Option Int) :
    Task X FailResult := do
  if attemptCount ≥ job.maxAttempts then
    Task.writeOutcome job (.deadLettered (truncated error))
    return .deadLetter
  else
    let delay ← retryDelay options attemptCount delayMs
    Task.writeOutcome job (.retried delay (truncated error))
    return .retry

/-- job-queue.ts:280. -/
def reclaimJobs : Task X Nat := Prog.await (Call.reclaimStale options.visibilityTimeoutMs)

variable (handlers : Handlers X)

/-- One job of a batch (job-queue.ts:302). -/
def processJob (job : JobRecord) : Task X Unit :=
  match handlers job.jobType with
  | none => do
    let _ ← fail options job job.maxAttempts (jobHandlerMissingError job.jobType) none
  | some handler =>
    tryCatch
      (do
        within (some job) (handler job)
        complete job)
      fun error => do
        let _ ← fail options job job.attemptCount error none

/-- job-queue.ts:298. -/
def runOnce (queueName : String) : Task X Nat := do
  let batch ← claim options options.concurrency queueName
  batch.forM (processJob options handlers)
  return batch.length

/-- `run` (job-queue.ts:329) whose signal is aborted in cycle `n`. -/
def run (queueName : String) : Nat → Task X Unit
  | 0 => return
  | n + 1 => do
    let _ ← reclaimJobs options
    let _ ← runOnce options handlers queueName
    if n = 0 then return
    else
      Task.sleep options.pollIntervalMs
      run queueName n

/-- Workers, producers and the table between them. -/
abbrev Queue (X : Outside) := Pool (Call X) Answer JsError Unit (Db X)

/-- A schedule of the queue. -/
abbrev Schedule (X : Outside) := List (Choice (Call X) Answer JsError Unit (Oracle X))

/-- A worker's loop: any options, handlers, queue name and lifetime. -/
def IsWorker (p : Task X Unit) : Prop :=
  ∃ (options : JobQueueOptions) (handlers : Handlers X) (queueName : String) (n : Nat),
    p = run options handlers queueName n

/-- The calls of code that is no worker: it enqueues, or minds its own business. -/
def Call.Produces : Call X → Prop
  | enqueue .. | outer none _ => True
  | _ => False

/-- Anything that may run beside the workers. -/
def IsProducer (p : Task X Unit) : Prop := p.Only Call.Produces fun _ => True

/-- The table before anything was enqueued. -/
def Db.fresh (clock : Time) (outer : X.State) : Db X := ⟨.empty, clock, [], [], outer⟩

/-! ## What a worker holds -/

/-- The ghost state of a task is the part of its batch that it has not dealt with. A call of a handler
and an outcome are of a job that is held; a job is let go when `complete` succeeds and, whatever the
answer, by `fail`. -/
def holding : Protocol (Call X) Answer (List JobRecord) where
  ok held
    | .outer (some job) _ | .writeOutcome job _ => job ∈ held
    | _ => True
  rely
    | .claimBatch .., r => ∀ jobs, r = .ok jobs → (jobs.map JobRecord.id).Nodup
    | _, _ => True
  next held
    | .claimBatch .., .ok jobs => List.append held jobs
    | .writeOutcome job .succeeded, .ok _ => held.filter (·.id ≠ job.id)
    | .writeOutcome job (.deadLettered _), _ | .writeOutcome job (.retried ..), _ => held.filter (·.id ≠ job.id)
    | _, _ => held

/-- What is left after `job`: everything held under another id. -/
def LetGo (held : List JobRecord) (job : JobRecord) (held' : List JobRecord) : Prop :=
  ∀ other ∈ held, other.id ≠ job.id → other ∈ held'

theorem letGo_filter (held : List JobRecord) (job : JobRecord) : LetGo held job (held.filter (·.id ≠ job.id)) :=
  fun other hother hne => List.mem_filter.2 ⟨hother, by simpa using hne⟩

theorem within_obeys {job : JobRecord} {held : List JobRecord} (hjob : job ∈ held) (p : X.Prog α) :
    (within (some job) p).Obeys holding (fun held' _ => held' = held) held := by
  induction p with
  | ret x => rfl
  | throw e => rfl
  | call b k ih => exact ⟨hjob, fun r _ => ih r⟩

theorem fail_obeys {job : JobRecord} {held : List JobRecord} (hjob : job ∈ held) (attemptCount : Int)
    (error : JsError) (delayMs : Option Int) :
    (fail options job attemptCount error delayMs : Task X FailResult).Obeys holding
      (fun held' _ => LetGo held job held') held := by
  have hwrite (outcome : Outcome) (h : outcome ≠ .succeeded) (result : FailResult) :
      ((Task.writeOutcome job outcome : Task X Unit).bind fun _ => Prog.ret result).Obeys holding
        (fun held' _ => LetGo held job held') held := by
    refine Prog.Obeys.bind (Prog.obeys_await.2 ⟨hjob, fun r _ => ?_⟩)
    cases outcome with
    | succeeded => exact absurd rfl h
    | deadLettered => cases r <;> exact letGo_filter held job
    | retried => cases r <;> exact letGo_filter held job
  unfold fail
  split
  · exact hwrite (.deadLettered _) (by simp) _
  · cases delayMs with
    | some delay => exact hwrite (.retried delay _) (by simp) _
    | none =>
      refine Prog.Obeys.bind (Prog.Obeys.bind (Prog.obeys_await.2 ⟨trivial, fun r _ => ?_⟩))
      cases r with
      | error e => exact fun other hother _ => hother
      | ok random => exact hwrite (.retried _ _) (by simp) _

theorem processJob_obeys {job : JobRecord} {held : List JobRecord} (hjob : job ∈ held) :
    (processJob options handlers job).Obeys holding (fun held' _ => LetGo held job held') held := by
  have hfail (attemptCount : Int) (error : JsError) :
      ((fail options job attemptCount error none : Task X FailResult).bind fun _ => Prog.ret ()).Obeys holding
        (fun held' _ => LetGo held job held') held :=
    Prog.Obeys.bind ((fail_obeys options hjob attemptCount error none).mono fun held' out h => by
      cases out <;> exact h)
  unfold processJob
  split
  · exact hfail _ _
  · refine Prog.Obeys.tryCatch (Prog.Obeys.bind ((within_obeys hjob _).mono fun held' out h => ?_))
    subst h
    cases out with
    | error e => exact hfail _ e
    | ok _ =>
      refine Prog.obeys_await.2 ⟨hjob, fun r _ => ?_⟩
      cases r with
      | error e => exact hfail _ e
      | ok _ => exact letGo_filter _ job

theorem batch_obeys {batch : List JobRecord} (hnodup : (batch.map JobRecord.id).Nodup) {held : List JobRecord}
    (hheld : batch ⊆ held) :
    (batch.forM (processJob options handlers)).Obeys holding (fun _ _ => True) held := by
  induction batch generalizing held with
  | nil => trivial
  | cons job batch ih =>
    simp only [List.map_cons, List.nodup_cons] at hnodup
    refine Prog.Obeys.bind
      ((processJob_obeys options handlers (hheld List.mem_cons_self)).mono fun held' out h => ?_)
    cases out with
    | error e => trivial
    | ok _ =>
      refine ih hnodup.2 fun other hother => h other (hheld (List.mem_cons_of_mem _ hother)) fun hid => ?_
      exact hnodup.1 (hid ▸ List.mem_map_of_mem hother)

theorem runOnce_obeys (queueName : String) (held : List JobRecord) :
    (runOnce options handlers queueName).Obeys holding (fun _ _ => True) held := by
  refine Prog.Obeys.bind (Prog.obeys_await.2 ⟨trivial, fun r hr => ?_⟩)
  cases r with
  | error e => trivial
  | ok batch =>
    refine Prog.Obeys.bind
      ((batch_obeys options handlers (hr batch rfl) (List.subset_append_right held batch)).mono
      fun held' out _ => ?_)
    cases out <;> trivial

theorem run_obeys (queueName : String) (n : Nat) (held : List JobRecord) :
    (run options handlers queueName n).Obeys holding (fun _ _ => True) held := by
  induction n generalizing held with
  | zero => trivial
  | succ n ih =>
    refine Prog.Obeys.bind (Prog.obeys_await.2 ⟨trivial, fun r _ => ?_⟩)
    cases r with
    | error e => trivial
    | ok _ =>
      refine Prog.Obeys.bind ((runOnce_obeys options handlers queueName held).mono fun held' out _ => ?_)
      cases out with
      | error e => trivial
      | ok _ =>
        dsimp only [Prog.BindPost]
        split
        · trivial
        · refine Prog.Obeys.bind (Prog.obeys_await.2 ⟨trivial, fun r _ => ?_⟩)
          cases r with
          | error e => trivial
          | ok _ => exact ih held'

/-- Workers hold nothing when they start, and producers never do. -/
theorem task_obeys {p : Task X Unit} (hp : IsWorker p ∨ IsProducer p) :
    p.Obeys holding (fun _ _ => True) [] := by
  rcases hp with ⟨options, handlers, queueName, n, rfl⟩ | hp
  · exact run_obeys options handlers queueName n []
  · refine hp.obeys (fun held a ha => ?_) []
    cases a with
    | outer job b =>
      cases job with
      | none => trivial
      | some job => exact ha.elim
    | enqueue | claimBatch | reclaimStale | random | sleep => trivial
    | writeOutcome => exact ha.elim

variable {a : Call X} {o : Oracle X} {db : Db X} {held : List JobRecord}

theorem handle_rely (a : Call X) (o : Oracle X) (db : Db X) : holding.rely a (handle a o db).1 := by
  cases a with
  | claimBatch queue limit workerId =>
    intro jobs hjobs
    obtain ⟨batch, rfl, -, hnodup, -⟩ := claimBatch_ok hjobs
    rwa [List.map_map, List.map_map]
  | enqueue | writeOutcome | reclaimStale | random | sleep | outer => trivial

/-- What is held after a call was held before it, or the call has just claimed it. -/
theorem held_or_claimed {job : JobRecord} (h : job ∈ holding.next held a (handle a o db).1) :
    job ∈ held ∨ ∃ queue limit workerId row, a = .claimBatch queue limit workerId ∧ row ∈ db.jobs.rows ∧
      Runnable queue db.clock row ∧ job = mapJobRow (lock db.clock workerId row) ∧
      (job.id, job.attemptCount) ∈ (handle a o db).2.claims := by
  cases a with
  | claimBatch queue limit workerId =>
    cases hr : (handle (.claimBatch queue limit workerId) o db).1 with
    | error e =>
      rw [hr] at h
      exact .inl h
    | ok jobs =>
      rw [hr] at h
      rcases List.mem_append.1 h with h | h
      · exact .inl h
      · obtain ⟨batch, rfl, hbatch, -, hdb⟩ := claimBatch_ok hr
        simp only [List.map_map, List.mem_map] at h
        obtain ⟨row, hrow, rfl⟩ := h
        obtain ⟨hmem, hrun⟩ := hbatch row hrow
        refine .inr ⟨queue, limit, workerId, row, rfl, hmem, hrun, rfl, ?_⟩
        rw [hdb]
        exact List.mem_append_right _ (List.mem_map.2 ⟨row, hrow, rfl⟩)
  | writeOutcome job' outcome =>
    refine .inl ?_
    cases outcome with
    | succeeded =>
      cases hr : (handle (.writeOutcome job' .succeeded) o db).1 with
      | error e => rwa [hr] at h
      | ok _ =>
        rw [hr] at h
        exact List.mem_of_mem_filter h
    | deadLettered => exact List.mem_of_mem_filter h
    | retried => exact List.mem_of_mem_filter h
  | enqueue | reclaimStale | random | sleep | outer => exact .inl h

/-! ## What a worker knows -/

section
variable {S F : Type} {K : Knowledge (Call X) Answer S F} {facts : List F}

theorem justifies_fail {job : JobRecord} (hrandom : ∀ facts, K.ok facts .random)
    (hwrite : ∀ facts outcome, outcome ≠ .succeeded → K.ok facts (.writeOutcome job outcome)) (attemptCount : Int)
    (error : JsError) (delayMs : Option Int) :
    K.Justifies facts (fail options job attemptCount error delayMs) := by
  have hout {outcome : Outcome} (houtcome : outcome ≠ .succeeded) (result : FailResult) (facts : List F) :
      K.Justifies facts ((Task.writeOutcome job outcome).bind fun _ => Prog.ret result) :=
    Knowledge.justifies_bind (Knowledge.justifies_await (hwrite facts outcome houtcome)) fun _ _ _ => trivial
  unfold fail
  split
  · exact hout (by simp) _ facts
  · refine Knowledge.justifies_bind ?_ fun delay facts' _ => hout (by simp) _ facts'
    cases delayMs with
    | some delay => trivial
    | none => exact Knowledge.justifies_bind (Knowledge.justifies_await (hrandom facts)) fun _ _ _ => trivial

theorem justifies_runOnce {queueName : String}
    (hclaim : ∀ facts, K.ok facts (.claimBatch queueName options.concurrency options.workerId))
    (hjob : ∀ facts (batch : List JobRecord),
      K.rely (.claimBatch queueName options.concurrency options.workerId) (.ok batch) →
      ∀ job ∈ batch, ∀ facts',
        facts ++ K.learns (.claimBatch queueName options.concurrency options.workerId) (.ok batch) ⊆ facts' →
        K.Justifies facts' (processJob options handlers job)) :
    K.Justifies facts (runOnce options handlers queueName) := by
  refine Prog.Obeys.bind (Prog.obeys_await.2 ⟨hclaim facts, fun r hr => ?_⟩)
  cases r with
  | error e => trivial
  | ok batch =>
    exact Knowledge.justifies_bind (Knowledge.justifies_forM (hjob facts batch hr)) fun _ _ _ => trivial

/-- A loop acts on what it knows when it does so with each job that it has claimed. -/
theorem justifies_run {queueName : String}
    (hreclaim : ∀ facts, K.ok facts (.reclaimStale options.visibilityTimeoutMs))
    (hclaim : ∀ facts, K.ok facts (.claimBatch queueName options.concurrency options.workerId))
    (hsleep : ∀ facts, K.ok facts (.sleep options.pollIntervalMs))
    (hjob : ∀ facts (batch : List JobRecord),
      K.rely (.claimBatch queueName options.concurrency options.workerId) (.ok batch) →
      ∀ job ∈ batch, ∀ facts',
        facts ++ K.learns (.claimBatch queueName options.concurrency options.workerId) (.ok batch) ⊆ facts' →
        K.Justifies facts' (processJob options handlers job))
    (n : Nat) : K.Justifies facts (run options handlers queueName n) := by
  induction n generalizing facts with
  | zero => trivial
  | succ n ih =>
    refine Knowledge.justifies_bind (Knowledge.justifies_await (hreclaim facts)) fun _ polled _ => ?_
    refine Knowledge.justifies_bind (justifies_runOnce options handlers hclaim hjob) fun _ worked _ => ?_
    split
    · trivial
    · exact Knowledge.justifies_bind (Knowledge.justifies_await (hsleep worked)) fun _ slept _ => ih

end

/-! ## A queue with one handler -/

/-- Handlers make a single call, which fails as the oracle says. -/
def bench : Outside where
  Call := Unit
  Ret _ := Unit
  Oracle := Option JsError
  State := Unit
  handle _ o s := (match o with | none => .ok () | some e => .error e, s)

/-- The one handler there is, for `deposit.record`. -/
def benchHandlers : Handlers bench := fun jobType =>
  if jobType = "deposit.record" then some fun _ => .call () Prog.ofExcept else none

def benchOptions (workerId : String) : JobQueueOptions := { workerId, visibilityTimeoutMs := 1000 }

/-- A worker that runs for `n` cycles. -/
def worker (workerId : String) (n : Nat) : Task bench Unit :=
    run (benchOptions workerId) benchHandlers defaultQueue n

/-- A producer of one job. -/
def producer (key : String) (maxAttempts : Int) : Task bench Unit := do
  let _ ← enqueueJob (benchOptions "api")
    { jobType := "deposit.record", payload := [], idempotencyKey := key, maxAttempts := some maxAttempts }

abbrev BenchStep := Choice (Call bench) Answer JsError Unit (Oracle bench)

/-- Task `i` makes its next call, and `took` passes. -/
def next (i : Nat) (took : Nat) : BenchStep := .step i { outer := none, took }

/-- The call of a handler that fails. -/
def fails (i : Nat) : BenchStep := .step i { outer := some { message := "boom" } }

/-- Job `id`, enqueued as task `i`. -/
def enqueued (i : Nat) (id : Id) (maxAttempts : Int) : List BenchStep :=
  [.spawn (producer id maxAttempts), .step i { outer := none, uuid := id }]

abbrev idle : Queue bench := ⟨.fresh 0 (), []⟩

theorem isProducer_producer (key : String) (maxAttempts : Int) : IsProducer (producer key maxAttempts) :=
  Prog.Only.bind (Prog.Only.await trivial) fun _ => Prog.Only.ret _

theorem isWorker_worker (workerId : String) (n : Nat) : IsWorker (worker workerId n) := ⟨_, _, _, _, rfl⟩

def Db.statusOf (db : Db X) (id : Id) : Option JobStatus := (db.jobs.find? id).map Job.status

end NexoraGateway.Jobs
