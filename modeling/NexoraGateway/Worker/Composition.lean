import NexoraGateway.Intent.Deposits
import NexoraGateway.Worker.Observers

/-!
# The worker that `compose` builds (`worker/src/composition.ts`)

One queue serves the watcher, the tracker and the loop, but the first two enqueue to `deposits` and the loop,
started without a queue name, drains `default`. `deposits_never_claimed` is what comes of it.
-/
namespace NexoraGateway.Worker

open Async Store

/-- What `compose` reads of the configuration (config.ts:20). -/
structure WorkerConfig where
  chains : List ChainClient
  workerId : String
  pollIntervalMs : Int
  concurrency : Nat
  jobMaxAttempts : Int
  jobBackoffBaseMs : Int
  jobBackoffMaxMs : Int
  visibilityTimeoutMs : Int

/-- `queueOptions` (composition.ts:96). -/
def queueOptions (config : WorkerConfig) : Jobs.JobQueueOptions where
  workerId := config.workerId
  pollIntervalMs := config.pollIntervalMs
  concurrency := config.concurrency
  defaultMaxAttempts := config.jobMaxAttempts
  backoffBaseMs := config.jobBackoffBaseMs
  backoffMaxMs := config.jobBackoffMaxMs
  visibilityTimeoutMs := config.visibilityTimeoutMs

/-- A promise whose rejection is only logged. -/
def logged (p : Task Unit) : Task Unit := tryCatch p fun _ => return

/-- `queue.run(signal)` (composition.ts:149), stopped in cycle `n`. -/
def queueLoop (config : WorkerConfig) (n : Nat) : Task Unit :=
  logged (Jobs.run (queueOptions config) jobHandlers Jobs.defaultQueue n)

/-- What goes on in a worker that was started, and the code of other processes on the same database, which make
no statement of the queue. -/
inductive Activity : Task Unit → Prop
  | loop (config : WorkerConfig) (n : Nat) : Activity (queueLoop config n)
  | deposit (config : WorkerConfig) {client : ChainClient} (hclient : client ∈ config.chains)
    (event : DepositEvent) :
      Activity (logged (onDeposit (queueOptions config) client.chainId event))
  | sweep (config : WorkerConfig) :
      Activity (logged (do let _ ← sweep (queueOptions config) config.chains none))
  | other (p : Routine Unit) : Activity (Jobs.within none p)

/-- Jobs are enqueued to `deposits` and claimed from `default`, so a claim is answered with nothing and no job is
handled. There is nothing to learn. -/
def apart : Knowledge (Jobs.Call worker) Jobs.Answer (Jobs.Db worker) Empty where
  Holds _ _ := True
  ok _
    | .enqueue queue .. => queue = queueDeposits
    | .claimBatch queue .. => queue = Jobs.defaultQueue
    | .writeOutcome .. | .outer (some _) _ => False
    | _ => True
  rely
    | .claimBatch .., r => ∀ jobs, r = .ok jobs → jobs = []
    | _, _ => True
  learns _ _ := []

/-- No job is in the queue that is drained, and none was ever claimed. -/
structure Apart (db : Jobs.Db worker) : Prop where
  waiting : ∀ row ∈ db.jobs.rows, row.queue = queueDeposits ∧ row.status = .pending
  unclaimed : db.claims = []

theorem apart_logged {p : Task Unit} (hp : apart.Justifies [] p) : apart.Justifies [] (logged p) :=
  Knowledge.justifies_tryCatch hp fun _ _ _ => trivial

theorem apart_loop (config : WorkerConfig) (n : Nat) : apart.Justifies [] (queueLoop config n) := by
  refine apart_logged (Jobs.justifies_run _ _ (fun _ => trivial) (fun _ => rfl) (fun _ => trivial) ?_ n)
  intro facts batch hbatch job hjob
  rw [hbatch batch rfl] at hjob
  exact absurd hjob List.not_mem_nil

variable (options : Jobs.JobQueueOptions)

theorem apart_onDeposit (chainId : String) (event : DepositEvent) : apart.Justifies []
    (onDeposit options chainId event) := by
  have honly : (onDeposit options chainId event).Only (fun a => ∀ facts, apart.ok facts a) fun _ => True :=
    onDeposit_only options (fun _ => trivial) fun _ _ _ _ => rfl
  exact honly.obeys (fun facts _ ha => ha facts) []

theorem apart_sweep (chains : List ChainClient) (batchSize : Option Nat) :
    apart.Justifies [] (sweep options chains batchSize) := by
  have honly : (sweep options chains batchSize).Only (fun a => ∀ facts, apart.ok facts a) fun _ => True :=
    sweep_only options chains batchSize (fun _ => trivial) (fun _ _ => trivial) (fun _ _ _ => trivial) fun _ _ _ _ _ =>
      rfl
  exact honly.obeys (fun facts _ ha => ha facts) []

theorem apart_activity {p : Task Unit} (hp : Activity p) : apart.Justifies [] p := by
  cases hp with
  | loop config n => exact apart_loop config n
  | deposit config hclient event => exact apart_logged (apart_onDeposit _ _ event)
  | sweep config => exact apart_logged (Knowledge.justifies_bind (apart_sweep _ _ _) fun _ _ _ => trivial)
  | other p =>
    induction p with
    | ret x => trivial
    | throw e => trivial
    | call b k ih => exact ⟨trivial, fun r _ => ih r⟩

variable {a : Jobs.Call worker} {o : Jobs.Oracle worker} {db : Jobs.Db worker}

/-- A claim finds nothing in `default`. -/
theorem claim_empty (hdb : Apart db) {batch : List Jobs.Job}
    (hbatch : ∀ row ∈ batch, row ∈ db.jobs.rows ∧ Jobs.Runnable Jobs.defaultQueue db.clock row) :
    batch = [] := by
  refine List.eq_nil_iff_forall_not_mem.2 fun row hrow => ?_
  obtain ⟨hmem, hqueue, -⟩ := hbatch row hrow
  rw [(hdb.waiting row hmem).1] at hqueue
  exact absurd hqueue (by decide)

theorem answer_apart (hdb : Apart db) {facts : List Empty} (hok : apart.ok facts a) :
    apart.rely a (Jobs.handle a o db).1 := by
  cases a with
  | claimBatch queue limit workerId =>
    obtain rfl : queue = Jobs.defaultQueue := hok
    intro jobs hjobs
    obtain ⟨batch, rfl, hbatch, -⟩ := Jobs.claimBatch_ok hjobs
    rw [claim_empty hdb hbatch]
    rfl
  | enqueue | writeOutcome | reclaimStale | random | sleep | outer => trivial

theorem step_apart (hdb : Apart db) {facts : List Empty} (hok : apart.ok facts a) :
    Apart (Jobs.handle a o db).2 := by
  have heff := Jobs.handle_effect a o db
  constructor
  · intro row' hrow'
    rcases heff.row_of hrow' with
      ⟨queue, jobType, payload, key, maxAttempts, delayMs, rfl, -, -, -, hnew⟩ | ⟨row, hrow, hto⟩
    · rw [hnew]
      exact ⟨hok, rfl⟩
    · obtain ⟨hqueue, hpending⟩ := hdb.waiting row hrow
      cases hto with
      | same => exact ⟨hqueue, hpending⟩
      | claimed hrun =>
        obtain rfl := hok
        exact absurd (hrun.1.symm.trans hqueue) (by decide)
      | wrote => exact hok.elim
      | reclaimed hstale => exact absurd (hpending.symm.trans hstale.1) (by decide)
  · generalize (Jobs.handle a o db).2 = db' at heff
    cases heff with
    | claimed limit workerId clock hbatch =>
      obtain rfl := hok
      simp [claim_empty hdb hbatch, hdb.unclaimed]
    | idle | enqueued | wrote | reclaimed | outer => exact hdb.unclaimed

/-- **No job of the watcher or the tracker is ever claimed**, whatever the configuration and however many workers
run for however long: every job waits in `deposits`, no handler is started, and nobody claims from `deposits`. -/
theorem deposits_never_claimed (clock : Time) (outer : State) (cs : Jobs.Schedule worker)
    (hcs : ∀ p, .spawn p ∈ cs → Activity p) :
    let w : Jobs.Queue worker := Pool.exec Jobs.handle ⟨.fresh clock outer, []⟩ cs
    (∀ row ∈ w.store.jobs.rows, row.queue = queueDeposits ∧ row.status = .pending ∧ w.store.claimsOf row.id = 0) ∧
    ∀ i, (∀ job b, w.pending i ≠ some (.outer (some job) b)) ∧
      ∀ queue limit workerId, w.pending i = some (.claimBatch queue limit workerId) →
        queue ≠ queueDeposits := by
  intro w
  have hinv : w.GhostInv apart.protocol (apart.Sound Apart) := by
    refine Knowledge.exec_knows (fun p hp => apart_activity hp) (fun db facts a o hdb _ hok => ?_) ?_ hcs
    · exact ⟨answer_apart hdb hok, step_apart hdb hok, fun _ _ => trivial, fun _ _ => trivial⟩
    · exact ⟨fun row hrow => absurd hrow List.not_mem_nil, rfl⟩
  obtain ⟨gs, ⟨hdb, -⟩, -⟩ := hinv.pending
  refine ⟨?_, fun i => ⟨?_, ?_⟩⟩
  · intro row hrow
    obtain ⟨hqueue, hpending⟩ := hdb.waiting row hrow
    exact ⟨hqueue, hpending, by rw [Jobs.Db.claimsOf, hdb.unclaimed]; rfl⟩
  · intro job b hi
    obtain ⟨facts, hok, -⟩ := Knowledge.pending_justified hinv hi
    exact hok
  · intro queue limit workerId hi
    obtain ⟨facts, hok, -⟩ := Knowledge.pending_justified hinv hi
    obtain rfl : queue = Jobs.defaultQueue := hok
    decide

/-- One worker with a client of Ethereum. -/
def config : WorkerConfig := ⟨[⟨"ethereum", 12⟩], "w", 5000, 4, 5, 1000, 300000, 120000⟩

/-- 100 USDC to the deposit address of the shop's intent. -/
def transfer : DepositEvent := ⟨"0xa", 7, "0xdeposit", ⟨"0xusdc", "USDC", 6⟩, "100000000"⟩

def step (i : Nat) : Choice (Jobs.Call worker) Jobs.Answer Jobs.JsError Unit (Jobs.Oracle worker) :=
  .step i { outer := {}, uuid := "job" }

/-- The transfer is observed, and then the loop polls twice and is stopped. -/
def observedAndPolled : Jobs.Schedule worker :=
  [.spawn (logged (onDeposit (queueOptions config) "ethereum" transfer)), step 0, step 0,
    .spawn (queueLoop config 2)] ++ List.replicate 5 (step 1)

/-- The rule in that run. -/
theorem deposits_never_claimed_polled :
    let w : Jobs.Queue worker :=
      Pool.exec Jobs.handle ⟨.fresh 0 { intents := Intent.quotedDb }, []⟩ observedAndPolled
    ∃ row ∈ w.store.jobs.rows, row.jobType = jobDepositRecord ∧ row.queue = queueDeposits ∧
      row.status = .pending := by
  intro w
  have hactivity : ∀ p, .spawn p ∈ observedAndPolled → Activity p := by
    intro p hp
    simp only [observedAndPolled, step, List.cons_append, List.nil_append, List.mem_cons, List.mem_replicate,
      Choice.spawn.injEq, reduceCtorEq, and_false, or_false, false_or] at hp
    rcases hp with rfl | rfl
    · exact .deposit config (List.mem_cons_self : (⟨"ethereum", 12⟩ : ChainClient) ∈ config.chains) transfer
    · exact .loop config 2
  have hrow : ∃ row ∈ w.store.jobs.rows, row.jobType = jobDepositRecord := by decide +kernel
  obtain ⟨row, hmem, htype⟩ := hrow
  obtain ⟨hqueue, hpending, -⟩ := (deposits_never_claimed 0 _ observedAndPolled hactivity).1 row hmem
  exact ⟨row, hmem, htype, hqueue, hpending⟩

/-- The job is due and no other is, the loop has ended after two cycles in which every statement was answered, and
the job is unclaimed. -/
theorem deposit_left_unclaimed :
    let w : Jobs.Queue worker :=
      Pool.exec Jobs.handle ⟨.fresh 0 { intents := Intent.quotedDb }, []⟩ observedAndPolled
    (w.store.jobs.rows.map fun row =>
      (row.id, row.jobType, decide (row.runAt ≤ w.store.clock), decide (row.status = .pending),
        w.store.claimsOf row.id)) =
        [("job", jobDepositRecord, true, true, 0)] ∧
    w.returned 1 = true := by
  decide +kernel

end NexoraGateway.Worker
