import NexoraGateway.Worker.Composition

/-!
# What the tasks enqueue

The watcher enqueues under the key of a transfer, the tracker under that of a transaction to confirm, and the
loops and everything beside the queue nothing. `Enqueues` says which jobs a call may enqueue, by type and key.
-/
namespace NexoraGateway.Worker

open Async

/-- What the call enqueues, if anything, is allowed. -/
def Enqueues (allowed : String → String → Prop) : Jobs.Call worker → Prop
  | .enqueue _ jobType _ key .. => allowed jobType key
  | _ => True

section
variable (allowed : String → String → Prop)

/-- Each job that `p` enqueues is allowed. -/
abbrev EnqueuesOnly {α : Type} (p : Task α) : Prop := p.Only (Enqueues allowed) fun _ => True

end

variable {allowed : String → String → Prop} {α : Type}

theorem within_enqueues (job : Option Jobs.JobRecord) (p : Routine α) : EnqueuesOnly allowed (Jobs.within job p) := by
  induction p with
  | ret x => exact Prog.Only.ret x
  | throw e => exact Prog.Only.throw trivial
  | call b k ih => exact ⟨trivial, fun r _ => ih r⟩

theorem logged_enqueues {p : Task Unit} (hp : EnqueuesOnly allowed p) : EnqueuesOnly allowed (logged p) :=
  hp.tryCatch fun _ _ => Prog.Only.ret ()

/-- When every job is allowed and so is what a call enqueues, every job is afterwards. -/
theorem enqueued_allowed {a : Jobs.Call worker} {o : Jobs.Oracle worker} {db : Jobs.Db worker}
    (hdb : ∀ row ∈ db.jobs.rows, allowed row.jobType row.idempotencyKey) (ha : Enqueues allowed a) :
    ∀ row ∈ (Jobs.handle a o db).2.jobs.rows, allowed row.jobType row.idempotencyKey := by
  intro row' hrow'
  rcases (Jobs.handle_effect a o db).row_of hrow' with
    ⟨queue, jobType, payload, key, maxAttempts, delayMs, rfl, -, -, -, hnew⟩ | ⟨row, hrow, heff⟩
  · rw [hnew]
    exact ha
  · obtain ⟨-, -, htype, -, hkey, -⟩ := heff.kept
    rw [htype, hkey]
    exact hdb row hrow

section
variable (options : Jobs.JobQueueOptions) (handlers : Jobs.Handlers worker)

theorem fail_enqueues (job : Jobs.JobRecord) (attemptCount : Int) (error : Jobs.JsError) (delayMs : Option Int) :
    EnqueuesOnly allowed (Jobs.fail options job attemptCount error delayMs) := by
  unfold Jobs.fail
  split
  · exact Prog.Only.bind (Prog.Only.await trivial) fun _ => Prog.Only.ret _
  · refine Prog.Only.bind ?_ fun _ => Prog.Only.bind (Prog.Only.await trivial) fun _ => Prog.Only.ret _
    cases delayMs with
    | some delay => exact Prog.Only.ret _
    | none => exact Prog.Only.bind (Prog.Only.await trivial) fun _ => Prog.Only.ret _

theorem processJob_enqueues (job : Jobs.JobRecord) : EnqueuesOnly allowed (Jobs.processJob options handlers job) := by
  unfold Jobs.processJob
  split
  · exact Prog.Only.bind (fail_enqueues options job _ _ _) fun _ => Prog.Only.ret _
  · refine Prog.Only.tryCatch ?_ fun error _ => Prog.Only.bind (fail_enqueues options job _ error _) fun _ =>
      Prog.Only.ret _
    exact Prog.Only.bind (within_enqueues _ _) fun _ => Prog.Only.await trivial

theorem loop_enqueues (queueName : String) (n : Nat) :
    EnqueuesOnly allowed (Jobs.run options handlers queueName n) := by
  induction n with
  | zero => exact Prog.Only.ret _
  | succ n ih =>
    have honce : EnqueuesOnly allowed (Jobs.runOnce options handlers queueName) :=
      Prog.Only.bind (Prog.Only.await trivial) fun batch =>
        Prog.Only.bind (Prog.Only.forM (processJob_enqueues options handlers) batch) fun _ => Prog.Only.ret _
    refine Prog.Only.bind (Prog.Only.await trivial) fun _ => Prog.Only.bind honce fun _ => ?_
    split
    · exact Prog.Only.ret _
    · exact Prog.Only.bind (Prog.Only.await trivial) fun _ => ih

end

section
variable (options : Jobs.JobQueueOptions)

theorem enqueueDeposit_enqueues {chainId : String} {event : DepositEvent} {intent : Option Intent.PaymentIntent}
    (h : allowed (depositJob chainId event intent).1 (depositJob chainId event intent).2) :
    EnqueuesOnly allowed (enqueueDeposit options chainId event intent) :=
  enqueueDeposit_only options fun _ _ => h

theorem onDeposit_enqueues {chainId : String} {event : DepositEvent}
    (h : ∀ intent, allowed (depositJob chainId event intent).1 (depositJob chainId event intent).2) :
    EnqueuesOnly allowed (onDeposit options chainId event) :=
  onDeposit_only options trivial fun intent _ _ => h intent

theorem sweep_enqueues (chains : List ChainClient) (batchSize : Option Nat)
    (h : ∀ chainId txHash, allowed jobDepositConfirm ("confirm:" ++ chainId ++ ":" ++ txHash)) :
    EnqueuesOnly allowed (sweep options chains batchSize) :=
  sweep_only options chains batchSize trivial (fun _ => trivial) (fun _ _ => trivial) fun chainId txHash _ _ =>
    h chainId txHash

end

/-- The job is for the transfer with the key. -/
def OfTransfer (key : String) (row : Jobs.Job) : Prop :=
  row.jobType = jobDepositRecord ∧ row.idempotencyKey = key ∨
    row.jobType = jobDepositUnattributed ∧ row.idempotencyKey = key ++ ":unattributed"

instance (key : String) : DecidablePred (OfTransfer key) := fun _ => inferInstanceAs (Decidable (_ ∨ _))

end NexoraGateway.Worker
