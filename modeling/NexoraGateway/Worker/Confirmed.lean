import NexoraGateway.Intent.Lifecycle
import NexoraGateway.Worker.Evidence

/-!
# A deposit is confirmed only on a chain's word

Any number of queue loops, on any queues and with any options, run beside the watcher, the tracker and the
operations of the service, of which only a job handler calls `confirmDeposit`.
-/
namespace NexoraGateway.Worker

open Async
open Intent (stateOf Op)

/-- What runs: queue loops, callbacks of the watcher, sweeps, and operations that clients of the service call. -/
inductive IsTask : Task Unit → Prop
  | loop (options : Jobs.JobQueueOptions) (queueName : String) (n : Nat) :
      IsTask (Jobs.run options jobHandlers queueName n)
  | deposit (options : Jobs.JobQueueOptions) (chainId : String) (event : DepositEvent) :
      IsTask (onDeposit options chainId event)
  | sweep (options : Jobs.JobQueueOptions) (chains : List ChainClient) (batchSize : Option Nat) :
      IsTask (do let _ ← sweep options chains batchSize)
  | op (op : Op) (hop : ∀ id confirmations, op ≠ .confirmDeposit id confirmations) :
      IsTask (Jobs.within none (service op.task))

theorem justifies_task {p : Task Unit} (hp : IsTask p) : evidence.Justifies [] p := by
  cases hp with
  | loop options queueName n => exact justifies_loop options queueName n []
  | deposit options chainId event => exact justifies_onDeposit options chainId event []
  | sweep options chains batchSize =>
    exact Knowledge.justifies_bind (justifies_sweep options chains batchSize []) fun _ _ _ => trivial
  | op op hop =>
    refine justifies_records (fun hconfirm => ?_) (Intent.op_records op) none []
    cases op with
    | confirmDeposit id confirmations => exact hop id confirmations rfl
    | _ => simp [Op.events] at hconfirm

theorem worker_evident (clock : Time) (db : Intent.Db) (cs : Jobs.Schedule worker)
    (htasks : ∀ p, .spawn p ∈ cs → IsTask p) :
    (Pool.exec Jobs.handle (⟨.fresh clock { intents := db }, []⟩ : Jobs.Queue worker) cs).GhostInv
      evidence.protocol (evidence.Sound Backed) := by
  refine Knowledge.exec_knows (fun p hp => justifies_task hp) (fun db facts a o hdb hfacts hok => ?_) ?_ htasks
  · exact ⟨answer_rely a o db, step_backed a o db hdb hfacts hok, fun f hf => (step_grows a o db).holds hf,
      learned_holds a o db hdb⟩
  · exact fun row hrow => absurd hrow List.not_mem_nil

/-- **An intent becomes `CONFIRMING` only on a chain's word**: at that step a sweep has seen the intent, has
read a `DEPOSIT_DETECTED` event of it, and has been answered, by the client of its deposit chain and for the
transaction that the event names, a status that is not `FAILED` and at least as deep as that client requires. -/
theorem confirmed_vouched (clock : Time) (db : Intent.Db) (cs : Jobs.Schedule worker)
    (htasks : ∀ p, .spawn p ∈ cs → IsTask p) (i : Nat) (o : Jobs.Oracle worker) (id : Id) :
    let w : Jobs.Queue worker := Pool.exec Jobs.handle ⟨.fresh clock { intents := db }, []⟩ cs
    stateOf w.store.outer.intents id ≠ some .confirming →
      stateOf (w.next Jobs.handle (.step i o)).store.outer.intents id = some .confirming →
        Vouched w.store.outer id := by
  intro w hbefore hafter
  have hinv : w.GhostInv evidence.protocol (evidence.Sound Backed) := worker_evident clock db cs htasks
  simp only [Pool.next] at hafter
  split at hafter
  · rename_i a k hi
    have hpending : w.pending i = some a := by simp only [Pool.pending, hi]
    obtain ⟨facts, hok, hfacts⟩ := Knowledge.pending_justified hinv hpending
    rcases step_intents a o w.store with ⟨job, b, rfl, hintents⟩ | hintents
    · rw [hintents] at hafter
      rcases (Intent.handle_effect b o.outer.intent w.store.outer.intents).entered hbefore hafter with
        ⟨data, -, hcreated⟩ | ⟨eventType, payload, rfl, htarget⟩
      · cases hcreated
      · obtain rfl : eventType = .confirmationReceived := by cases eventType <;> first | rfl | cases htarget
        exact hfacts _ hok
    · rw [hintents] at hafter
      exact absurd hafter hbefore
  · exact absurd hafter hbefore

/-- A client of Ethereum that wants 12 confirmations. -/
def ethereum : ChainClient := ⟨"ethereum", 12⟩

def next (i : Nat) : Choice (Jobs.Call worker) Jobs.Answer Jobs.JsError Unit (Jobs.Oracle worker) :=
  .step i
    { outer := { intent := { now := 3 }, status := ⟨"0xa", .confirmed, 12, none, none, none⟩ }, uuid := "job" }

/-- Two intents of the shop that one transaction pays. -/
def twicePaidDb : Intent.Db := Intent.serve Intent.detectedDb
  [(.createIntent ⟨"shop", "order-2", 100, "USDC", "ethereum", ["USDC"]⟩, fun _ => { now := 0, uuid := "pj" }),
   (.generateQuote "pj" 1 "0xother" "USDC" "ethereum", fun _ => { now := 1, uuid := "pj" }),
   (.recordDeposit "pj" "0xa" 100 "ethereum" "USDC", fun _ => { now := 3, uuid := "pj" })]

/-- A sweep finds 12 confirmations and enqueues; a worker claims the job and is about to confirm. -/
def sweptAndClaimed : Jobs.Schedule worker :=
  [.spawn (do let _ ← sweep { workerId := "w" } [ethereum] none), next 0, next 0, next 0, next 0,
   .spawn (Jobs.run { workerId := "w" } jobHandlers queueDeposits 1), next 1, next 1, next 1, next 1]

/-- The rule at that step. -/
theorem confirmed_vouched_swept :
    let w : Jobs.Queue worker :=
      Pool.exec Jobs.handle ⟨.fresh 0 { intents := Intent.detectedDb }, []⟩ sweptAndClaimed
    stateOf (w.next Jobs.handle (next 1)).store.outer.intents "pi" = some .confirming ∧
      Vouched w.store.outer "pi" := by
  have hafter : stateOf ((Pool.exec Jobs.handle
      (⟨.fresh 0 { intents := Intent.detectedDb }, []⟩ : Jobs.Queue worker)
      sweptAndClaimed).next Jobs.handle (next 1)).store.outer.intents "pi" = some .confirming := by decide +kernel
  refine ⟨hafter, confirmed_vouched 0 Intent.detectedDb sweptAndClaimed (fun p hp => ?_) 1 _ "pi"
    (by decide +kernel) hafter⟩
  simp only [sweptAndClaimed, next, List.mem_cons, Choice.spawn.injEq, reduceCtorEq, List.not_mem_nil, or_false,
    false_or] at hp
  rcases hp with rfl | rfl
  · exact .sweep _ _ _
  · exact .loop _ _ _

end NexoraGateway.Worker
