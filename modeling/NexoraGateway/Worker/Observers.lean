import NexoraGateway.Text.Numerals
import NexoraGateway.Worker.Handlers

/-!
# What watches the chains (`worker/src/deposit-watcher.ts`, `worker/src/confirmation-tracker.ts`)

* `onDeposit` — turns an observed transfer into a job (deposit-watcher.ts:193).
* `sweep` — `ConfirmationTracker.runOnce`: looks at the `DETECTED` intents and enqueues the confirmation of
  those whose deposit is deep enough (confirmation-tracker.ts:74).
-/
namespace NexoraGateway.Worker

open Async
open Intent (PaymentIntent IntentEvent)
open Jobs (JobQueueOptions enqueueJob)
open Text.Numerals (number?)

/-! ## The deposit watcher -/

/-- `AssetInfo` (shared/src/types/chain.ts:8). -/
structure AssetInfo where
  address : String
  symbol : String
  decimals : Nat

/-- `DepositEvent` (shared/src/types/chain.ts:84). -/
structure DepositEvent where
  txHash : String
  blockNumber : Nat
  «to» : String
  asset : AssetInfo
  amount : String

/-- deposit-watcher.ts:52. -/
def depositIdempotencyKey (chainId : String) (event : DepositEvent) : String :=
  ":".intercalate
    ["deposit", chainId, event.txHash.toLower, event.to.toLower, event.asset.address.toLower, event.amount]

/-- deposit-watcher.ts:72; `none` is `NaN`. -/
def normalizeAmount (amount : String) (decimals : Nat) : Option ℚ := (number? amount).map (· / 10 ^ decimals)

variable (options : JobQueueOptions)

/-- What `onDeposit` enqueues, by what its lookup answers. A payload is stored as JSON, where `NaN` is `null`. -/
def enqueueDeposit (chainId : String) (event : DepositEvent) (intent : Option PaymentIntent) : Task Unit := do
  let key := depositIdempotencyKey chainId event
  match intent with
  | none =>
    let _ ← enqueueJob options
      { jobType := jobDepositUnattributed, queue := some queueDeposits, idempotencyKey := key ++ ":unattributed"
        payload :=
          [("chainId", .str chainId), ("address", .str event.to), ("txHash", .str event.txHash),
           ("amount", .str event.amount), ("asset", .str event.asset.symbol),
           ("blockNumber", .num event.blockNumber)] }
  | some intent =>
    let _ ← enqueueJob options
      { jobType := jobDepositRecord, queue := some queueDeposits, idempotencyKey := key
        payload :=
          [("intentId", .str intent.id), ("txHash", .str event.txHash),
           ("amount", .ofOption .num (normalizeAmount event.amount event.asset.decimals)),
           ("sourceChain", .str chainId), ("sourceAsset", .str event.asset.symbol),
           ("blockNumber", .num event.blockNumber)] }

/-- deposit-watcher.ts:193. -/
def onDeposit (chainId : String) (event : DepositEvent) : Task Unit := do
  let intent ← Task.findAwaitingDepositAt chainId event.to
  enqueueDeposit options chainId event intent

/-! ## The confirmation tracker -/

/-- `chainIndex.get`: of two clients with one id the later. -/
def chainIndex (chains : List ChainClient) (chainId : String) : Option ChainClient :=
  chains.reverse.find? fun client => client.chainId = chainId

/-- The hash that an event names, if it is a detection that names one. -/
def depositTxHash (e : IntentEvent) : Option Id :=
  match e.eventType, e.payload.get? "tx_hash" with
  | .depositDetected, some (.str hash) => if hash = "" then none else some hash
  | _, _ => none

/-- confirmation-tracker.ts:168. -/
def findDepositTxHash (intentId : Id) : Task (Option Id) := do
  let events ← Task.getEvents intentId
  return events.reverse.findSome? depositTxHash

/-- A status lookup whose failure is logged. -/
def lookup (client : ChainClient) (txHash : Id) : Task (Option Chain.TxStatus) :=
  tryCatch
    (do
      let status ← Task.getTransactionStatus client txHash
      return some status)
    fun _ => return none

/-- The job that confirms an intent's deposit. -/
def confirmJob (chainId : String) (intentId txHash : Id) (confirmations : Int) : Jobs.EnqueueOptions :=
  { jobType := jobDepositConfirm, queue := some queueDeposits
    idempotencyKey := "confirm:" ++ chainId ++ ":" ++ txHash
    payload := [("intentId", .str intentId), ("txHash", .str txHash), ("confirmations", .num confirmations)] }

variable (chains : List ChainClient)

/-- One intent of a sweep (confirmation-tracker.ts:80). -/
def examine (intent : PaymentIntent) : Task Unit := do
  match intent.depositChain with
  | none => return
  | some chainId =>
    match chainIndex chains chainId with
    | none => return
    | some client =>
      match ← findDepositTxHash intent.id with
      | none => return
      | some txHash =>
        match ← lookup client txHash with
        | none => return
        | some status =>
          if status.status = .failed then return
          else if status.confirmations < client.confirmationDepth then return
          else
            let _ ← enqueueJob options (confirmJob chainId intent.id txHash status.confirmations)

/-- confirmation-tracker.ts:74. -/
def sweep (batchSize : Option Nat) : Task Nat := do
  let detected ← Task.findByState .detected (batchSize.getD 100)
  detected.forM (examine options chains)
  return detected.length

/-! ## What they call -/

theorem onDeposit_eq (chainId : String) (event : DepositEvent) : onDeposit options chainId event =
    (Task.findAwaitingDepositAt chainId event.to).bind (enqueueDeposit options chainId event) := rfl

/-- The type and the key of the job that a transfer is enqueued as. -/
def depositJob (chainId : String) (event : DepositEvent) : Option PaymentIntent → String × String
  | none => (jobDepositUnattributed, depositIdempotencyKey chainId event ++ ":unattributed")
  | some _ => (jobDepositRecord, depositIdempotencyKey chainId event)

section
variable {ok : Jobs.Call worker → Prop}

theorem outer_only {b : Call} (hb : ok (.outer none b)) : (Task.outer b).Only ok fun _ => True := by
  refine ⟨hb, fun r _ => ?_⟩
  cases r with
  | error e => exact fun _ _ => trivial
  | ok x => exact nofun

theorem enqueueDeposit_only {chainId : String} {event : DepositEvent} {intent : Option PaymentIntent}
    (henqueue : ∀ payload maxAttempts, ok (.enqueue queueDeposits (depositJob chainId event intent).1 payload
      (depositJob chainId event intent).2 maxAttempts 0)) :
    (enqueueDeposit options chainId event intent).Only ok fun _ => True := by
  cases intent with
  | none => exact Prog.Only.bind (Prog.Only.await (henqueue _ _)) fun _ => Prog.Only.ret _
  | some intent => exact Prog.Only.bind (Prog.Only.await (henqueue _ _)) fun _ => Prog.Only.ret _

theorem onDeposit_only {chainId : String} {event : DepositEvent}
    (hlookup : ok (.outer none (.findAwaitingDepositAt chainId event.to)))
    (henqueue : ∀ intent payload maxAttempts, ok (.enqueue queueDeposits (depositJob chainId event intent).1 payload
      (depositJob chainId event intent).2 maxAttempts 0)) :
    (onDeposit options chainId event).Only ok fun _ => True := by
  rw [onDeposit_eq]
  exact Prog.Only.bind (outer_only hlookup) fun intent => enqueueDeposit_only options (henqueue intent)

theorem examine_only (hevents : ∀ id, ok (.outer none (.getEvents id)))
    (hstatus : ∀ client txHash, ok (.outer none (.getTransactionStatus client txHash)))
    (henqueue : ∀ chainId txHash payload maxAttempts,
      ok (.enqueue queueDeposits jobDepositConfirm payload ("confirm:" ++ chainId ++ ":" ++ txHash) maxAttempts 0))
    (intent : PaymentIntent) : (examine options chains intent).Only ok fun _ => True := by
  unfold examine
  cases intent.depositChain with
  | none => exact Prog.Only.ret _
  | some chainId =>
    dsimp only
    cases chainIndex chains chainId with
    | none => exact Prog.Only.ret _
    | some client =>
      refine Prog.Only.bind (Prog.Only.bind (outer_only (hevents _)) fun _ => Prog.Only.ret _) fun txHash => ?_
      cases txHash with
      | none => exact Prog.Only.ret _
      | some txHash =>
        have hlookup : (lookup client txHash).Only ok fun _ => True :=
          Prog.Only.tryCatch (Prog.Only.bind (outer_only (hstatus _ _)) fun _ => Prog.Only.ret _) fun _ _ =>
            Prog.Only.ret _
        refine Prog.Only.bind hlookup fun status => ?_
        cases status with
        | none => exact Prog.Only.ret _
        | some status =>
          dsimp only
          split
          · exact Prog.Only.ret _
          · split
            · exact Prog.Only.ret _
            · exact Prog.Only.bind (Prog.Only.await (henqueue chainId txHash _ _)) fun _ => Prog.Only.ret _

theorem sweep_only (batchSize : Option Nat)
    (hfind : ok (.outer none (.findByState .detected (batchSize.getD 100))))
    (hevents : ∀ id, ok (.outer none (.getEvents id)))
    (hstatus : ∀ client txHash, ok (.outer none (.getTransactionStatus client txHash)))
    (henqueue : ∀ chainId txHash payload maxAttempts,
      ok (.enqueue queueDeposits jobDepositConfirm payload ("confirm:" ++ chainId ++ ":" ++ txHash) maxAttempts 0)) :
    (sweep options chains batchSize).Only ok fun _ => True :=
  Prog.Only.bind (outer_only hfind) fun detected =>
    Prog.Only.bind (Prog.Only.forM (examine_only options chains hevents hstatus henqueue) detected) fun _ =>
      Prog.Only.ret _

end

end NexoraGateway.Worker
