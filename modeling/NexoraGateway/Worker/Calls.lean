import Mathlib.Data.List.Sort
import NexoraGateway.Chain.TxStatus
import NexoraGateway.Intent.Service
import NexoraGateway.Jobs.Queue

/-!
# What the worker calls besides its queue (`worker/src`)

The watcher, the tracker and the job handlers are code around the queue (`Jobs.Outside`): they read intents
and events, ask the chain clients for a transaction's status, and call `PaymentIntentService`, whose own
calls they make one by one (`service`).

The state keeps two records that no call reads: `seen` has the rows that a sweep's `findByState` was
answered, `reports` the statuses that the chain clients have answered.

* `findByState`, `getEvents`, `findAwaitingDepositAt` — payment-intent.repository.ts:160, :187, :258.
* `getTransactionStatus` — of an `IChainClient` (shared/src/types/chain.ts:98), answered as the oracle says.
-/
namespace NexoraGateway.Worker

open Async Store
open Intent (PaymentIntent IntentEvent IntentState)

/-- What is read of an `IChainClient`. -/
structure ChainClient where
  chainId : String
  confirmationDepth : Int
  deriving DecidableEq

/-- A status that a client has answered. -/
structure Report where
  client : ChainClient
  txHash : Id
  status : Chain.TxStatus
  deriving DecidableEq

inductive Call : Type where
  | intent (a : Intent.Call)
  | findByState (state : IntentState) (limit : Nat)
  | getEvents (intentId : Id)
  | findAwaitingDepositAt (chain address : String)
  | getTransactionStatus (client : ChainClient) (txHash : Id)

def Call.Ret : Call → Type
  | intent a => Intent.Answer a
  | findByState .. => List PaymentIntent
  | getEvents _ => List IntentEvent
  | findAwaitingDepositAt .. => Option PaymentIntent
  | getTransactionStatus .. => Chain.TxStatus

structure State where
  intents : Intent.Db
  seen : List PaymentIntent := []
  reports : List Report := []

/-- What one call meets: for a call of the service what that meets, for any other a rejection or an answer. -/
structure Oracle where
  intent : Intent.Oracle := { now := 0 }
  rejects : Option Jobs.JsError := none
  status : Chain.TxStatus := { txHash := "", status := .pending, confirmations := 0 }

/-- `ORDER BY updated_at ASC LIMIT`. -/
def findByState (state : IntentState) (limit : Nat) (db : Intent.Db) : List PaymentIntent :=
  let rows := db.intents.rows.filter fun row => row.state = state
  ((rows.insertionSort fun a b => a.updatedAt ≤ b.updatedAt).take limit).map Intent.mapRow

/-- `ORDER BY created_at ASC`. -/
def getEvents (intentId : Id) (db : Intent.Db) : List IntentEvent :=
  (db.events.filter fun e => e.intentId = intentId).insertionSort fun a b => a.createdAt ≤ b.createdAt

/-- `ORDER BY created_at DESC LIMIT 1`. -/
def findAwaitingDepositAt (chain address : String) (db : Intent.Db) : Option PaymentIntent :=
  let rows := db.intents.rows.filter fun row =>
    row.depositChain = some chain ∧ row.depositAddress = some address ∧ row.state ∈ Intent.acceptsDeposit
  ((rows.insertionSort fun a b => b.createdAt ≤ a.createdAt).head?).map Intent.mapRow

def handle (b : Call) (o : Oracle) (s : State) : Except Jobs.JsError b.Ret × State :=
  match b with
  | .intent a =>
    (.ok (Intent.handle a o.intent s.intents).1, { s with intents := (Intent.handle a o.intent s.intents).2 })
  | .findByState state limit =>
    let rows := findByState state limit s.intents
    request o.rejects false (rows, { s with seen := s.seen ++ rows }) s
  | .getEvents intentId => request o.rejects false (getEvents intentId s.intents, s) s
  | .findAwaitingDepositAt chain address =>
    request o.rejects false (findAwaitingDepositAt chain address s.intents, s) s
  | .getTransactionStatus client txHash =>
    request o.rejects false (o.status, { s with reports := s.reports ++ [⟨client, txHash, o.status⟩] }) s

/-! ## What the reads answer -/

section
variable {o : Oracle} {s : State}

theorem findByState_ok {state : IntentState} {limit : Nat} {rows : List PaymentIntent}
    (h : (handle (.findByState state limit) o s).1 = .ok rows) :
    rows = findByState state limit s.intents ∧
      (handle (.findByState state limit) o s).2 = { s with seen := s.seen ++ rows } := by
  obtain ⟨hstate, rfl⟩ := request_ok h
  exact ⟨rfl, hstate⟩

theorem getEvents_ok {id : Id} {events : List IntentEvent} (h : (handle (.getEvents id) o s).1 = .ok events) :
    events = getEvents id s.intents := (request_ok h).2.symm

theorem getTransactionStatus_ok {client : ChainClient} {txHash : Id} {status : Chain.TxStatus}
    (h : (handle (.getTransactionStatus client txHash) o s).1 = .ok status) :
    (handle (.getTransactionStatus client txHash) o s).2 =
      { s with reports := s.reports ++ [⟨client, txHash, status⟩] } := by
  obtain ⟨hstate, rfl⟩ := request_ok h
  exact hstate

theorem mem_getEvents {id : Id} {db : Intent.Db} {e : IntentEvent} (h : e ∈ getEvents id db) :
    e.intentId = id ∧ e ∈ db.events := by
  simp only [getEvents, List.mem_insertionSort, List.mem_filter, decide_eq_true_eq] at h
  exact ⟨h.2, h.1⟩

end

/-- The code around the worker's queue. -/
abbrev worker : Jobs.Outside := ⟨Call, Call.Ret, Oracle, State, handle⟩

/-- The intent tables change by the service's calls only. -/
theorem step_intents (a : Jobs.Call worker) (o : Jobs.Oracle worker) (db : Jobs.Db worker) :
    (∃ job b, a = .outer job (Call.intent b) ∧
      (Jobs.handle a o db).2.outer.intents = (Intent.handle b o.outer.intent db.outer.intents).2) ∨
    (Jobs.handle a o db).2.outer.intents = db.outer.intents := by
  have heff := Jobs.handle_effect a o db
  cases a with
  | outer job b =>
    cases b with
    | intent b => exact .inl ⟨job, b, rfl, rfl⟩
    | findByState | getEvents | findAwaitingDepositAt | getTransactionStatus =>
      exact .inr (request_rule (P := fun s : State => s.intents = db.outer.intents) rfl rfl)
  | enqueue | claimBatch | writeOutcome | reclaimStale | random | sleep =>
    exact .inr (congrArg State.intents (heff.outer_eq fun job b h => by cases h))

/-- An `async` function of the worker that makes no statement of the queue. -/
abbrev Routine (α : Type) := worker.Prog α

/-- An `async` function of the worker. -/
abbrev Task (α : Type) := Jobs.Task worker α

namespace Task

/-- A call beside the queue, made by no handler. -/
def outer (b : Call) : Task b.Ret := .call (Jobs.Call.outer none b) Prog.ofExcept

def findByState (state : IntentState) (limit : Nat) : Task (List PaymentIntent) :=
    outer (.findByState state limit)
def getEvents (intentId : Id) : Task (List IntentEvent) := outer (.getEvents intentId)
def findAwaitingDepositAt (chain address : String) : Task (Option PaymentIntent) :=
  outer (.findAwaitingDepositAt chain address)
def getTransactionStatus (client : ChainClient) (txHash : Id) : Task Chain.TxStatus :=
  outer (.getTransactionStatus client txHash)

end Task

theorem justifies_outer {F : Type} {K : Knowledge (Jobs.Call worker) Jobs.Answer (Jobs.Db worker) F}
    {facts : List F}
    {b : Call} (hok : K.ok facts (.outer none b)) : K.Justifies facts (Task.outer b) := by
  refine ⟨hok, fun r _ => ?_⟩
  cases r <;> trivial

/-! ## Calling the service -/

variable {α : Type}

/-- The `name` of a thrown error: those of `shared/src/errors` are `GatewayError`s. -/
def errorName : Intent.IntentError → String
  | .validation .. | .intentNotFound _ | .quoteExpired _ => "GatewayError"
  | .database _ => "error"
  | _ => "Error"

def jsError (e : Intent.IntentError) : Jobs.JsError := { name := errorName e, message := e.message }

/-- An operation of the service, as code of the worker. -/
def service : Intent.Task α → Routine α
  | .ret x => .ret x
  | .throw e => .throw (jsError e)
  | .call a k => .call (Call.intent a) fun
    | .ok r => service (k r)
    | .error e => .throw e

/-- **Calling an operation is running it**: the intents change as they do under the service alone, and nothing
else of the worker's does. -/
theorem service_run (p : Intent.Task α) (ω : Nat → Oracle) (n : Nat) (s : State) :
    let r := p.run Intent.handle (fun k => (ω k).intent) n s.intents
    (service p).run handle ω n s = (r.1.mapError jsError, r.2.1, { s with intents := r.2.2 }) := by
  induction p generalizing n s with
  | ret x => rfl
  | throw e => rfl
  | call a k ih =>
    rw [service, Prog.run_call, Prog.run_call]
    exact ih (Intent.handle a (ω n).intent s.intents).1 (n + 1)
      { s with intents := (Intent.handle a (ω n).intent s.intents).2 }

end NexoraGateway.Worker
