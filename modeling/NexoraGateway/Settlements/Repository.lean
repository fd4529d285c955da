import NexoraGateway.Async.Prog
import NexoraGateway.Chain.TxStatus
import NexoraGateway.Settlements.Types
import NexoraGateway.Store.Atomic
import NexoraGateway.Store.Table

/-!
# The calls of the settlement package and what they do

Every `await` of the package is one `Call`; `handle` answers it. A call may be rejected by the
database or the chain (`Oracle.rejects`), and then it may still have been executed, only its answer
being lost (`Oracle.lost`): a query whose connection drops, a transaction that is broadcast before the
RPC call times out.

The store is the two tables, the clock and three records of what has left the process: the
transactions broadcast, the statuses the chain has reported, and the retries scheduled.

* `create`, `update`, `findById` — settlement.repository.ts:35, :106, :121.
* `createEntry` — `LedgerRepository.create` (ledger.repository.ts:31).
-/
namespace NexoraGateway.Settlements

open Chain Store

/-- A transaction handed to the chain; `intentId` is whose payout it is, which the chain does not see. -/
structure Payout where
  intentId : Id
  signedData : String

structure Db where
  settlements : Table Settlement.id
  ledger : List LedgerEntry
  payouts : List Payout
  reports : List TxStatus
  retries : List (Id × Time)
  clock : Time

/-- What one call meets outside the program: how long it takes, a fresh UUID, whether it is rejected
and with which message, whether a rejected call was executed, and the chain's answers. -/
structure Oracle where
  took : Nat := 0
  uuid : Id := ""
  rejects : Option String := none
  lost : Bool := false
  txHash : Id := ""
  status : TxStatus := { txHash := "", status := .pending, confirmations := 0 }

/-- `CreateSettlementParams` (settlement.repository.ts:14). -/
structure CreateSettlementParams where
  intentId : Id
  merchantId : Id
  amount : ℚ
  asset : String
  chain : String
  destinationAddress : String

/-- `UpdateSettlementParams` (settlement.repository.ts:23). -/
structure UpdateSettlementParams where
  status : Option SettlementStatus := none
  txHash : Option Id := none
  completedAt : Option Time := none

/-- `SET status, tx_hash, completed_at, updated_at`, the absent ones left alone. -/
def UpdateSettlementParams.set (params : UpdateSettlementParams) (now : Time) : Settlement → Settlement :=
  fun row => { row with
    status := params.status.getD row.status
    txHash := params.txHash.or row.txHash
    completedAt := params.completedAt.or row.completedAt
    updatedAt := now }

section
variable (params : UpdateSettlementParams) (now : Time) (row : Settlement)
@[simp] theorem set_id : (params.set now row).id = row.id := rfl
@[simp] theorem set_status : (params.set now row).status = params.status.getD row.status := rfl
@[simp] theorem set_txHash : (params.set now row).txHash = params.txHash.or row.txHash := rfl
end

structure UnsignedTx where
  source : String
  destination : String
  value : String
  data : String

inductive Call : Type where
  | now
  | create (params : CreateSettlementParams)
  | findById (id : Id)
  | update (id : Id) (params : UpdateSettlementParams)
  | createEntry (params : CreateLedgerEntryParams)
  | estimateGas (tx : UnsignedTx)
  | submitTransaction (payout : Payout)
  | getTransactionStatus (txHash : Id)
  | delay (ms : Nat)
  | setTimeout (settlementId : Id) (delay : Nat)

def Call.Ans : Call → Type
  | now => Time
  | create _ => Settlement
  | findById _ | update .. => Option Settlement
  | createEntry _ => LedgerEntry
  | submitTransaction _ => Id
  | getTransactionStatus _ => TxStatus
  | estimateGas _ | delay _ | setTimeout .. => Unit

abbrev Answer (a : Call) : Type := Except SettlementError a.Ans

/-- Time passes before a call is executed. -/
def Db.tick (db : Db) (o : Oracle) : Db := { db with clock := db.clock + o.took }

/-- A call outside the process: answered, or rejected with or without having been executed. -/
abbrev request {α : Type} (o : Oracle) (result : α × Db) (db : Db) : Except SettlementError α × Db :=
  Store.request (o.rejects.map .rejected) o.lost result db

/-- The row that `create` builds. -/
def newSettlement (o : Oracle) (params : CreateSettlementParams) (now : Time) : Settlement :=
  { id := o.uuid, intentId := params.intentId, merchantId := params.merchantId, amount := params.amount
    asset := params.asset, chain := params.chain, destinationAddress := params.destinationAddress
    createdAt := now, updatedAt := now }

/-- `create` (settlement.repository.ts:35); a UUID that is taken violates the primary key. -/
def create (o : Oracle) (params : CreateSettlementParams) (db : Db) : Except SettlementError Settlement × Db :=
  let settlement := newSettlement o params db.clock
  match db.settlements.insert? { settlement with amount := decimal8 params.amount } with
  | none => (.error (.rejected "duplicate key value violates unique constraint \"settlements_pkey\""), db)
  | some settlements => request o (settlement, { db with settlements }) db

/-- `findById` (settlement.repository.ts:121). -/
def findById (o : Oracle) (id : Id) (db : Db) : Except SettlementError (Option Settlement) × Db :=
  request o (db.settlements.find? id, db) db

/-- The `UPDATE … WHERE id RETURNING *` of `update` (settlement.repository.ts:106). -/
def update (o : Oracle) (id : Id) (params : UpdateSettlementParams) (db : Db) :
    Except SettlementError (Option Settlement) × Db :=
  let result := db.settlements.returning (fun row => row.id = id) (params.set db.clock)
  let settlements :=
    db.settlements.updateWhere (fun row => row.id = id) (params.set db.clock) (set_id params db.clock)
  request o (result.head?, { db with settlements }) db

/-- `LedgerRepository.create` (ledger.repository.ts:31). -/
def createEntry (o : Oracle) (params : CreateLedgerEntryParams) (db : Db) :
    Except SettlementError LedgerEntry × Db :=
  let entry : LedgerEntry := { params with id := o.uuid, createdAt := db.clock }
  request o (entry, { db with ledger := db.ledger ++ [{ entry with amount := decimal8 params.amount }] }) db

/-- The chain's answer to a status lookup is reported to the process, unless the lookup is rejected. -/
def lookupStatus (o : Oracle) (db : Db) : Except SettlementError TxStatus × Db :=
  match o.rejects with
  | none => (.ok o.status, { db with reports := db.reports ++ [o.status] })
  | some message => (.error (.rejected message), db)

def handle : Async.Handler Call Answer Oracle Db := fun a o db =>
  let db := db.tick o
  match a with
  | .now => (.ok db.clock, db)
  | .create params => create o params db
  | .findById id => findById o id db
  | .update id params => update o id params db
  | .createEntry params => createEntry o params db
  | .estimateGas _ => request o ((), db) db
  | .submitTransaction payout => request o (o.txHash, { db with payouts := db.payouts ++ [payout] }) db
  | .getTransactionStatus _ => lookupStatus o db
  | .delay ms => (.ok (), { db with clock := db.clock + ms })
  | .setTimeout settlementId delay =>
    (.ok (), { db with retries := db.retries ++ [(settlementId, db.clock + delay)] })

/-! ## What a call does -/

/-- A call only lets time pass, or it is executed. -/
inductive Effect (db : Db) : Call → Db → Prop
  | idle (a : Call) (clock : Time) : Effect db a { db with clock }
  | created {params : CreateSettlementParams} {row : Settlement} {settlements : Table Settlement.id}
      (clock : Time) (hintent : row.intentId = params.intentId) (hstatus : row.status = .pending)
      (hins : db.settlements.insert? row = some settlements) :
      Effect db (.create params) { db with settlements, clock }
  | updated (id : Id) (params : UpdateSettlementParams) (clock : Time) :
      Effect db (.update id params)
        { db with
          settlements := db.settlements.updateWhere
            (fun row => row.id = id) (params.set clock) (set_id params clock)
          clock }
  | posted (params : CreateLedgerEntryParams) (entry : LedgerEntry) (clock : Time) :
      Effect db (.createEntry params) { db with ledger := db.ledger ++ [entry], clock }
  | paid (payout : Payout) (clock : Time) :
      Effect db (.submitTransaction payout) { db with payouts := db.payouts ++ [payout], clock }
  | reported (txHash : Id) (status : TxStatus) (clock : Time) :
      Effect db (.getTransactionStatus txHash) { db with reports := db.reports ++ [status], clock }
  | scheduled (settlementId : Id) (ms : Nat) (due clock : Time) :
      Effect db (.setTimeout settlementId ms) { db with retries := db.retries ++ [(settlementId, due)], clock }

theorem handle_effect (a : Call) (o : Oracle) (db : Db) : Effect db a (handle a o db).2 := by
  have idle : Effect db a (db.tick o) := .idle a _
  cases a with
  | now => exact idle
  | create params =>
    simp only [handle, create]
    split
    · exact idle
    · rename_i settlements hins
      exact request_rule (.created _ rfl rfl hins) idle
  | findById id => exact request_rule idle idle
  | update id params => exact request_rule (.updated id params _) idle
  | createEntry params => exact request_rule (.posted params _ _) idle
  | estimateGas tx => exact request_rule idle idle
  | submitTransaction payout => exact request_rule (.paid payout _) idle
  | getTransactionStatus txHash =>
    simp only [handle, lookupStatus]
    split
    · exact .reported txHash _ _
    · exact idle
  | delay ms => exact .idle _ _
  | setTimeout settlementId ms => exact .scheduled settlementId ms _ _

theorem request_accepted {α : Type} {o : Oracle} {result : α × Db} {db : Db} (h : o.rejects = none) :
    request o result db = (.ok result.1, result.2) := by
  simp only [request, h, Option.map_none, Store.request]

theorem request_rejected {α : Type} {o : Oracle} {result : α × Db} {db : Db} {message : String}
    (h : o.rejects = some message) :
    request o result db = (.error (.rejected message), if o.lost then result.2 else db) := by
  simp only [request, h, Option.map_some, Store.request]

/-- A settlement that `create` answers has been inserted. -/
theorem create_ok {o : Oracle} {params : CreateSettlementParams} {db : Db} {settlement : Settlement}
    (h : (create o params db).1 = .ok settlement) :
    settlement = newSettlement o params db.clock ∧ ∃ settlements,
      db.settlements.insert? { settlement with amount := decimal8 params.amount } = some settlements ∧
      create o params db = (.ok settlement, { db with settlements }) := by
  unfold create at h ⊢
  dsimp only at h ⊢
  split at h
  · cases h
  · rename_i settlements hins
    obtain ⟨hdone, rfl⟩ := request_ok h
    exact ⟨rfl, settlements, hins, Prod.ext h hdone⟩

end NexoraGateway.Settlements
