import NexoraGateway.Async.Prog
import NexoraGateway.Intent.Types
import NexoraGateway.Reconciliation.Types
import NexoraGateway.Store.Atomic
import Mathlib.Data.List.Sort

/-!
# The queries of the reconciliation service (`reconciliation/src/reconciliation.service.ts`)

`Books` are the tables that the service only reads, with the foreign keys of migrations 002 and 005. Each query on them
is a function; every `await` is one `Call`, which `handle` answers. A query may be rejected, and then it may still have
been executed, only its answer being lost. Rows are answered in the order of their table.

* `missingSettlements`, `amountRows`, `duplicateSettlements`, `missingLedgerEntries`, `fxTotals` — the queries of the
  five checks (reconciliation.service.ts:183, :211, :255, :282, :310; `fxTotals` also :462).
* `settlementTotals`, `feeTotal`, `chainTotals`, `merchantTotals`, `fxEntries` — those of the reports (:442, :453, :495,
  :516, :537).
-/
namespace NexoraGateway.Reconciliation

open Intent (PaymentIntent IntentState MerchantConfig)
open Settlements (Settlement LedgerEntry)
open Store

structure Books where
  merchants : Table MerchantConfig.id
  intents : Table PaymentIntent.id
  settlements : Table Settlement.id
  ledger : List LedgerEntry
  merchantOfIntent : ∀ row ∈ intents.rows, (merchants.find? row.merchantId).isSome = true
  intentOfSettlement : ∀ row ∈ settlements.rows, (intents.find? row.intentId).isSome = true
  merchantOfSettlement : ∀ row ∈ settlements.rows, (merchants.find? row.merchantId).isSome = true

/-- `getIntentCounts` (:416). -/
structure IntentCounts where
  total : ℕ
  settled : ℕ
  pending : ℕ
  failed : ℕ

structure AmountRow where
  intentId : Id
  settlementAmount : ℚ
  targetAmount : ℚ
  feePercentage : ℚ

structure FxTotals where
  totalGains : ℚ
  totalLosses : ℚ

structure SettlementTotals where
  totalSettled : ℚ
  totalCount : ℕ
  completedCount : ℕ

structure ChainRow where
  chain : String
  count : ℕ
  total : ℚ

structure MerchantRow where
  merchantId : Id
  name : String
  count : ℕ
  total : ℚ

namespace Books
variable (books : Books) (startDate endDate : Time)

def intentCounts : IntentCounts :=
  let rows := books.intents.rows.filter fun row => between startDate endDate row.createdAt
  let pending : List IntentState :=
    [.created, .quoted, .awaitingPayment, .detected, .confirming, .routing, .settling]
  { total := rows.length
    settled := rows.countP fun row => row.state = .settled
    pending := rows.countP fun row => pending.contains row.state
    failed := rows.countP fun row => row.state = .failed }

/-- The settlements that were created in the period. -/
def createdIn : List Settlement :=
  books.settlements.rows.filter fun row => between startDate endDate row.createdAt

/-- The settlements that were completed in the period; a `completed_at` that is `NULL` lies in none. -/
def completedIn : List Settlement :=
  books.settlements.rows.filter fun row => row.status = .completed ∧ row.completedAt.any (between startDate endDate)

def missingSettlements : List Id :=
  let rows := books.intents.rows.filter fun row =>
    row.state = .settled ∧ (∀ settlement ∈ books.settlements.rows, settlement.intentId ≠ row.id) ∧
      between startDate endDate row.updatedAt
  rows.map PaymentIntent.id

def amountRow? (settlement : Settlement) : Option AmountRow := do
  let intent ← books.intents.find? settlement.intentId
  let merchant ← books.merchants.find? intent.merchantId
  return ⟨settlement.intentId, settlement.amount, intent.targetAmount, merchant.feePercentage⟩

def amountRows : List AmountRow := (books.completedIn startDate endDate).filterMap books.amountRow?

def duplicateSettlements : List (Id × ℕ) :=
  let byIntent := groups Settlement.intentId (books.createdIn startDate endDate)
  (byIntent.filter fun g => 1 < g.2.length).map fun g => (g.1, g.2.length)

def missingLedgerEntries : List Id :=
  let rows := (books.completedIn startDate endDate).filter fun row =>
    ∀ entry ∈ books.ledger, ¬ (entry.intentId = row.intentId ∧ entry.entryType = .settlement)
  rows.map Settlement.intentId

/-- The entries of a type that were made in the period. -/
def entriesIn (entryType : Settlements.LedgerEntryType) : List LedgerEntry :=
  books.ledger.filter fun entry => entry.entryType = entryType ∧ between startDate endDate entry.createdAt

def fxTotals : FxTotals :=
  let rows := books.entriesIn startDate endDate .fxGainLoss
  { totalGains := total (fun row => if row.debitAccount = "revenue:fx" then row.amount else 0) rows
    totalLosses := total (fun row => if row.debitAccount = "expense:fx" then row.amount else 0) rows }

def settlementTotals : SettlementTotals :=
  let rows := books.createdIn startDate endDate
  { totalSettled := total Settlement.amount rows
    totalCount := rows.length
    completedCount := rows.countP fun row => row.status = .completed }

def feeTotal : ℚ := total (·.amount) (books.entriesIn startDate endDate .fee)

def chainTotals : List ChainRow :=
  (groups Settlement.chain (books.completedIn startDate endDate)).map fun g =>
    ⟨g.1, g.2.length, total Settlement.amount g.2⟩

/-- `JOIN merchants m ON s.merchant_id = m.id`. -/
def withMerchant (settlement : Settlement) : Option (Settlement × MerchantConfig) :=
  (books.merchants.find? settlement.merchantId).map fun merchant => (settlement, merchant)

def merchantTotals : List MerchantRow :=
  let rows := (books.completedIn startDate endDate).filterMap books.withMerchant
  (groups (fun row => (row.1.merchantId, row.2.name)) rows).map fun g =>
    ⟨g.1.1, g.1.2, g.2.length, total (fun row => row.1.amount) g.2⟩

def fxEntries : List LedgerEntry := books.entriesIn startDate endDate .fxGainLoss

end Books

/-! ## The calls -/

structure Db where
  books : Books
  records : Table RecordRow.id
  discrepancies : List Discrepancy
  clock : Time

inductive ReconciliationError where
  | recordNotFound (recordId : Id)
  | recordNotFoundAfterUpdate (id : Id)
  | rejected (message : String)
  deriving DecidableEq, Repr

def ReconciliationError.message : ReconciliationError → String
  | recordNotFound recordId => "Reconciliation record not found: " ++ recordId
  | recordNotFoundAfterUpdate id => "Record not found after update: " ++ id
  | rejected message => message

/-- What a call meets outside the program: how long it takes, a fresh UUID, whether the database rejects it and with
which message, and whether a rejected query was executed. -/
structure Oracle where
  took : Nat := 0
  uuid : Id := ""
  rejects : Option String := none
  lost : Bool := false

inductive Call : Type where
  | now
  | randomUUID
  | intentCounts (startDate endDate : Time)
  | insertRecord (row : RecordRow)
  | missingSettlements (startDate endDate : Time)
  | amountRows (startDate endDate : Time)
  | duplicateSettlements (startDate endDate : Time)
  | missingLedgerEntries (startDate endDate : Time)
  | fxTotals (startDate endDate : Time)
  | settlementTotals (startDate endDate : Time)
  | feeTotal (startDate endDate : Time)
  | updateRecord (id : Id) (status : ReconciliationStatus) (totalDiscrepancies : ℕ) (completedAt now : Time)
  | selectRecord (id : Id)
  | chainTotals (startDate endDate : Time)
  | merchantTotals (startDate endDate : Time)
  | fxEntries (startDate endDate : Time)
  | selectDiscrepancies (recordId : Id)

def Call.Ans : Call → Type
  | now => Time
  | randomUUID => Id
  | intentCounts .. => IntentCounts
  | insertRecord _ | updateRecord .. => Unit
  | missingSettlements .. | missingLedgerEntries .. => List Id
  | amountRows .. => List AmountRow
  | duplicateSettlements .. => List (Id × ℕ)
  | fxTotals .. => FxTotals
  | settlementTotals .. => SettlementTotals
  | feeTotal .. => ℚ
  | selectRecord _ => Option RecordRow
  | chainTotals .. => List ChainRow
  | merchantTotals .. => List MerchantRow
  | fxEntries .. => List LedgerEntry
  | selectDiscrepancies _ => List Discrepancy

abbrev Answer (a : Call) : Type := Except ReconciliationError a.Ans

/-- Time passes before a call is executed. -/
def Db.tick (db : Db) (o : Oracle) : Db := { db with clock := db.clock + o.took }

/-- A query that only reads. -/
def read {α : Type} (o : Oracle) (db : Db) (x : α) : Except ReconciliationError α × Db :=
  request (o.rejects.map .rejected) o.lost (x, db) db

def execInsert (o : Oracle) (row : RecordRow) (db : Db) : Except ReconciliationError Unit × Db :=
  match db.records.insert? row with
  | none => (.error (.rejected "duplicate key value violates unique constraint \"reconciliation_records_pkey\""), db)
  | some records => request (o.rejects.map .rejected) o.lost ((), { db with records }) db

/-- `SET status = $1, total_discrepancies = $2, completed_at = $3, updated_at = $4`. -/
def RecordRow.set (status : ReconciliationStatus) (totalDiscrepancies : ℕ) (completedAt now : Time) :
    RecordRow → RecordRow :=
  fun row => { row with
    status, totalDiscrepancies := some totalDiscrepancies, completedAt := some completedAt, updatedAt := some now }

@[simp] theorem set_id (status : ReconciliationStatus) (totalDiscrepancies : ℕ) (completedAt now : Time)
    (row : RecordRow) : (RecordRow.set status totalDiscrepancies completedAt now row).id = row.id := rfl

def execUpdate (o : Oracle) (id : Id) (set : RecordRow → RecordRow) (hset : ∀ row, (set row).id = row.id) (db : Db) :
    Except ReconciliationError Unit × Db :=
  let records := db.records.updateWhere (fun row => row.id = id) set hset
  request (o.rejects.map .rejected) o.lost ((), { db with records }) db

def handle : Async.Handler Call Answer Oracle Db := fun a o db =>
  let db := db.tick o
  match a with
  | .now => (.ok db.clock, db)
  | .randomUUID => (.ok o.uuid, db)
  | .intentCounts startDate endDate => read o db (db.books.intentCounts startDate endDate)
  | .insertRecord row => execInsert o row db
  | .missingSettlements startDate endDate => read o db (db.books.missingSettlements startDate endDate)
  | .amountRows startDate endDate => read o db (db.books.amountRows startDate endDate)
  | .duplicateSettlements startDate endDate => read o db (db.books.duplicateSettlements startDate endDate)
  | .missingLedgerEntries startDate endDate => read o db (db.books.missingLedgerEntries startDate endDate)
  | .fxTotals startDate endDate => read o db (db.books.fxTotals startDate endDate)
  | .settlementTotals startDate endDate => read o db (db.books.settlementTotals startDate endDate)
  | .feeTotal startDate endDate => read o db (db.books.feeTotal startDate endDate)
  | .updateRecord id status totalDiscrepancies completedAt now =>
    execUpdate o id (RecordRow.set status totalDiscrepancies completedAt now)
      (set_id status totalDiscrepancies completedAt now) db
  | .selectRecord id => read o db (db.records.find? id)
  | .chainTotals startDate endDate => read o db (db.books.chainTotals startDate endDate)
  | .merchantTotals startDate endDate => read o db (db.books.merchantTotals startDate endDate)
  | .fxEntries startDate endDate => read o db (db.books.fxEntries startDate endDate)
  | .selectDiscrepancies recordId =>
    read o db (db.discrepancies.filter fun row => row.reconciliationRecordId = recordId)

end NexoraGateway.Reconciliation
