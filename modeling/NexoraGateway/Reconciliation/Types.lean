import NexoraGateway.Settlements.Ledger
import NexoraGateway.Store.Aggregates

/-!
# Reconciliation records, discrepancies and reports (`shared/src/types/reconciliation.ts`)

`averageSettlementTime`, `lockedRate`, `actualRate` and the like are always 0; they are fields all the same. No
migration creates `reconciliation_records` or `discrepancies`; both are read here as the queries on them use them.

* `Finding` — what `createDiscrepancy` is told; a `Discrepancy` adds the record, an id and the time.
* `RecordRow` — a `reconciliation_records` row; `mapRecord` (reconciliation.service.ts:628) reads it back.
-/
namespace NexoraGateway.Reconciliation

open Store

inductive ReconciliationPeriod where
  | hourly | daily | weekly | monthly
  deriving DecidableEq, Repr

inductive ReconciliationStatus where
  | pending | inProgress | completed | discrepancyFound | failed
  deriving DecidableEq, Repr

inductive DiscrepancyType where
  | amountMismatch | missingSettlement | missingLedgerEntry | duplicateSettlement | fxGainLossMismatch
  | feeCalculationError | onChainMismatch
  deriving DecidableEq, Repr

/-- The type as the exports spell it. -/
def DiscrepancyType.name : DiscrepancyType → String
  | .amountMismatch => "AMOUNT_MISMATCH"
  | .missingSettlement => "MISSING_SETTLEMENT"
  | .missingLedgerEntry => "MISSING_LEDGER_ENTRY"
  | .duplicateSettlement => "DUPLICATE_SETTLEMENT"
  | .fxGainLossMismatch => "FX_GAIN_LOSS_MISMATCH"
  | .feeCalculationError => "FEE_CALCULATION_ERROR"
  | .onChainMismatch => "ON_CHAIN_MISMATCH"

inductive DiscrepancySeverity where
  | low | medium | high | critical
  deriving DecidableEq, Repr

def DiscrepancySeverity.name : DiscrepancySeverity → String
  | .low => "LOW"
  | .medium => "MEDIUM"
  | .high => "HIGH"
  | .critical => "CRITICAL"

structure Finding where
  type : DiscrepancyType
  severity : DiscrepancySeverity
  intentId : Id
  description : String
  expectedValue : Json
  actualValue : Json
  difference : Option ℚ

/-- A `Discrepancy`, and a `discrepancies` row: `mapDiscrepancy` (reconciliation.service.ts:647) is the identity on
it. -/
structure Discrepancy extends Finding where
  id : Id
  reconciliationRecordId : Id
  metadata : Payload := []
  detectedAt : Time
  resolvedAt : Option Time := none
  resolution : Option String := none

structure DiscrepancySummary where
  totalDiscrepancies : ℕ := 0
  byType : Dict DiscrepancyType ℕ := .empty
  bySeverity : Dict DiscrepancySeverity ℕ := .empty
  criticalDiscrepancies : List Discrepancy := []

structure FinancialSummary where
  totalSettledUsd : ℚ := 0
  totalFeesUsd : ℚ := 0
  totalFxGainUsd : ℚ := 0
  totalFxLossUsd : ℚ := 0
  netFxImpactUsd : ℚ := 0
  settlementSuccessRate : ℚ := 0
  averageSettlementTime : ℚ := 0
  deriving DecidableEq

structure ReconciliationRecord where
  id : Id
  period : ReconciliationPeriod
  startDate : Time
  endDate : Time
  status : ReconciliationStatus
  totalIntents : ℕ
  totalSettled : ℕ
  totalPending : ℕ
  totalFailed : ℕ
  totalDiscrepancies : ℕ := 0
  discrepancySummary : DiscrepancySummary := {}
  financialSummary : FinancialSummary := {}
  createdAt : Time
  completedAt : Option Time := none

structure RecordRow where
  id : Id
  period : ReconciliationPeriod
  startDate : Time
  endDate : Time
  status : ReconciliationStatus
  totalIntents : ℕ
  totalSettled : ℕ
  totalPending : ℕ
  totalFailed : ℕ
  totalDiscrepancies : Option ℕ := none
  createdAt : Time
  updatedAt : Option Time := none
  completedAt : Option Time := none

/-- `mapRecord`: the two summaries have no columns. -/
def mapRecord (row : RecordRow) : ReconciliationRecord :=
  { id := row.id, period := row.period, startDate := row.startDate, endDate := row.endDate, status := row.status
    totalIntents := row.totalIntents, totalSettled := row.totalSettled, totalPending := row.totalPending
    totalFailed := row.totalFailed, totalDiscrepancies := row.totalDiscrepancies.getD 0
    createdAt := row.createdAt, completedAt := row.completedAt }

structure ReconciliationCheckResult where
  passed : Bool
  record : ReconciliationRecord
  discrepancies : List Discrepancy
  duration : Time

structure ChainFinancialSummary where
  chainId : String
  chainName : String
  totalSettled : ℚ
  totalSettledUsd : ℚ
  totalFees : ℚ := 0
  totalTransactions : ℕ
  successRate : ℚ := 100

structure MerchantFinancialSummary where
  merchantId : Id
  merchantName : String
  totalSettled : ℚ
  totalSettledUsd : ℚ
  totalFees : ℚ := 0
  totalTransactions : ℕ

structure FxGainLossEntry where
  intentId : Id
  asset : String
  chain : String
  lockedRate : ℚ := 0
  actualRate : ℚ := 0
  gainLoss : ℚ
  gainLossUsd : ℚ
  recordedAt : Time

structure FinancialReport where
  id : Id
  period : ReconciliationPeriod
  startDate : Time
  endDate : Time
  generatedAt : Time
  summary : FinancialSummary
  byChain : List ChainFinancialSummary
  byMerchant : List MerchantFinancialSummary
  fxGainLossDetails : List FxGainLossEntry

inductive ExportFormat where
  | csv | json
  deriving DecidableEq, Repr

/-- The text that `exportData` answers; a JSON text is given by the object that `JSON.stringify` renders. -/
inductive Export where
  | csv (text : String)
  | json (record : ReconciliationRecord) (discrepancies : List Discrepancy)

end NexoraGateway.Reconciliation
