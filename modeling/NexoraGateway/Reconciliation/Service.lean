import NexoraGateway.Reconciliation.Queries
import NexoraGateway.Text.Dates

/-!
# The reconciliation service (`reconciliation/src/reconciliation.service.ts`)

* `runReconciliation` — :51, with the five checks (:177-337) and `createRecord`, `updateRecord` (:341, :385).
* `generateFinancialReport` — :128, with `calculateFinancialSummary` and the three lists (:437-558).
* `exportData`, `getRecord` — :153, :108.

Every check makes its `Finding`s from the rows of one query; they are functions of the books (`findings`), and so is the
summary (`financialSummary`).
-/
namespace NexoraGateway.Reconciliation

open Async Store
open Settlements (LedgerEntry)

abbrev Task (α : Type) : Type := Prog Call Answer ReconciliationError α

namespace Task
def now : Task Time := Prog.await Call.now
def randomUUID : Task Id := Prog.await Call.randomUUID
def intentCounts (startDate endDate : Time) : Task IntentCounts := Prog.await (Call.intentCounts startDate endDate)
def insertRecord (row : RecordRow) : Task Unit := Prog.await (Call.insertRecord row)
def missingSettlements (startDate endDate : Time) : Task (List Id) :=
  Prog.await (Call.missingSettlements startDate endDate)
def amountRows (startDate endDate : Time) : Task (List AmountRow) := Prog.await (Call.amountRows startDate endDate)
def duplicateSettlements (startDate endDate : Time) : Task (List (Id × ℕ)) :=
  Prog.await (Call.duplicateSettlements startDate endDate)
def missingLedgerEntries (startDate endDate : Time) : Task (List Id) :=
  Prog.await (Call.missingLedgerEntries startDate endDate)
def fxTotals (startDate endDate : Time) : Task FxTotals := Prog.await (Call.fxTotals startDate endDate)
def settlementTotals (startDate endDate : Time) : Task SettlementTotals :=
  Prog.await (Call.settlementTotals startDate endDate)
def feeTotal (startDate endDate : Time) : Task ℚ := Prog.await (Call.feeTotal startDate endDate)
def updateRecord (id : Id) (status : ReconciliationStatus) (totalDiscrepancies : ℕ) (completedAt now : Time) :
    Task Unit :=
  Prog.await (Call.updateRecord id status totalDiscrepancies completedAt now)
def selectRecord (id : Id) : Task (Option RecordRow) := Prog.await (Call.selectRecord id)
def chainTotals (startDate endDate : Time) : Task (List ChainRow) := Prog.await (Call.chainTotals startDate endDate)
def merchantTotals (startDate endDate : Time) : Task (List MerchantRow) :=
  Prog.await (Call.merchantTotals startDate endDate)
def fxEntries (startDate endDate : Time) : Task (List LedgerEntry) := Prog.await (Call.fxEntries startDate endDate)
def selectDiscrepancies (recordId : Id) : Task (List Discrepancy) := Prog.await (Call.selectDiscrepancies recordId)
end Task

/-! ## Discrepancies -/

def createDiscrepancy (recordId : Id) (finding : Finding) : Task Discrepancy := do
  let id ← Task.randomUUID
  let now ← Task.now
  return { finding with id, reconciliationRecordId := recordId, detectedAt := now }

/-- `createDiscrepancy` for one row after the other. -/
def createDiscrepancies (recordId : Id) : List Finding → Task (List Discrepancy)
  | [] => return []
  | finding :: rest => do
    let discrepancy ← createDiscrepancy recordId finding
    let discrepancies ← createDiscrepancies recordId rest
    return discrepancy :: discrepancies

def missingSettlement (intentId : Id) : Finding :=
  { type := .missingSettlement, severity := .high, intentId
    description := "Settled intent has no settlement record", expectedValue := .str "Settlement record exists"
    actualValue := .str "No settlement record", difference := none }

def AmountRow.expectedAmount (row : AmountRow) : ℚ := row.targetAmount * (1 - row.feePercentage / 100)

/-- 0.01% of tolerance for rounding. -/
def AmountRow.tolerance (row : AmountRow) : ℚ := row.expectedAmount * (1 / 10000)

/-- The body of the loop of `checkAmountMismatches`. -/
def amountMismatch? (row : AmountRow) : Option Finding :=
  if |row.expectedAmount - row.settlementAmount| > row.tolerance then
    some
      { type := .amountMismatch, severity := .high, intentId := row.intentId
        description := "Settlement amount mismatch", expectedValue := .num row.expectedAmount
        actualValue := .num row.settlementAmount, difference := some (row.expectedAmount - row.settlementAmount) }
  else none

def duplicateSettlement (row : Id × ℕ) : Finding :=
  { type := .duplicateSettlement, severity := .critical, intentId := row.1
    description := "Intent has " ++ toString row.2 ++ " settlements", expectedValue := .num 1
    actualValue := .num row.2, difference := some (row.2 - 1) }

def missingLedgerEntry (intentId : Id) : Finding :=
  { type := .missingLedgerEntry, severity := .high, intentId, description := "Settlement has no ledger entry"
    expectedValue := .str "Ledger entry exists", actualValue := .str "No ledger entry", difference := none }

def fxMismatch (totals : FxTotals) : List Finding :=
  let totalVolume := totals.totalGains + totals.totalLosses
  if totalVolume > 0 ∧ |totals.totalGains - totals.totalLosses| / totalVolume > 1 / 10 then
    [{ type := .fxGainLossMismatch, severity := .medium, intentId := "aggregate"
       description := "FX gains/losses significantly imbalanced", expectedValue := .str "Balanced FX gains/losses"
       actualValue := .str ("Gains: " ++ Settlements.numeral totals.totalGains ++ ", Losses: " ++
         Settlements.numeral totals.totalLosses)
       difference := some |totals.totalGains - totals.totalLosses| }]
  else []

def checkMissingSettlements (recordId : Id) (startDate endDate : Time) : Task (List Discrepancy) := do
  let rows ← Task.missingSettlements startDate endDate
  createDiscrepancies recordId (rows.map missingSettlement)

def checkAmountMismatches (recordId : Id) (startDate endDate : Time) : Task (List Discrepancy) := do
  let rows ← Task.amountRows startDate endDate
  createDiscrepancies recordId (rows.filterMap amountMismatch?)

def checkDuplicateSettlements (recordId : Id) (startDate endDate : Time) : Task (List Discrepancy) := do
  let rows ← Task.duplicateSettlements startDate endDate
  createDiscrepancies recordId (rows.map duplicateSettlement)

def checkMissingLedgerEntries (recordId : Id) (startDate endDate : Time) : Task (List Discrepancy) := do
  let rows ← Task.missingLedgerEntries startDate endDate
  createDiscrepancies recordId (rows.map missingLedgerEntry)

def checkFxGainLoss (recordId : Id) (startDate endDate : Time) : Task (List Discrepancy) := do
  let totals ← Task.fxTotals startDate endDate
  createDiscrepancies recordId (fxMismatch totals)

/-- `counts[key] = (counts[key] || 0) + 1` for one key after the other. -/
def tally {K : Type} [DecidableEq K] (keys : List K) : Dict K ℕ :=
  keys.foldl (fun counts key => counts.put (key, (counts.get? key).getD 0 + 1)) .empty

def buildDiscrepancySummary (discrepancies : List Discrepancy) : DiscrepancySummary :=
  { totalDiscrepancies := discrepancies.length
    byType := tally (discrepancies.map (·.type))
    bySeverity := tally (discrepancies.map (·.severity))
    criticalDiscrepancies := discrepancies.filter fun d => d.severity = .critical }

/-! ## Financial summary and report -/

def summarise (settled : SettlementTotals) (fees : ℚ) (fx : FxTotals) : FinancialSummary :=
  { totalSettledUsd := settled.totalSettled
    totalFeesUsd := fees
    totalFxGainUsd := fx.totalGains
    totalFxLossUsd := fx.totalLosses
    netFxImpactUsd := fx.totalGains - fx.totalLosses
    settlementSuccessRate :=
      if settled.totalCount > 0 then settled.completedCount / settled.totalCount * 100 else 0
    averageSettlementTime := 0 }

def calculateFinancialSummary (startDate endDate : Time) : Task FinancialSummary := do
  let settled ← Task.settlementTotals startDate endDate
  let fees ← Task.feeTotal startDate endDate
  let fx ← Task.fxTotals startDate endDate
  return summarise settled fees fx

def ChainRow.summary (row : ChainRow) : ChainFinancialSummary :=
  { chainId := row.chain, chainName := row.chain, totalSettled := row.total, totalSettledUsd := row.total
    totalTransactions := row.count }

def getFinancialByChain (startDate endDate : Time) : Task (List ChainFinancialSummary) := do
  let rows ← Task.chainTotals startDate endDate
  return rows.map ChainRow.summary

def MerchantRow.summary (row : MerchantRow) : MerchantFinancialSummary :=
  { merchantId := row.merchantId, merchantName := row.name, totalSettled := row.total, totalSettledUsd := row.total
    totalTransactions := row.count }

def getFinancialByMerchant (startDate endDate : Time) : Task (List MerchantFinancialSummary) := do
  let rows ← Task.merchantTotals startDate endDate
  return rows.map MerchantRow.summary

/-- `Number(metadata?.amount) || 0`; what is not a number is never written there. -/
def metadataAmount (metadata : Option Payload) : ℚ :=
  match metadata.bind fun fields => fields.get? "amount" with
  | some (.num amount) => amount
  | _ => 0

def fxDetails : List LedgerEntry → Task (List FxGainLossEntry)
  | [] => return []
  | entry :: rest => do
    let now ← Task.now
    let detail : FxGainLossEntry :=
      { intentId := entry.intentId, asset := entry.asset, chain := entry.chain
        gainLoss := metadataAmount entry.metadata, gainLossUsd := metadataAmount entry.metadata, recordedAt := now }
    let details ← fxDetails rest
    return detail :: details

def getFxGainLossDetails (startDate endDate : Time) : Task (List FxGainLossEntry) := do
  let rows ← Task.fxEntries startDate endDate
  fxDetails rows

def generateFinancialReport (period : ReconciliationPeriod) (startDate endDate : Time) : Task FinancialReport := do
  let summary ← calculateFinancialSummary startDate endDate
  let byChain ← getFinancialByChain startDate endDate
  let byMerchant ← getFinancialByMerchant startDate endDate
  let fxGainLossDetails ← getFxGainLossDetails startDate endDate
  let id ← Task.randomUUID
  let generatedAt ← Task.now
  return { id, period, startDate, endDate, generatedAt, summary, byChain, byMerchant, fxGainLossDetails }

/-! ## Records -/

def getRecord (id : Id) : Task (Option ReconciliationRecord) := do
  let row ← Task.selectRecord id
  return row.map mapRecord

/-- The record that `createRecord` inserts. -/
def newRecord (id : Id) (period : ReconciliationPeriod) (startDate endDate now : Time) (counts : IntentCounts) :
    RecordRow :=
  { id, period, startDate, endDate, status := .inProgress, totalIntents := counts.total
    totalSettled := counts.settled, totalPending := counts.pending, totalFailed := counts.failed, createdAt := now }

def createRecord (period : ReconciliationPeriod) (startDate endDate : Time) : Task ReconciliationRecord := do
  let id ← Task.randomUUID
  let now ← Task.now
  let counts ← Task.intentCounts startDate endDate
  let row := newRecord id period startDate endDate now counts
  Task.insertRecord row
  return mapRecord row

/-- What the only call of `updateRecord` updates. -/
structure RecordUpdates where
  status : ReconciliationStatus
  totalDiscrepancies : ℕ
  discrepancySummary : DiscrepancySummary
  financialSummary : FinancialSummary
  completedAt : Time

/-- The updates are applied to the record that was read back. -/
def RecordUpdates.apply (updates : RecordUpdates) (record : ReconciliationRecord) : ReconciliationRecord :=
  { record with
    status := updates.status
    totalDiscrepancies := updates.totalDiscrepancies
    discrepancySummary := updates.discrepancySummary
    financialSummary := updates.financialSummary
    completedAt := some updates.completedAt }

def updateRecord (id : Id) (updates : RecordUpdates) : Task ReconciliationRecord := do
  let now ← Task.now
  Task.updateRecord id updates.status updates.totalDiscrepancies updates.completedAt now
  let some record ← getRecord id | throw (.recordNotFoundAfterUpdate id)
  return updates.apply record

def runReconciliation (period : ReconciliationPeriod) (startDate endDate : Time) : Task ReconciliationCheckResult := do
  let startTime ← Task.now
  let record ← createRecord period startDate endDate
  let missingSettlements ← checkMissingSettlements record.id startDate endDate
  let amountMismatches ← checkAmountMismatches record.id startDate endDate
  let duplicates ← checkDuplicateSettlements record.id startDate endDate
  let missingLedger ← checkMissingLedgerEntries record.id startDate endDate
  let fxDiscrepancies ← checkFxGainLoss record.id startDate endDate
  let discrepancies := missingSettlements ++ amountMismatches ++ duplicates ++ missingLedger ++ fxDiscrepancies
  let summary := buildDiscrepancySummary discrepancies
  let financialSummary ← calculateFinancialSummary startDate endDate
  let completedAt ← Task.now
  let finalRecord ← updateRecord record.id
    { status := if discrepancies.length > 0 then .discrepancyFound else .completed
      totalDiscrepancies := discrepancies.length, discrepancySummary := summary, financialSummary, completedAt }
  let endTime ← Task.now
  return { passed := discrepancies.isEmpty, record := finalRecord, discrepancies, duration := endTime - startTime }

/-! ## Export -/

mutual
/-- What a template literal writes for a value. Numbers have at most eight decimals. -/
def template : Json → String
  | .null => "null"
  | .bool b => if b then "true" else "false"
  | .num q => Settlements.numeral q
  | .str s => s
  | .date t => Text.toISOString t
  | .arr xs => ",".intercalate (templates xs)
  | .obj _ => "[object Object]"

/-- `Array.prototype.join` writes nothing for `null`. -/
def templates : List Json → List String
  | [] => []
  | .null :: xs => "" :: templates xs
  | x :: xs => template x :: templates xs
end

def getDiscrepancies (recordId : Id) : Task (List Discrepancy) := Task.selectDiscrepancies recordId

def csvHeader : String := "Type,Severity,Intent ID,Description,Expected,Actual,Difference,Detected At"

def csvLine (d : Discrepancy) : String :=
  ",".intercalate [d.type.name, d.severity.name, d.intentId, d.description, template d.expectedValue,
    template d.actualValue, (d.difference.map Settlements.numeral).getD "", Text.toISOString d.detectedAt]

def exportData (recordId : Id) (format : ExportFormat) : Task Export := do
  let some record ← getRecord recordId | throw (.recordNotFound recordId)
  let discrepancies ← getDiscrepancies recordId
  match format with
  | .json => return .json record discrepancies
  | .csv => return .csv ("\n".intercalate (csvHeader :: discrepancies.map csvLine))

end NexoraGateway.Reconciliation
