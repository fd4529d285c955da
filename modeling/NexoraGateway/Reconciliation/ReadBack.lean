import NexoraGateway.Reconciliation.Findings

/-!
# Reading a reconciliation back (`exportData`, reconciliation.service.ts:153)

A run answers its discrepancies and the two summaries, but stores only their number: nothing inserts into
`discrepancies`, and the record has no columns for the summaries. `read_back_iff` says when the export shows what was
reported all the same.
-/
namespace NexoraGateway.Reconciliation

open Async Store
open Settlements (Settlement)

/-- What of a discrepancy is to be read back. -/
def Discrepancy.reported (d : Discrepancy) : DiscrepancyType × DiscrepancySeverity × Id × Json × Json × Option ℚ :=
  (d.type, d.severity, d.intentId, d.expectedValue, d.actualValue, d.difference)

/-- The export shows the discrepancies of the result, and its record with the same totals and summaries. -/
structure ReadsBack (record : ReconciliationRecord) (discrepancies : List Discrepancy)
    (result : ReconciliationCheckResult) : Prop where
  discrepancies : (discrepancies.map Discrepancy.reported).Perm (result.discrepancies.map Discrepancy.reported)
  total : record.totalDiscrepancies = result.record.totalDiscrepancies
  summary : record.discrepancySummary = result.record.discrepancySummary
  financial : record.financialSummary = result.record.financialSummary

/-- No money moved in the period: its sums are 0, and none of the settlements that were created in it is completed. -/
structure Idle (books : Books) (startDate endDate : Time) : Prop where
  settled : total Settlement.amount (books.createdIn startDate endDate) = 0
  fees : books.feeTotal startDate endDate = 0
  gains : (books.fxTotals startDate endDate).totalGains = 0
  losses : (books.fxTotals startDate endDate).totalLosses = 0
  completed : ∀ row ∈ books.createdIn startDate endDate, row.status ≠ .completed

section
variable {books : Books} {startDate endDate : Time}

theorem successRate_eq_zero {total completed : ℕ} (h : completed ≤ total) :
    (if total > 0 then (completed : ℚ) / total * 100 else 0) = 0 ↔ completed = 0 := by
  rcases Nat.eq_zero_or_pos total with rfl | htotal
  · simp [Nat.le_zero.1 h]
  · rw [if_pos htotal]
    simp [htotal.ne']

/-- An idle period has the summary that a record is read back with. -/
theorem financialSummary_eq_empty_iff :
    financialSummary books startDate endDate = {} ↔ Idle books startDate endDate := by
  have hcompleted : (books.settlementTotals startDate endDate).completedCount = 0 ↔
      ∀ row ∈ books.createdIn startDate endDate, row.status ≠ .completed := by
    simp only [Books.settlementTotals, List.countP_eq_zero, decide_eq_true_eq]
  have hle : (books.settlementTotals startDate endDate).completedCount ≤
      (books.settlementTotals startDate endDate).totalCount := List.countP_le_length
  simp only [financialSummary, summarise, FinancialSummary.mk.injEq, successRate_eq_zero hle, hcompleted, and_true]
  constructor
  · rintro ⟨hsettled, hfees, hgains, hlosses, -, hrate⟩
    exact ⟨hsettled, hfees, hgains, hlosses, hrate⟩
  · rintro ⟨hsettled, hfees, hgains, hlosses, hrate⟩
    exact ⟨hsettled, hfees, hgains, hlosses, by rw [hgains, hlosses, sub_zero], hrate⟩

/-- The summary of no discrepancies is the one that a record is read back with, and only that. -/
theorem buildDiscrepancySummary_eq_empty_iff {discrepancies : List Discrepancy} :
    buildDiscrepancySummary discrepancies = {} ↔ discrepancies = [] := by
  constructor
  · intro h
    exact List.length_eq_zero_iff.1 (congrArg DiscrepancySummary.totalDiscrepancies h)
  · rintro rfl
    rfl

/-- **When a result can be read back**: when there is nothing in it, neither a discrepancy nor money, and nothing was
filed before under the UUID that the record gets, which is the second of the run's calls. -/
theorem read_back_iff {ω ω' : Nat → Oracle} {n m n' m' : Nat} {db db' db'' : Db} {period : ReconciliationPeriod}
    {result : ReconciliationCheckResult} {text : Export}
    (hrun : (runReconciliation period startDate endDate).run handle ω n db = (.ok result, m, db'))
    (hexport : (exportData result.record.id .json).run handle ω' n' db' = (.ok text, m', db'')) :
    (∃ record discrepancies, text = .json record discrepancies ∧ ReadsBack record discrepancies result) ↔
      Clean db.books startDate endDate ∧ Idle db.books startDate endDate ∧
        ∀ d ∈ db.discrepancies, d.reconciliationRecordId ≠ (ω (n + 1)).uuid := by
  obtain ⟨hran, hid⟩ := runReconciliation_ok hrun
  obtain ⟨row, hrow, rfl⟩ := exportData_ok hexport
  obtain ⟨row', hrow', htotal⟩ := hran.stored
  obtain rfl : row = row' := Option.some.inj (hrow.symm.trans hrow')
  have hclean : result.discrepancies = [] ↔ Clean db.books startDate endDate := by
    rw [← findings_eq_nil_iff, ← hran.reports.1, List.map_eq_nil_iff]
  have hrows : (db'.discrepancies.filter fun d => d.reconciliationRecordId = result.record.id) = [] ↔
      ∀ d ∈ db.discrepancies, d.reconciliationRecordId ≠ (ω (n + 1)).uuid := by
    rw [hran.discrepancies, List.filter_eq_nil_iff, hid]
    simp only [decide_eq_true_eq, ne_eq]
  have hsummary : result.record.discrepancySummary = {} ↔ result.discrepancies = [] := by
    rw [hran.summary, buildDiscrepancySummary_eq_empty_iff]
  rw [← hclean, ← financialSummary_eq_empty_iff, ← hran.financial, ← hrows]
  constructor
  · rintro ⟨record, discrepancies, htext, hreads⟩
    obtain ⟨rfl, rfl⟩ := Export.json.inj htext
    have hnone := hsummary.1 hreads.summary.symm
    have hperm := hreads.discrepancies
    rw [hnone] at hperm
    exact ⟨hnone, hreads.financial.symm, List.map_eq_nil_iff.1 (List.perm_nil.1 hperm)⟩
  · rintro ⟨hnone, hfinancial, hfresh⟩
    refine ⟨_, _, rfl, ?_, congrArg (Option.getD · 0) htotal, (hsummary.2 hnone).symm, hfinancial.symm⟩
    rw [hnone, hfresh]

end

theorem read_back_iff_order : ∃ result m db' text m' db'',
    (runReconciliation .daily 0 20).run handle (fun _ => {}) 0 (dbOf twoPayouts) = (.ok result, m, db') ∧
    (exportData result.record.id .json).run handle (fun _ => {}) 0 db' = (.ok text, m', db'') ∧
    ((∃ record discrepancies, text = .json record discrepancies ∧ ReadsBack record discrepancies result) ↔
      Clean twoPayouts 0 20 ∧ Idle twoPayouts 0 20 ∧
        ∀ d ∈ (dbOf twoPayouts).discrepancies, d.reconciliationRecordId ≠ ({} : Oracle).uuid) := by
  obtain ⟨result, m, db', hrun⟩ := exists_run twoPayouts .daily 0 20
  obtain ⟨row, hrow, -⟩ := (runReconciliation_ok hrun).1.stored
  obtain ⟨text, m', db'', hexport⟩ := exists_export ⟨row, hrow⟩
  exact ⟨result, m, db', text, m', db'', hrun, hexport, read_back_iff hrun hexport⟩

/-- A duplicate that a run reports is in no export. -/
theorem duplicate_not_exported : ∃ result m db' text m' db'',
    (runReconciliation .daily 0 20).run handle (fun _ => {}) 0 (dbOf twoPayouts) = (.ok result, m, db') ∧
    (exportData result.record.id .json).run handle (fun _ => {}) 0 db' = (.ok text, m', db'') ∧
    Reported result .duplicateSettlement "pi" ∧
    ¬ ∃ record discrepancies, text = .json record discrepancies ∧ ReadsBack record discrepancies result := by
  obtain ⟨result, m, db', hrun⟩ := exists_run twoPayouts .daily 0 20
  have hran := (runReconciliation_ok hrun).1
  obtain ⟨row, hrow, -⟩ := hran.stored
  obtain ⟨text, m', db'', hexport⟩ := exists_export ⟨row, hrow⟩
  have hreported : Reported result .duplicateSettlement "pi" := hran.reported_duplicate_iff.2 (by decide +kernel)
  refine ⟨result, m, db', text, m', db'', hrun, hexport, hreported, ?_⟩
  rintro ⟨record, discrepancies, htext, hreads⟩
  obtain ⟨_, -, htext'⟩ := exportData_ok hexport
  obtain ⟨-, rfl⟩ := Export.json.inj (htext.symm.trans htext')
  obtain ⟨d, hd, -⟩ := hreported
  have hnone : db'.discrepancies = [] := hran.discrepancies
  have hperm := hreads.discrepancies
  rw [hnone] at hperm
  have hempty : result.discrepancies = [] := List.map_eq_nil_iff.1 (List.nil_perm.1 hperm)
  rw [hempty] at hd
  exact absurd hd List.not_mem_nil

end NexoraGateway.Reconciliation
