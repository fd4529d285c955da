import NexoraGateway.Async.Loops
import NexoraGateway.Reconciliation.Runs

/-!
# Runs that are interrupted (reconciliation.service.ts:51)

`ReconciliationStatus` has a `FAILED`, and no query writes it. A query that is rejected once the record is inserted
rejects the run, which leaves the record as `createRecord` or `updateRecord` wrote it (`interrupted_left`).
-/
namespace NexoraGateway.Reconciliation

open Async Store

variable {ω : Nat → Oracle} {n k : Nat} {db db₁ : Db} {recordId : Id} {startDate endDate : Time}
  {period : ReconciliationPeriod}

/-- The record is closed, as that of a run that failed. -/
def ClosedAsFailed (recordId : Id) (db : Db) : Prop :=
  ∃ row, db.records.find? recordId = some row ∧ row.status = .failed ∧ row.completedAt.isSome

/-- As `createRecord` leaves it. -/
def RecordRow.Opened (row : RecordRow) : Prop := row.status = .inProgress ∧ row.completedAt = none

/-- As `updateRecord` leaves it. -/
def RecordRow.Finished (row : RecordRow) : Prop :=
  (row.status = .completed ∨ row.status = .discrepancyFound) ∧ row.completedAt.isSome

/-- The record is there, and no run has failed in it. -/
def Left (recordId : Id) (db : Db) : Prop :=
  ∃ row, db.records.find? recordId = some row ∧ (row.Opened ∨ row.Finished)

theorem Left.not_closedAsFailed (h : Left recordId db) : ¬ ClosedAsFailed recordId db := by
  rintro ⟨row, hrow, hstatus, -⟩
  obtain ⟨row', hrow', hopened | hfinished⟩ := h
  · cases Option.some.inj (hrow.symm.trans hrow')
    exact absurd (hstatus.symm.trans hopened.1) nofun
  · cases Option.some.inj (hrow.symm.trans hrow')
    rcases hfinished.1 with h | h
    · exact absurd (hstatus.symm.trans h) nofun
    · exact absurd (hstatus.symm.trans h) nofun

/-- The calls that follow the insert. -/
def Call.Follows : Call → Prop
  | insertRecord _ => False
  | updateRecord _ status _ _ _ => status = .completed ∨ status = .discrepancyFound
  | _ => True

theorem Left.updated {status : ReconciliationStatus} {totalDiscrepancies : ℕ} {completedAt now : Time} {id : Id}
    (hstatus : status = .completed ∨ status = .discrepancyFound) (h : Left recordId db) :
    Left recordId (execUpdate {} id (RecordRow.set status totalDiscrepancies completedAt now)
      (set_id status totalDiscrepancies completedAt now) db).2 := by
  obtain ⟨row, hrow, hleft⟩ := h
  let set := RecordRow.set status totalDiscrepancies completedAt now
  have hstored : (db.records.updateWhere (fun row => row.id = id) set (set_id _ _ _ _)).find? recordId =
      some (if row.id = id then set row else row) := by
    rw [Table.find?_updateWhere, hrow]
    simp
  refine ⟨_, hstored, ?_⟩
  split
  · exact .inr ⟨hstatus, rfl⟩
  · exact hleft

/-- A call that follows the insert fails no record. -/
theorem Left.handle {a : Call} (ha : a.Follows) (o : Oracle) (h : Left recordId db) :
    Left recordId (handle a o db).2 := by
  cases a with
  | now | randomUUID => exact h
  | insertRecord row => exact ha.elim
  | updateRecord id status totalDiscrepancies completedAt now =>
    have htick : Left recordId (db.tick o) := h
    exact request_rule (P := Left recordId) (htick.updated ha) h
  | _ => exact request_rule (P := Left recordId) h h

theorem createDiscrepancies_brittle (recordId : Id) (found : List Finding) :
    (createDiscrepancies recordId found).Brittle Call.Follows := by
  induction found with
  | nil => trivial
  | cons finding rest ih =>
    refine Prog.Brittle.bind ?_ fun _ => Prog.Brittle.bind ih fun _ => trivial
    exact Prog.Brittle.bind (.await trivial) fun _ => Prog.Brittle.bind (.await trivial) fun _ => trivial

theorem check_brittle {a : Call} (ha : a.Follows) (recordId : Id) (find : a.Ans → List Finding) :
    ((Prog.await a).bind fun rows => createDiscrepancies recordId (find rows) : Task _).Brittle Call.Follows :=
  Prog.Brittle.bind (.await ha) fun _ => createDiscrepancies_brittle recordId _

theorem updateRecord_brittle {updates : RecordUpdates}
    (hstatus : updates.status = .completed ∨ updates.status = .discrepancyFound) :
    (updateRecord recordId updates).Brittle Call.Follows := by
  refine Prog.Brittle.bind (.await trivial) fun now => Prog.Brittle.bind (.await hstatus) fun _ => ?_
  refine Prog.Brittle.bind (Prog.Brittle.bind (.await trivial) fun _ => trivial) fun found => ?_
  cases found <;> trivial

/-- What `runReconciliation` does once the record is inserted. -/
def resume (startTime : Time) (record : ReconciliationRecord) (startDate endDate : Time) :
    Task ReconciliationCheckResult := do
  let missingSettlements ← checkMissingSettlements record.id startDate endDate
  let amountMismatches ← checkAmountMismatches record.id startDate endDate
  let duplicates ← checkDuplicateSettlements record.id startDate endDate
  let missingLedger ← checkMissingLedgerEntries record.id startDate endDate
  let fxDiscrepancies ← checkFxGainLoss record.id startDate endDate
  let discrepancies := missingSettlements ++ amountMismatches ++ duplicates ++ missingLedger ++ fxDiscrepancies
  let financialSummary ← calculateFinancialSummary startDate endDate
  let completedAt ← Task.now
  let finalRecord ← updateRecord record.id
    { status := if discrepancies.length > 0 then .discrepancyFound else .completed
      totalDiscrepancies := discrepancies.length, discrepancySummary := buildDiscrepancySummary discrepancies
      financialSummary, completedAt }
  let endTime ← Task.now
  return { passed := discrepancies.isEmpty, record := finalRecord, discrepancies, duration := endTime - startTime }

theorem runReconciliation_eq : runReconciliation period startDate endDate = (do
    let startTime ← Task.now
    let record ← createRecord period startDate endDate
    resume startTime record startDate endDate) := rfl

theorem resume_brittle (startTime : Time) (record : ReconciliationRecord) (startDate endDate : Time) :
    (resume startTime record startDate endDate).Brittle Call.Follows := by
  refine Prog.Brittle.bind (check_brittle (a := .missingSettlements startDate endDate) trivial _ _) fun _ => ?_
  refine Prog.Brittle.bind (check_brittle (a := .amountRows startDate endDate) trivial _ _) fun _ => ?_
  refine Prog.Brittle.bind (check_brittle (a := .duplicateSettlements startDate endDate) trivial _ _) fun _ => ?_
  refine Prog.Brittle.bind (check_brittle (a := .missingLedgerEntries startDate endDate) trivial _ _) fun _ => ?_
  refine Prog.Brittle.bind (check_brittle (a := .fxTotals startDate endDate) trivial _ _) fun _ => ?_
  refine Prog.Brittle.bind ?_ fun _ => ?_
  · refine Prog.Brittle.bind (.await trivial) fun _ => Prog.Brittle.bind (.await trivial) fun _ => ?_
    exact Prog.Brittle.bind (.await trivial) fun _ => trivial
  refine Prog.Brittle.bind (.await trivial) fun _ => Prog.Brittle.bind (updateRecord_brittle ?_) fun _ => ?_
  · dsimp only
    split
    · exact .inr rfl
    · exact .inl rfl
  exact Prog.Brittle.bind (.await trivial) fun _ => trivial

theorem createRecord_brittle (period : ReconciliationPeriod) (startDate endDate : Time) :
    (createRecord period startDate endDate).Brittle fun _ => True :=
  Prog.Brittle.bind (.await trivial) fun _ => Prog.Brittle.bind (.await trivial) fun _ =>
    Prog.Brittle.bind (.await trivial) fun _ => Prog.Brittle.bind (.await trivial) fun _ => trivial

theorem createRecord_left {record : ReconciliationRecord}
    (h : (createRecord period startDate endDate).run handle ω n db = (.ok record, k, db₁)) : Left record.id db₁ := by
  obtain ⟨⟨now, counts, rfl, hins⟩, -, -⟩ := createRecord_ok h
  exact ⟨_, (Table.find?_insert? hins _).trans (if_pos rfl), .inl ⟨rfl, rfl⟩⟩

/-- A query that is rejected after the insert rejects the run, and leaves the record in no state of failure. -/
theorem interrupted_left {startTime : Time} {record : ReconciliationRecord} (hleft : Left record.id db)
    (hfailed : ∃ c ∈ (resume startTime record startDate endDate).calls handle ω n db,
      ∃ e, (handle c.call c.oracle c.store).1 = .error e) :
    (∃ e, ((resume startTime record startDate endDate).run handle ω n db).1 = .error e) ∧
      Left record.id ((resume startTime record startDate endDate).run handle ω n db).2.2 :=
  have hbrittle := resume_brittle startTime record startDate endDate
  ⟨hbrittle.error hfailed,
    hbrittle.only.run_inv (I := Left record.id) ω (fun _ o _ ha hs => Left.handle ha o hs) n db hleft⟩

/-- **No run that rejects fails its record**: whichever query is rejected once the record is inserted, the run rejects
and the record is left open, or as the update made it. -/
theorem interrupted_not_closedAsFailed (period : ReconciliationPeriod) (startDate endDate : Time) (ω : Nat → Oracle)
    (n k : Nat) (db db₁ : Db) (record : ReconciliationRecord)
    (hcreated : (createRecord period startDate endDate).run handle ω (n + 1) (db.tick (ω n)) = (.ok record, k, db₁))
    (hfailed : ∃ c ∈ (runReconciliation period startDate endDate).calls handle ω n db,
      ∃ e, (handle c.call c.oracle c.store).1 = .error e) :
    (∃ e, ((runReconciliation period startDate endDate).run handle ω n db).1 = .error e) ∧
      ¬ ClosedAsFailed record.id ((runReconciliation period startDate endDate).run handle ω n db).2.2 := by
  have hstart : (Task.now).run handle ω n db = (.ok (db.tick (ω n)).clock, n + 1, db.tick (ω n)) := rfl
  rw [runReconciliation_eq, Prog.bind_def] at hfailed ⊢
  rw [Prog.calls_bind_of_ok handle ω _ hstart, Prog.bind_def, Prog.calls_bind_of_ok handle ω _ hcreated] at hfailed
  rw [Prog.run_bind_of_ok handle ω _ hstart, Prog.bind_def, Prog.run_bind_of_ok handle ω _ hcreated]
  obtain ⟨c, hc, e, he⟩ := hfailed
  have hleft := createRecord_left hcreated
  suffices hrest : c ∈ (resume (db.tick (ω n)).clock record startDate endDate).calls handle ω k db₁ by
    obtain ⟨herror, hleft'⟩ := interrupted_left hleft ⟨c, hrest, e, he⟩
    exact ⟨herror, hleft'.not_closedAsFailed⟩
  -- what comes before was answered: the clock always is, and the record was created
  rcases List.mem_append.1 hc with hc | hc
  · cases List.mem_singleton.1 hc
    cases he
  rcases List.mem_append.1 hc with hc | hc
  · obtain ⟨e', he'⟩ := (createRecord_brittle period startDate endDate).error ⟨c, hc, e, he⟩
    rw [hcreated] at he'
    cases he'
  · exact hc

/-! ## A day without payments -/

/-- The query of the first check is rejected. -/
def firstCheckRejected (k : Nat) : Oracle :=
  { took := 1, uuid := "r1", rejects := if k = 5 then some "connection terminated" else none }

theorem interrupted_not_closedAsFailed_first :
    ¬ ClosedAsFailed "r1" ((runReconciliation .daily 0 86400000).run handle firstCheckRejected 0 (dbOf noBooks)).2.2 :=
  (interrupted_not_closedAsFailed .daily 0 86400000 firstCheckRejected 0 5 (dbOf noBooks) _ _ rfl
    ⟨_, List.mem_of_getElem? (i := 5) rfl, _, rfl⟩).2

/-- The run rejects, and its record is in progress for good. -/
theorem first_check_leaves_open : ∃ row,
    ((runReconciliation .daily 0 86400000).run handle firstCheckRejected 0 (dbOf noBooks)).1 =
      .error (.rejected "connection terminated") ∧
    ((runReconciliation .daily 0 86400000).run handle firstCheckRejected 0 (dbOf noBooks)).2.2.records.rows = [row] ∧
    row.status = .inProgress ∧ row.completedAt = none :=
  ⟨_, rfl, rfl, rfl, rfl⟩

end NexoraGateway.Reconciliation
