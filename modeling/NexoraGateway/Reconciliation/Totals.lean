import NexoraGateway.Reconciliation.Findings

/-!
# The totals of the reports (reconciliation.service.ts:437-558)

Every total is a sum over the rows whose stamp lies in the period, both ends included.

* `totals_additive_iff` — what is stamped at the boundary of two periods is counted in both.
* `parts_agree_iff` — the summary goes by the creation of the settlements, the lists by their completion.
* `fx_agree_iff` — the details read `metadata.amount`, which `recordFxGainLoss` does not write.
-/
namespace NexoraGateway.Reconciliation

open Async Store
open Settlements (Settlement LedgerEntry)

/-- A report of the daily run over a period. -/
def IsReport (books : Books) (startDate endDate : Time) (report : FinancialReport) : Prop :=
  ∃ m db', (generateFinancialReport .daily startDate endDate).run handle (fun _ => {}) 0 (dbOf books) =
    (.ok report, m, db')

section
variable {books : Books} {startDate endDate : Time}

/-- The entries of a type. -/
def Books.entriesOf (books : Books) (entryType : Settlements.LedgerEntryType) : List LedgerEntry :=
  books.ledger.filter fun entry => entry.entryType = entryType

theorem entriesIn_eq (entryType : Settlements.LedgerEntryType) : books.entriesIn startDate endDate entryType =
    (books.entriesOf entryType).filter fun entry => between startDate endDate entry.createdAt := by
  rw [Books.entriesIn, Books.entriesOf, List.filter_filter]
  refine List.filter_congr fun entry _ => ?_
  simp [Bool.and_comm]

/-- What an entry adds to the gains, and to the losses. -/
def gainOf (entry : LedgerEntry) : ℚ := if entry.debitAccount = "revenue:fx" then entry.amount else 0

def lossOf (entry : LedgerEntry) : ℚ := if entry.debitAccount = "expense:fx" then entry.amount else 0

/-! ## Adjacent periods -/

/-- What is stamped at a moment sums up to nothing: the amounts of settlements, fees, gains and losses. -/
structure NothingAt (books : Books) (t : Time) : Prop where
  settled : total Settlement.amount (books.settlements.rows.filter fun row => row.createdAt = t) = 0
  fees : total (·.amount) ((books.entriesOf .fee).filter fun entry => entry.createdAt = t) = 0
  gains : total gainOf ((books.entriesOf .fxGainLoss).filter fun entry => entry.createdAt = t) = 0
  losses : total lossOf ((books.entriesOf .fxGainLoss).filter fun entry => entry.createdAt = t) = 0

/-- The totals of a period are the sums of those of its parts. -/
structure Additive (whole first second : FinancialSummary) : Prop where
  settled : whole.totalSettledUsd = first.totalSettledUsd + second.totalSettledUsd
  fees : whole.totalFeesUsd = first.totalFeesUsd + second.totalFeesUsd
  gains : whole.totalFxGainUsd = first.totalFxGainUsd + second.totalFxGainUsd
  losses : whole.totalFxLossUsd = first.totalFxLossUsd + second.totalFxLossUsd

theorem financialSummary_additive_iff {t₀ t₁ t₂ : Time} (h₀₁ : t₀ ≤ t₁) (h₁₂ : t₁ ≤ t₂) :
    Additive (financialSummary books t₀ t₂) (financialSummary books t₀ t₁) (financialSummary books t₁ t₂) ↔
      NothingAt books t₁ := by
  have hsettled := total_between_additive_iff (f := Settlement.amount) Settlement.createdAt books.settlements.rows
    h₀₁ h₁₂
  have hledger (entryType : Settlements.LedgerEntryType) (f : LedgerEntry → ℚ) :
      total f (books.entriesIn t₀ t₂ entryType) =
        total f (books.entriesIn t₀ t₁ entryType) + total f (books.entriesIn t₁ t₂ entryType) ↔
      total f ((books.entriesOf entryType).filter fun entry => entry.createdAt = t₁) = 0 := by
    simp only [entriesIn_eq]
    exact total_between_additive_iff LedgerEntry.createdAt _ h₀₁ h₁₂
  constructor
  · rintro ⟨h, hfees, hgains, hlosses⟩
    exact ⟨hsettled.1 h, (hledger .fee _).1 hfees, (hledger .fxGainLoss gainOf).1 hgains,
      (hledger .fxGainLoss lossOf).1 hlosses⟩
  · rintro ⟨h, hfees, hgains, hlosses⟩
    exact ⟨hsettled.2 h, (hledger .fee _).2 hfees, (hledger .fxGainLoss gainOf).2 hgains,
      (hledger .fxGainLoss lossOf).2 hlosses⟩

end

section
variable {books : Books} {startDate endDate : Time}

/-- The settlement was completed in the period. -/
def completedDuring (startDate endDate : Time) (row : Settlement) : Bool :=
  row.status = .completed ∧ row.completedAt.any (between startDate endDate)

/-- The amounts that were created in the period and not completed in it. -/
def Books.onlyCreated (books : Books) (startDate endDate : Time) : ℚ :=
  total Settlement.amount (books.settlements.rows.filter fun row =>
    between startDate endDate row.createdAt && !completedDuring startDate endDate row)

/-- The amounts that were completed in the period and not created in it. -/
def Books.onlyCompleted (books : Books) (startDate endDate : Time) : ℚ :=
  total Settlement.amount (books.settlements.rows.filter fun row =>
    completedDuring startDate endDate row && !between startDate endDate row.createdAt)

theorem created_eq_completed_iff :
    total Settlement.amount (books.createdIn startDate endDate) =
        total Settlement.amount (books.completedIn startDate endDate) ↔
      books.onlyCreated startDate endDate = books.onlyCompleted startDate endDate := by
  have hcreated := total_filter_and (f := Settlement.amount) (fun row => between startDate endDate row.createdAt)
    (completedDuring startDate endDate) books.settlements.rows
  have hcompleted := total_filter_and (f := Settlement.amount) (completedDuring startDate endDate)
    (fun row => between startDate endDate row.createdAt) books.settlements.rows
  have hboth : (books.settlements.rows.filter fun row =>
      completedDuring startDate endDate row && between startDate endDate row.createdAt) =
      books.settlements.rows.filter fun row =>
        between startDate endDate row.createdAt && completedDuring startDate endDate row := by
    simp only [Bool.and_comm]
  show total _ (books.settlements.rows.filter _) = total _ (books.settlements.rows.filter (completedDuring _ _)) ↔ _
  rw [hcreated, hcompleted, hboth, add_right_inj]
  rfl

theorem chainTotals_sum : ((books.chainTotals startDate endDate).map fun row => row.summary.totalSettledUsd).sum =
    total Settlement.amount (books.completedIn startDate endDate) := by
  rw [← total_groups Settlement.chain, Books.chainTotals, List.map_map]
  rfl

/-- Every settlement has its merchant. -/
theorem withMerchant_fst : ((books.completedIn startDate endDate).filterMap books.withMerchant).map Prod.fst =
    books.completedIn startDate endDate := by
  rw [List.map_filterMap]
  refine (List.filterMap_congr fun row hrow => ?_).trans List.filterMap_some
  obtain ⟨merchant, hmerchant⟩ := Option.isSome_iff_exists.1
    (books.merchantOfSettlement row (List.mem_of_mem_filter hrow))
  rw [Books.withMerchant, hmerchant]
  rfl

theorem merchantTotals_sum :
    ((books.merchantTotals startDate endDate).map fun row => row.summary.totalSettledUsd).sum =
      total Settlement.amount (books.completedIn startDate endDate) := by
  let rows := (books.completedIn startDate endDate).filterMap books.withMerchant
  have hgroups := total_groups (f := fun row => row.1.amount) (fun row => (row.1.merchantId, row.2.name)) rows
  have hrows : total (fun row => row.1.amount) rows = total Settlement.amount (rows.map Prod.fst) := by
    rw [total, total, List.map_map]
    rfl
  rw [Books.merchantTotals, List.map_map]
  exact hgroups.trans (hrows.trans (congrArg (total Settlement.amount) withMerchant_fst))

end

/-- A call of `recordFxGainLoss`. -/
structure FxCall where
  intentId : Id
  asset : String
  chain : String
  gain : ℚ

def FxCall.posting (c : FxCall) : Settlements.Posting := .fxGainLoss c.intentId c.asset c.chain c.gain

/-- The calls that were executed, and when, of a history that starts at a time. -/
def executed (t : Time) : List (FxCall × Settlements.Oracle) → List (FxCall × Settlements.Oracle × Time)
  | [] => []
  | (c, o) :: rest => (if o.Executes then [(c, o, t + o.took)] else []) ++ executed (t + o.took) rest

/-- The row that an executed call appends. -/
def fxRow (c : FxCall × Settlements.Oracle × Time) : LedgerEntry :=
  { id := c.2.1.uuid, intentId := c.1.intentId, entryType := .fxGainLoss, amount := decimal8 |c.1.gain|
    asset := c.1.asset, chain := c.1.chain
    debitAccount := if c.1.gain ≥ 0 then "revenue:fx" else "expense:fx"
    creditAccount := if c.1.gain ≥ 0 then "expense:fx" else "revenue:fx"
    metadata := some [("type", .str (if c.1.gain ≥ 0 then "gain" else "loss"))], createdAt := c.2.2 }

/-- The ledger that a history of calls leaves. -/
def fxLedger (history : List (FxCall × Settlements.Oracle)) : List LedgerEntry :=
  (Runs.exec Settlements.post Settlements.emptyDb (history.map fun c => (c.1.posting, c.2))).ledger

/-- The gains and losses that were recorded in the period. -/
def recordedIn (startDate endDate : Time) (history : List (FxCall × Settlements.Oracle)) :
    List (FxCall × Settlements.Oracle × Time) :=
  (executed 0 history).filter fun c => between startDate endDate c.2.2

theorem post_fx (db : Settlements.Db) (c : FxCall) (o : Settlements.Oracle) :
    (Settlements.post db (c.posting, o)).ledger =
        db.ledger ++ (if o.Executes then [fxRow (c, o, db.clock + o.took)] else []) ∧
      (Settlements.post db (c.posting, o)).clock = db.clock + o.took := by
  obtain ⟨params, htask, hrow⟩ : ∃ params, c.posting.task = Settlements.Task.createEntry params ∧
      ({ params with id := o.uuid, createdAt := (db.tick o).clock, amount := decimal8 params.amount } : LedgerEntry) =
        fxRow (c, o, db.clock + o.took) := by
    refine ⟨_, rfl, ?_⟩
    simp only [fxRow, decide_eq_true_eq]
    rfl
  rw [Settlements.post_eq htask, Settlements.createEntry, Settlements.request_store]
  by_cases ho : o.Executes
  · rw [if_pos ho, if_pos ho, ← hrow]
    exact ⟨rfl, rfl⟩
  · rw [if_neg ho, if_neg ho, List.append_nil]
    exact ⟨rfl, rfl⟩

theorem exec_fx (history : List (FxCall × Settlements.Oracle)) (db : Settlements.Db) :
    (Runs.exec Settlements.post db (history.map fun c => (c.1.posting, c.2))).ledger =
      db.ledger ++ (executed db.clock history).map fxRow := by
  induction history generalizing db with
  | nil => simp [executed]
  | cons c rest ih =>
    obtain ⟨hledger, hclock⟩ := post_fx db c.1 c.2
    rw [List.map_cons, Runs.exec_cons, ih, hledger, hclock, List.append_assoc]
    simp only [executed, List.map_append]
    split <;> rfl

theorem fxLedger_eq (history : List (FxCall × Settlements.Oracle)) :
    fxLedger history = (executed 0 history).map fxRow :=
  exec_fx history Settlements.emptyDb

/-- A report agrees with itself and with what was recorded. -/
structure FxAgrees (report : FinancialReport) (recorded : List (FxCall × Settlements.Oracle × Time)) : Prop where
  sum : (report.fxGainLossDetails.map (·.gainLoss)).sum = report.summary.netFxImpactUsd
  net : report.summary.netFxImpactUsd = report.summary.totalFxGainUsd - report.summary.totalFxLossUsd
  impact : report.summary.netFxImpactUsd = (recorded.map (·.1.gain)).sum
  signed : report.fxGainLossDetails.map (fun d => (d.intentId, d.gainLoss)) =
    recorded.map fun c => (c.1.intentId, c.1.gain)

section
variable {books : Books} {startDate endDate : Time} {history : List (FxCall × Settlements.Oracle)}

theorem fxEntries_eq (startDate endDate : Time) (hledger : books.ledger = fxLedger history) :
    books.fxEntries startDate endDate = (recordedIn startDate endDate history).map fxRow := by
  rw [Books.fxEntries, Books.entriesIn, hledger, fxLedger_eq, List.filter_map, recordedIn]
  refine congrArg (List.map fxRow) (List.filter_congr fun c _ => ?_)
  simp [fxRow]

theorem amount_of_zero {c : FxCall × Settlements.Oracle × Time} (h : c.1.gain = 0) : (fxRow c).amount = 0 := by
  have hzero := decimal8_units 0
  simpa [fxRow, h] using hzero

/-- Zeros that were recorded add nothing. -/
theorem total_of_zeros (hledger : books.ledger = fxLedger history)
    (hzero : ∀ c ∈ recordedIn startDate endDate history, c.1.gain = 0) (account : String) :
    total (fun entry => if entry.debitAccount = account then entry.amount else 0) (books.fxEntries startDate endDate) =
      0 := by
  rw [fxEntries_eq startDate endDate hledger]
  refine total_zero_of_forall fun entry hentry => ?_
  obtain ⟨c, hc, rfl⟩ := List.mem_map.1 hentry
  rw [amount_of_zero (hzero c hc), ite_self]

/-- **When the details agree with the summary**: only if nothing but zeros was recorded in the period. -/
theorem fx_agree_iff {ω : Nat → Oracle} {n m : Nat} {db db' : Db} {period : ReconciliationPeriod}
    {report : FinancialReport} (hledger : db.books.ledger = fxLedger history)
    (h : (generateFinancialReport period startDate endDate).run handle ω n db = (.ok report, m, db')) :
    FxAgrees report (recordedIn startDate endDate history) ↔
      ∀ c ∈ recordedIn startDate endDate history, c.1.gain = 0 := by
  have hsaid := (generateFinancialReport_ok h).1
  have hentries := fxEntries_eq startDate endDate hledger
  have hdetails : report.fxGainLossDetails.map (fun d => (d.intentId, d.gainLoss)) =
      (recordedIn startDate endDate history).map fun c => (c.1.intentId, 0) := by
    have hmap := congrArg (List.map fun d => (d.1, d.2.2.2)) hsaid.details
    rw [hentries, List.map_map, List.map_map, List.map_map] at hmap
    exact hmap
  constructor
  · rintro ⟨-, -, -, hsigned⟩ c hc
    have hzero := List.map_inj_left.1 (hdetails.symm.trans hsigned) c hc
    exact (congrArg Prod.snd hzero).symm
  · intro hzero
    have hgains : report.summary.totalFxGainUsd = 0 := by
      rw [hsaid.summary]
      exact total_of_zeros hledger hzero "revenue:fx"
    have hlosses : report.summary.totalFxLossUsd = 0 := by
      rw [hsaid.summary]
      exact total_of_zeros hledger hzero "expense:fx"
    have hnet : report.summary.netFxImpactUsd = report.summary.totalFxGainUsd - report.summary.totalFxLossUsd := by
      rw [hsaid.summary]
      rfl
    have himpact : report.summary.netFxImpactUsd = 0 := by rw [hnet, hgains, hlosses, sub_zero]
    have hrecorded : (recordedIn startDate endDate history).map (·.1.gain) =
        (recordedIn startDate endDate history).map fun _ => 0 := List.map_congr_left hzero
    have hsigned : report.fxGainLossDetails.map (fun d => (d.intentId, d.gainLoss)) =
        (recordedIn startDate endDate history).map fun c => (c.1.intentId, c.1.gain) :=
      hdetails.trans (List.map_congr_left fun c hc => by rw [hzero c hc])
    have hzeros : ((recordedIn startDate endDate history).map fun _ => (0 : ℚ)).sum = 0 := by simp
    have hgainLoss := congrArg (List.map Prod.snd) hdetails
    rw [List.map_map, List.map_map] at hgainLoss
    refine ⟨?_, hnet, ?_, hsigned⟩
    · rw [himpact]
      exact (congrArg List.sum hgainLoss).trans hzeros
    · rw [himpact, hrecorded, hzeros]

end

/-- A gain of five, at the tenth. -/
def oneGain : List (FxCall × Settlements.Oracle) := [(⟨"pi", "USDC", "ethereum", 5⟩, { took := 10 })]

/-- The books in which it was recorded. -/
def gainBooks : Books := orderBooks .empty (fxLedger oneGain) fun _ h => absurd h List.not_mem_nil

theorem fx_agree_iff_gain : ∃ report, IsReport gainBooks 0 20 report ∧
    (FxAgrees report (recordedIn 0 20 oneGain) ↔ ∀ c ∈ recordedIn 0 20 oneGain, c.1.gain = 0) := by
  obtain ⟨report, _, _, hrun⟩ := exists_report gainBooks .daily 0 20
  exact ⟨report, ⟨_, _, hrun⟩, fx_agree_iff rfl hrun⟩

/-- The summary counts the gain, and the details say 0. -/
theorem gain_lost : ∃ report, IsReport gainBooks 0 20 report ∧ report.summary.netFxImpactUsd = 5 ∧
    report.fxGainLossDetails.map (·.gainLoss) = [0] ∧ ¬ FxAgrees report (recordedIn 0 20 oneGain) := by
  obtain ⟨report, _, _, hrun⟩ := exists_report gainBooks .daily 0 20
  have hsaid := (generateFinancialReport_ok hrun).1
  have himpact : report.summary.netFxImpactUsd = 5 := by
    rw [hsaid.summary]
    decide +kernel
  have hdetails : report.fxGainLossDetails.map (·.gainLoss) = [0] := by
    have hmap := congrArg (List.map fun d => d.2.2.2) hsaid.details
    rw [List.map_map] at hmap
    exact hmap.trans (by decide +kernel)
  refine ⟨report, ⟨_, _, hrun⟩, himpact, hdetails, fun h => ?_⟩
  have hsum := h.sum
  rw [hdetails, himpact] at hsum
  exact absurd hsum (by decide +kernel)

end NexoraGateway.Reconciliation
