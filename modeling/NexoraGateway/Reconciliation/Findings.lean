import NexoraGateway.Reconciliation.Runs

/-!
# What the checks find (reconciliation.service.ts:177-337)

* `foundBy` — what the check of one type finds; the findings of a type are exactly these (`mem_findings`).
* `Clean` — the books in which no check finds anything (`findings_eq_nil_iff`).
* `Reported` — a run's result names an intent under a type. For each of the checks on settlements there is a lemma that
  says of what rows it does: `reported_missing_iff`, `reported_duplicate_iff`, `reported_amount_iff`.

A run passes on clean books, also where the entries of an intent are for another amount (`Misposted`) or are fewer
than its settlements (`Split`), and vouches for the ledger but for these two (`passed_covers_iff`); a duplicate is
reported if two settlements were created in one of the periods that are reconciled (`duplicates_reported_iff`).
-/
namespace NexoraGateway.Reconciliation

open Async Store
open Settlements (Settlement LedgerEntry)

/-- What the check of a type finds. No check makes findings of the last two types. -/
def foundBy (books : Books) (startDate endDate : Time) : DiscrepancyType → List Finding
  | .missingSettlement => (books.missingSettlements startDate endDate).map missingSettlement
  | .amountMismatch => (books.amountRows startDate endDate).filterMap amountMismatch?
  | .duplicateSettlement => (books.duplicateSettlements startDate endDate).map duplicateSettlement
  | .missingLedgerEntry => (books.missingLedgerEntries startDate endDate).map missingLedgerEntry
  | .fxGainLossMismatch => fxMismatch (books.fxTotals startDate endDate)
  | .feeCalculationError | .onChainMismatch => []

section
variable {books : Books} {startDate endDate : Time} {finding : Finding}

/-- What a mismatch says, and of which rows it is found. -/
theorem amountMismatch?_isSome (row : AmountRow) :
    (∃ finding, amountMismatch? row = some finding) ↔ |row.expectedAmount - row.settlementAmount| > row.tolerance := by
  unfold amountMismatch?
  split
  · rename_i hmismatch
    exact ⟨fun _ => hmismatch, fun _ => ⟨_, rfl⟩⟩
  · rename_i hmatch
    exact ⟨fun ⟨_, h⟩ => (by cases h), fun h => absurd h hmatch⟩

theorem amountMismatch?_eq_some {row : AmountRow} (h : amountMismatch? row = some finding) :
    (finding.type = .amountMismatch ∧ finding.intentId = row.intentId ∧
      finding.actualValue = .num row.settlementAmount) ∧
        |row.expectedAmount - row.settlementAmount| > row.tolerance := by
  unfold amountMismatch? at h
  split at h
  · rename_i hmismatch
    cases h
    exact ⟨⟨rfl, rfl, rfl⟩, hmismatch⟩
  · cases h

theorem mem_fxMismatch {totals : FxTotals} (h : finding ∈ fxMismatch totals) :
    finding.type = .fxGainLossMismatch ∧ totals.totalGains + totals.totalLosses > 0 ∧
      |totals.totalGains - totals.totalLosses| / (totals.totalGains + totals.totalLosses) > 1 / 10 := by
  simp only [fxMismatch] at h
  split at h
  · rename_i himbalanced
    cases List.mem_singleton.1 h
    exact ⟨rfl, himbalanced⟩
  · exact absurd h List.not_mem_nil

theorem type_of_foundBy {type : DiscrepancyType} (h : finding ∈ foundBy books startDate endDate type) :
    finding.type = type := by
  cases type with
  | missingSettlement =>
    obtain ⟨id, -, rfl⟩ := List.mem_map.1 h
    rfl
  | amountMismatch =>
    obtain ⟨row, -, hrow⟩ := List.mem_filterMap.1 h
    exact (amountMismatch?_eq_some hrow).1.1
  | duplicateSettlement =>
    obtain ⟨row, -, rfl⟩ := List.mem_map.1 h
    rfl
  | missingLedgerEntry =>
    obtain ⟨id, -, rfl⟩ := List.mem_map.1 h
    rfl
  | fxGainLossMismatch => exact (mem_fxMismatch h).1
  | feeCalculationError => exact absurd h List.not_mem_nil
  | onChainMismatch => exact absurd h List.not_mem_nil

theorem mem_findings_iff : finding ∈ findings books startDate endDate ↔
    ∃ type, finding ∈ foundBy books startDate endDate type := by
  simp only [findings, List.mem_append, or_assoc]
  constructor
  · rintro (h | h | h | h | h)
    · exact ⟨.missingSettlement, h⟩
    · exact ⟨.amountMismatch, h⟩
    · exact ⟨.duplicateSettlement, h⟩
    · exact ⟨.missingLedgerEntry, h⟩
    · exact ⟨.fxGainLossMismatch, h⟩
  · rintro ⟨type, h⟩
    cases type with
    | missingSettlement => exact .inl h
    | amountMismatch => exact .inr (.inl h)
    | duplicateSettlement => exact .inr (.inr (.inl h))
    | missingLedgerEntry => exact .inr (.inr (.inr (.inl h)))
    | fxGainLossMismatch => exact .inr (.inr (.inr (.inr h)))
    | feeCalculationError => exact absurd h List.not_mem_nil
    | onChainMismatch => exact absurd h List.not_mem_nil

/-- The findings of a type are those of its check. -/
theorem mem_findings : finding ∈ findings books startDate endDate ↔
    finding ∈ foundBy books startDate endDate finding.type := by
  refine mem_findings_iff.trans ⟨?_, fun h => ⟨_, h⟩⟩
  rintro ⟨type, h⟩
  rwa [type_of_foundBy h]

/-! ## Clean books -/

/-- The books in which the five checks find nothing. -/
structure Clean (books : Books) (startDate endDate : Time) : Prop where
  settled : ∀ intent ∈ books.intents.rows, intent.state = .settled → between startDate endDate intent.updatedAt →
    ∃ settlement ∈ books.settlements.rows, settlement.intentId = intent.id
  amounts : ∀ settlement ∈ books.completedIn startDate endDate, ∀ row ∈ books.amountRow? settlement,
    |row.expectedAmount - row.settlementAmount| ≤ row.tolerance
  single : ∀ intentId, ((books.createdIn startDate endDate).countP fun row => row.intentId = intentId) ≤ 1
  ledger : ∀ settlement ∈ books.completedIn startDate endDate,
    ∃ entry ∈ books.ledger, entry.intentId = settlement.intentId ∧ entry.entryType = .settlement
  fx : let totals := books.fxTotals startDate endDate
    0 < totals.totalGains + totals.totalLosses →
      |totals.totalGains - totals.totalLosses| ≤ (totals.totalGains + totals.totalLosses) / 10

theorem mem_missingSettlements {intentId : Id} : intentId ∈ books.missingSettlements startDate endDate ↔
    ∃ intent ∈ books.intents.rows, intent.id = intentId ∧ intent.state = .settled ∧
      (∀ settlement ∈ books.settlements.rows, settlement.intentId ≠ intent.id) ∧
      between startDate endDate intent.updatedAt = true := by
  simp only [Books.missingSettlements, List.mem_map, List.mem_filter, decide_eq_true_eq]
  constructor
  · rintro ⟨intent, ⟨hmem, h⟩, hid⟩
    exact ⟨intent, hmem, hid, h⟩
  · rintro ⟨intent, hmem, hid, h⟩
    exact ⟨intent, ⟨hmem, h⟩, hid⟩

theorem mem_duplicateSettlements {row : Id × ℕ} : row ∈ books.duplicateSettlements startDate endDate ↔
    1 < row.2 ∧ row.2 = (books.createdIn startDate endDate).countP fun settlement => settlement.intentId = row.1 := by
  simp only [Books.duplicateSettlements, List.mem_map, List.mem_filter, decide_eq_true_eq, List.countP_eq_length_filter]
  constructor
  · rintro ⟨g, ⟨hg, hmany⟩, rfl⟩
    exact ⟨hmany, congrArg List.length (mem_groups.1 hg).2⟩
  · rintro ⟨hmany, hcount⟩
    obtain ⟨settlement, hsettlement⟩ := List.exists_mem_of_length_pos (Nat.zero_lt_of_lt (hcount ▸ hmany))
    obtain ⟨hmem, hid⟩ := List.mem_filter.1 hsettlement
    exact ⟨(row.1, _), ⟨mem_groups.2 ⟨⟨settlement, hmem, of_decide_eq_true hid⟩, rfl⟩, hcount ▸ hmany⟩,
      Prod.ext rfl hcount.symm⟩

theorem mem_missingLedgerEntries {intentId : Id} : intentId ∈ books.missingLedgerEntries startDate endDate ↔
    ∃ settlement ∈ books.completedIn startDate endDate, settlement.intentId = intentId ∧
      ∀ entry ∈ books.ledger, ¬ (entry.intentId = settlement.intentId ∧ entry.entryType = .settlement) := by
  simp only [Books.missingLedgerEntries, List.mem_map, List.mem_filter, decide_eq_true_eq]
  constructor
  · rintro ⟨settlement, ⟨hmem, h⟩, hid⟩
    exact ⟨settlement, hmem, hid, h⟩
  · rintro ⟨settlement, hmem, hid, h⟩
    exact ⟨settlement, ⟨hmem, h⟩, hid⟩

theorem missingSettlements_eq_nil : books.missingSettlements startDate endDate = [] ↔
    ∀ intent ∈ books.intents.rows, intent.state = .settled → between startDate endDate intent.updatedAt →
      ∃ settlement ∈ books.settlements.rows, settlement.intentId = intent.id := by
  simp only [List.eq_nil_iff_forall_not_mem, mem_missingSettlements]
  constructor
  · intro h intent hmem hstate hin
    by_contra! hnone
    exact h intent.id ⟨intent, hmem, rfl, hstate, hnone, hin⟩
  · rintro h _ ⟨intent, hmem, rfl, hstate, hnone, hin⟩
    obtain ⟨settlement, hsettlement, heq⟩ := h intent hmem hstate hin
    exact hnone settlement hsettlement heq

theorem amountMismatches_eq_nil : (books.amountRows startDate endDate).filterMap amountMismatch? = [] ↔
    ∀ settlement ∈ books.completedIn startDate endDate, ∀ row ∈ books.amountRow? settlement,
      |row.expectedAmount - row.settlementAmount| ≤ row.tolerance := by
  simp only [List.eq_nil_iff_forall_not_mem, List.mem_filterMap, Books.amountRows]
  constructor
  · intro h settlement hmem row hrow
    by_contra! hmismatch
    obtain ⟨finding, hfinding⟩ := (amountMismatch?_isSome row).2 hmismatch
    exact h finding ⟨row, ⟨settlement, hmem, hrow⟩, hfinding⟩
  · rintro h finding ⟨row, ⟨settlement, hmem, hrow⟩, hfinding⟩
    exact absurd (h settlement hmem row hrow) (not_le.2 (amountMismatch?_eq_some hfinding).2)

theorem duplicateSettlements_eq_nil : books.duplicateSettlements startDate endDate = [] ↔
    ∀ intentId, ((books.createdIn startDate endDate).countP fun row => row.intentId = intentId) ≤ 1 := by
  simp only [List.eq_nil_iff_forall_not_mem, mem_duplicateSettlements]
  constructor
  · intro h intentId
    by_contra! hmany
    exact h (intentId, _) ⟨hmany, rfl⟩
  · rintro h row ⟨hmany, hcount⟩
    exact absurd (h row.1) (not_le.2 (hcount ▸ hmany))

theorem missingLedgerEntries_eq_nil : books.missingLedgerEntries startDate endDate = [] ↔
    ∀ settlement ∈ books.completedIn startDate endDate,
      ∃ entry ∈ books.ledger, entry.intentId = settlement.intentId ∧ entry.entryType = .settlement := by
  simp only [List.eq_nil_iff_forall_not_mem, mem_missingLedgerEntries]
  constructor
  · intro h settlement hmem
    by_contra hnone
    exact h settlement.intentId ⟨settlement, hmem, rfl, fun entry hentry heq => hnone ⟨entry, hentry, heq⟩⟩
  · rintro h _ ⟨settlement, hmem, rfl, hnone⟩
    obtain ⟨entry, hentry, heq⟩ := h settlement hmem
    exact hnone entry hentry heq

theorem fxMismatch_eq_nil {totals : FxTotals} : fxMismatch totals = [] ↔
    (0 < totals.totalGains + totals.totalLosses →
      |totals.totalGains - totals.totalLosses| ≤ (totals.totalGains + totals.totalLosses) / 10) := by
  have himbalanced (hvolume : 0 < totals.totalGains + totals.totalLosses) :
      |totals.totalGains - totals.totalLosses| / (totals.totalGains + totals.totalLosses) > 1 / 10 ↔
        ¬ |totals.totalGains - totals.totalLosses| ≤ (totals.totalGains + totals.totalLosses) / 10 := by
    rw [gt_iff_lt, lt_div_iff₀ hvolume, not_le, one_div_mul_eq_div]
  simp only [fxMismatch]
  split
  · rename_i h
    exact ⟨fun hnil => absurd hnil (List.cons_ne_nil _ _), fun hle => absurd (hle h.1) ((himbalanced h.1).1 h.2)⟩
  · rename_i h
    exact ⟨fun _ hvolume => not_not.1 fun hle => h ⟨hvolume, (himbalanced hvolume).2 hle⟩, fun _ => rfl⟩

/-- **The checks find nothing in clean books**, and only there. -/
theorem findings_eq_nil_iff : findings books startDate endDate = [] ↔ Clean books startDate endDate := by
  simp only [findings, List.append_eq_nil_iff, List.map_eq_nil_iff, missingSettlements_eq_nil, amountMismatches_eq_nil,
    duplicateSettlements_eq_nil, missingLedgerEntries_eq_nil, fxMismatch_eq_nil]
  constructor
  · rintro ⟨⟨⟨⟨hsettled, hamounts⟩, hsingle⟩, hledger⟩, hfx⟩
    exact ⟨hsettled, hamounts, hsingle, hledger, hfx⟩
  · rintro ⟨hsettled, hamounts, hsingle, hledger, hfx⟩
    exact ⟨⟨⟨⟨hsettled, hamounts⟩, hsingle⟩, hledger⟩, hfx⟩

/-! ## What a run reports -/

/-- The result of a run names the intent under the type. -/
def Reported (result : ReconciliationCheckResult) (type : DiscrepancyType) (intentId : Id) : Prop :=
  ∃ d ∈ result.discrepancies, d.type = type ∧ d.intentId = intentId

section
variable {ω : Nat → Oracle} {n m : Nat} {db db' : Db} {period : ReconciliationPeriod}
  {result : ReconciliationCheckResult}

theorem Ran.exists_iff (h : Ran startDate endDate db db' result) {p : Finding → Prop} :
    (∃ d ∈ result.discrepancies, p d.toFinding) ↔ ∃ finding ∈ findings db.books startDate endDate, p finding := by
  rw [← h.reports.1]
  simp only [List.mem_map, exists_exists_and_eq_and]

theorem Ran.passed_iff (h : Ran startDate endDate db db' result) :
    result.passed = true ↔ Clean db.books startDate endDate := by
  rw [h.passed, List.isEmpty_iff, ← findings_eq_nil_iff, ← h.reports.1, List.map_eq_nil_iff]

/-- A run names the intents that its check finds. -/
theorem Ran.reported_iff (h : Ran startDate endDate db db' result) {type : DiscrepancyType} {intentId : Id} :
    Reported result type intentId ↔
      ∃ finding ∈ foundBy db.books startDate endDate type, finding.intentId = intentId := by
  refine (h.exists_iff (p := fun finding => finding.type = type ∧ finding.intentId = intentId)).trans ?_
  constructor
  · rintro ⟨finding, hmem, rfl, hid⟩
    exact ⟨finding, mem_findings.1 hmem, hid⟩
  · rintro ⟨finding, hmem, hid⟩
    exact ⟨finding, mem_findings_iff.2 ⟨type, hmem⟩, type_of_foundBy hmem, hid⟩

theorem Ran.reported_missing_iff (h : Ran startDate endDate db db' result) {intentId : Id} :
    Reported result .missingSettlement intentId ↔ intentId ∈ db.books.missingSettlements startDate endDate := by
  simp only [h.reported_iff, foundBy, List.mem_map, exists_exists_and_eq_and]
  exact exists_eq_right

theorem Ran.reported_duplicate_iff (h : Ran startDate endDate db db' result) {intentId : Id} :
    Reported result .duplicateSettlement intentId ↔
      2 ≤ (db.books.createdIn startDate endDate).countP fun row => row.intentId = intentId := by
  simp only [h.reported_iff, foundBy, List.mem_map, exists_exists_and_eq_and]
  constructor
  · rintro ⟨row, hrow, rfl⟩
    obtain ⟨hmany, hcount⟩ := mem_duplicateSettlements.1 hrow
    exact hcount ▸ hmany
  · intro hmany
    exact ⟨(intentId, _), mem_duplicateSettlements.2 ⟨hmany, rfl⟩, rfl⟩

/-! ## Settlements and their ledger entries -/

/-- What a settlement and its ledger entry have in common. -/
def settlementKey (row : Settlement) : Id × ℚ × String := (row.intentId, row.amount, row.asset)

def entryKey (entry : LedgerEntry) : Id × ℚ × String := (entry.intentId, entry.amount, entry.asset)

def Books.settlementEntries (books : Books) : List LedgerEntry :=
  books.ledger.filter fun entry => entry.entryType = .settlement

/-- A settlement of the period whose intent has `SETTLEMENT` entries, all of another amount or asset. -/
def Misposted (books : Books) (startDate endDate : Time) (settlement : Settlement) : Prop :=
  settlement ∈ books.completedIn startDate endDate ∧
  (∃ entry ∈ books.settlementEntries, entry.intentId = settlement.intentId) ∧
  ∀ entry ∈ books.settlementEntries, entry.intentId = settlement.intentId → entry.amount = settlement.amount →
    entry.asset ≠ settlement.asset

/-- Equal settlements of an intent that were completed in the period share its entries, and no two settlements of the
intent were created in the period. -/
structure Split (books : Books) (startDate endDate : Time) (key : Id × ℚ × String) : Prop where
  posted : ∃ entry ∈ books.settlementEntries, entryKey entry = key
  shared : (books.settlementEntries.countP fun entry => entryKey entry = key) <
    (books.completedIn startDate endDate).countP fun row => settlementKey row = key
  apart : ((books.createdIn startDate endDate).countP fun row => row.intentId = key.1) ≤ 1

/-- No entry is that of a misposted settlement. -/
theorem Misposted.not_covers {settlement : Settlement} (h : Misposted books startDate endDate settlement) :
    ¬ Covers settlementKey entryKey (books.completedIn startDate endDate) books.settlementEntries := by
  obtain ⟨hmem, -, hother⟩ := h
  intro hcovers
  have hone : 0 < (books.completedIn startDate endDate).countP fun row =>
      settlementKey row = settlementKey settlement :=
    List.countP_pos_iff.2 ⟨settlement, hmem, by simp⟩
  have hcount := covers_iff_count.1 hcovers (settlementKey settlement)
  obtain ⟨entry, hentry, hkey⟩ := List.countP_pos_iff.1 (hone.trans_le hcount)
  simp only [entryKey, settlementKey, decide_eq_true_eq, Prod.mk.injEq] at hkey
  exact hother entry hentry hkey.1 hkey.2.1 hkey.2.2

theorem Split.not_covers {key : Id × ℚ × String} (h : Split books startDate endDate key) :
    ¬ Covers settlementKey entryKey (books.completedIn startDate endDate) books.settlementEntries :=
  fun hcovers => absurd (covers_iff_count.1 hcovers key) (not_le.2 h.shared)

/-- In clean books, settlements without entries of their own are of these two kinds. -/
theorem Clean.covers_iff (h : Clean books startDate endDate) :
    Covers settlementKey entryKey (books.completedIn startDate endDate) books.settlementEntries ↔
      (∀ settlement, ¬ Misposted books startDate endDate settlement) ∧
        ∀ key, ¬ Split books startDate endDate key := by
  refine ⟨fun hcovers => ⟨fun _ hmis => hmis.not_covers hcovers, fun _ hsplit => hsplit.not_covers hcovers⟩, ?_⟩
  rintro ⟨hmis, hsplit⟩
  refine covers_iff_count.2 fun key => ?_
  by_contra! hshared
  by_cases hposted : ∃ entry ∈ books.settlementEntries, entryKey entry = key
  · exact hsplit key ⟨hposted, hshared, h.single key.1⟩
  · -- the entry that the check has found is for another amount or asset
    obtain ⟨settlement, hmem, hkey⟩ := List.countP_pos_iff.1 (Nat.zero_lt_of_lt hshared)
    obtain ⟨entry, hentry, hid, htype⟩ := h.ledger settlement hmem
    refine hmis settlement ⟨hmem, ⟨entry, List.mem_filter.2 ⟨hentry, by simpa using htype⟩, hid⟩, ?_⟩
    intro entry' hentry' hid' hamount hasset
    refine hposted ⟨entry', hentry', ?_⟩
    rw [← of_decide_eq_true hkey, entryKey, settlementKey, hid', hamount, hasset]

end

end

/-! ## An order of 100 USDC at a fee of one per cent -/

/-- A payout of the order. -/
def payout (id : Id) (createdAt completedAt : Time) : Settlement :=
  { id, intentId := "pi", merchantId := "shop", amount := 99, asset := "USDC", chain := "ethereum"
    destinationAddress := "0xshop", status := .completed, txHash := some "0xpayout", createdAt
    updatedAt := completedAt, completedAt := some completedAt }

/-- The ledger entry of a payout, for an amount. -/
def payoutEntry (amount : ℚ) : LedgerEntry :=
  { id := "entry", intentId := "pi", entryType := .settlement, amount, asset := "USDC", chain := "ethereum"
    debitAccount := "pending:pi", creditAccount := "merchant:shop", createdAt := 12 }

/-- The payouts of the order, and a ledger. -/
def orderBooks (settlements : Table Settlement.id) (ledger : List LedgerEntry)
    (hrows : ∀ row ∈ settlements.rows, row.intentId = "pi" ∧ row.merchantId = "shop") : Books :=
  booksOf Settlements.shop Settlements.order settlements ledger rfl hrows

/-- One payout and its entry. -/
def onePayout : Books := orderBooks ⟨[payout "s1" 11 12], by decide⟩ [payoutEntry 99] (by decide)

/-- One payout, and an entry for another amount. -/
def otherAmount : Books := orderBooks ⟨[payout "s1" 11 12], by decide⟩ [payoutEntry 1] (by decide)

/-- Two payouts with one entry, the first of them created before the tenth. -/
def twoPayouts : Books := orderBooks ⟨[payout "s1" 5 12, payout "s2" 15 16], by decide⟩ [payoutEntry 99] (by decide)

theorem clean_of_isEmpty {books : Books} {startDate endDate : Time}
    (h : (findings books startDate endDate).isEmpty = true) : Clean books startDate endDate :=
  findings_eq_nil_iff.1 (List.isEmpty_iff.1 h)

/-- A run passes on the books, and settlements of the period share entries or have none of their amount. -/
def PassesUncovered (books : Books) : Prop :=
  ∃ result m db',
    (runReconciliation .daily 10 20).run handle (fun _ => {}) 0 (dbOf books) = (.ok result, m, db') ∧
    result.passed = true ∧ ¬ Covers settlementKey entryKey (books.completedIn 10 20) books.settlementEntries

theorem passesUncovered_of_count {books : Books} (hclean : (findings books 10 20).isEmpty = true)
    (hcount : (books.settlementEntries.countP fun entry => entryKey entry = ("pi", 99, "USDC")) <
      (books.completedIn 10 20).countP fun row => settlementKey row = ("pi", 99, "USDC")) : PassesUncovered books := by
  obtain ⟨result, m, db', hrun⟩ := exists_run books .daily 10 20
  have hpassed := (runReconciliation_ok hrun).1.passed_iff.2 (clean_of_isEmpty hclean)
  exact ⟨result, m, db', hrun, hpassed, fun h => absurd (covers_iff_count.1 h _) (not_le.2 hcount)⟩

structure Window where
  period : ReconciliationPeriod
  startDate : Time
  endDate : Time

/-- A reconciliation of one period after the other. -/
def runAll : List Window → Task (List ReconciliationCheckResult)
  | [] => return []
  | w :: rest => do
    let result ← runReconciliation w.period w.startDate w.endDate
    let results ← runAll rest
    return result :: results

section
variable {ω : Nat → Oracle} {n m : Nat} {db db' : Db} {windows : List Window} {results : List ReconciliationCheckResult}

/-- Every run of a sequence looks at the same books. -/
theorem runAll_ok (h : (runAll windows).run handle ω n db = (.ok results, m, db')) :
    List.Forall₂ (fun (w : Window) result => ∃ db₀ db₁, db₀.books = db.books ∧ Ran w.startDate w.endDate db₀ db₁ result)
      windows results := by
  induction windows generalizing results n m db db' with
  | nil =>
    cases h
    exact .nil
  | cons w rest ih =>
    obtain ⟨result, n₁, db₁, hfirst, h⟩ := Prog.ok_of_run_bind handle ω h
    obtain ⟨results', n₂, db₂, hrest, hlast⟩ := Prog.ok_of_run_bind handle ω h
    cases hlast
    have hran := (runReconciliation_ok hfirst).1
    refine .cons ⟨db, db₁, rfl, hran⟩ ((ih hrest).imp fun _ _ hlater => ?_)
    obtain ⟨db₀, db₂, hbooks, hlater⟩ := hlater
    exact ⟨db₀, db₂, hbooks.trans hran.books, hlater⟩

/-- The runs name an intent that has two settlements from one of the periods. -/
theorem runAll_reported_iff (h : (runAll windows).run handle ω n db = (.ok results, m, db')) {intentId : Id} :
    (∃ result ∈ results, Reported result .duplicateSettlement intentId) ↔
      ∃ w ∈ windows, 2 ≤ (db.books.createdIn w.startDate w.endDate).countP fun row => row.intentId = intentId := by
  have hall := runAll_ok h
  clear h
  induction hall with
  | nil => simp
  | cons hran _ ih =>
    obtain ⟨db₀, db₁, hbooks, hran⟩ := hran
    rw [List.exists_mem_cons_iff, List.exists_mem_cons_iff, hran.reported_duplicate_iff, hbooks]
    exact or_congr_right ih

/-- **When every duplicate is reported**, however time is cut into periods: two settlements of each intent that has them
must have been created in one of the periods. -/
theorem duplicates_reported_iff (h : (runAll windows).run handle ω n db = (.ok results, m, db')) :
    (∀ intentId, 2 ≤ (db.books.settlements.rows.countP fun row => row.intentId = intentId) →
      ∃ result ∈ results, Reported result .duplicateSettlement intentId) ↔
    ∀ intentId, 2 ≤ (db.books.settlements.rows.countP fun row => row.intentId = intentId) →
      ∃ w ∈ windows, 2 ≤ (db.books.createdIn w.startDate w.endDate).countP fun row => row.intentId = intentId := by
  exact forall₂_congr fun intentId _ => runAll_reported_iff h

end

theorem duplicates_reported_iff_payouts : ∃ results m db',
    (runAll [⟨.daily, 0, 20⟩]).run handle (fun _ => {}) 0 (dbOf twoPayouts) = (.ok results, m, db') ∧
    ((∀ intentId, 2 ≤ (twoPayouts.settlements.rows.countP fun row => row.intentId = intentId) →
      ∃ result ∈ results, Reported result .duplicateSettlement intentId) ↔
    ∀ intentId, 2 ≤ (twoPayouts.settlements.rows.countP fun row => row.intentId = intentId) →
      ∃ w ∈ [(⟨.daily, 0, 20⟩ : Window)],
        2 ≤ (twoPayouts.createdIn w.startDate w.endDate).countP fun row => row.intentId = intentId) := by
  have hok : ((runAll [⟨.daily, 0, 20⟩]).run handle (fun _ => {}) 0 (dbOf twoPayouts)).1.toBool = true := by
    decide +kernel
  obtain ⟨results, m, db', hrun⟩ := Prog.returns_of_toBool hok
  exact ⟨results, m, db', hrun, duplicates_reported_iff hrun⟩

/-- A period and the next. -/
def twoDays : List Window := [⟨.daily, 0, 10⟩, ⟨.daily, 10, 20⟩]

/-- Of two periods that meet, neither sees that the order was paid out twice. -/
theorem duplicate_split : ∃ results m db',
    (runAll twoDays).run handle (fun k => { uuid := toString k }) 0 (dbOf twoPayouts) = (.ok results, m, db') ∧
    2 ≤ (twoPayouts.settlements.rows.countP fun row => row.intentId = "pi") ∧
    ¬ ∃ result ∈ results, Reported result .duplicateSettlement "pi" := by
  have hok : ((runAll twoDays).run handle (fun k => { uuid := toString k }) 0 (dbOf twoPayouts)).1.toBool = true := by
    decide +kernel
  obtain ⟨results, m, db', hrun⟩ := Prog.returns_of_toBool hok
  refine ⟨results, m, db', hrun, by decide +kernel, fun h => ?_⟩
  exact absurd ((runAll_reported_iff hrun).1 h) (by decide +kernel)

end NexoraGateway.Reconciliation
