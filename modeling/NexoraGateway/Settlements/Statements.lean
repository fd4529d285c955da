import Mathlib.Data.List.Sort
import NexoraGateway.Settlements.Ledger
import NexoraGateway.Store.Aggregates

/-!
# Statements of an account (`settlement/src/ledger.service.ts`, `settlement/src/ledger.repository.ts`)

`getStatement` adds up the entries of a period in a loop, `getBalance` adds up those in an asset in a query. The
period includes both its ends, so the statements of two periods that meet in an instant both list what is stamped then.

* `getStatement`, `findByAccount` — ledger.service.ts:194, ledger.repository.ts:80.
* `statements_overlap` — what two such statements have to do with that of the whole period, and with the balance.
-/
namespace NexoraGateway.Settlements

open Store

/-- `LedgerStatement` (ledger.service.ts:55). -/
structure LedgerStatement where
  accountId : String
  startDate : Time
  endDate : Time
  entries : List LedgerEntry
  totalDebits : ℚ
  totalCredits : ℚ
  closingBalance : ℚ

/-- The entry is one of the account. -/
def LedgerEntry.Names (accountId : String) (entry : LedgerEntry) : Prop :=
  entry.debitAccount = accountId ∨ entry.creditAccount = accountId

instance (accountId : String) (entry : LedgerEntry) : Decidable (entry.Names accountId) :=
  inferInstanceAs (Decidable (_ ∨ _))

/-- `findByAccount` (ledger.repository.ts:80). -/
def findByAccount (ledger : List LedgerEntry) (accountId : String) (startDate endDate : Time) : List LedgerEntry :=
  (ledger.filter fun row => row.Names accountId ∧ between startDate endDate row.createdAt = true).insertionSort
    fun row row' => row.createdAt ≤ row'.createdAt

/-- The loop of `getStatement` (:204), on `totalDebits` and `totalCredits`. -/
def addEntry (accountId : String) (totals : ℚ × ℚ) (entry : LedgerEntry) : ℚ × ℚ :=
  (if entry.debitAccount = accountId then totals.1 + entry.amount else totals.1,
    if entry.creditAccount = accountId then totals.2 + entry.amount else totals.2)

/-- `getStatement` (ledger.service.ts:194). -/
def getStatement (ledger : List LedgerEntry) (accountId : String) (startDate endDate : Time) : LedgerStatement :=
  let entries := findByAccount ledger accountId startDate endDate
  let totals := entries.foldl (addEntry accountId) (0, 0)
  { accountId, startDate, endDate, entries, totalDebits := totals.1, totalCredits := totals.2
    closingBalance := totals.1 - totals.2 }

section
variable (accountId : String)

def LedgerEntry.debitOf (entry : LedgerEntry) : ℚ := if entry.debitAccount = accountId then entry.amount else 0

def LedgerEntry.creditOf (entry : LedgerEntry) : ℚ := if entry.creditAccount = accountId then entry.amount else 0

variable {accountId} {ledger : List LedgerEntry}

theorem LedgerEntry.debitOf_eq_zero {entry : LedgerEntry} (h : ¬ entry.Names accountId) : entry.debitOf accountId = 0 :=
  if_neg fun hdebit => h (.inl hdebit)

theorem LedgerEntry.creditOf_eq_zero {entry : LedgerEntry} (h : ¬ entry.Names accountId) :
    entry.creditOf accountId = 0 :=
  if_neg fun hcredit => h (.inr hcredit)

theorem addEntry_eq (totals : ℚ × ℚ) (entry : LedgerEntry) : addEntry accountId totals entry =
    (totals.1 + entry.debitOf accountId, totals.2 + entry.creditOf accountId) := by
  unfold addEntry LedgerEntry.debitOf LedgerEntry.creditOf
  by_cases hdebit : entry.debitAccount = accountId <;> by_cases hcredit : entry.creditAccount = accountId <;>
    simp [hdebit, hcredit]

/-- **The loop adds up both columns**, by induction on the entries that are left. -/
theorem foldl_addEntry (entries : List LedgerEntry) (totals : ℚ × ℚ) : entries.foldl (addEntry accountId) totals =
    (totals.1 + Store.total (LedgerEntry.debitOf accountId) entries,
      totals.2 + Store.total (LedgerEntry.creditOf accountId) entries) := by
  induction entries generalizing totals with
  | nil => simp
  | cons entry entries ih => rw [List.foldl_cons, ih, addEntry_eq, total_cons, total_cons, add_assoc, add_assoc]

variable {f : LedgerEntry → ℚ} (hf : ∀ entry, ¬ entry.Names accountId → f entry = 0)
include hf

/-- A condition that all entries of the account meet leaves out nothing that counts. -/
theorem total_filter_of_names {rows : List LedgerEntry} {p : LedgerEntry → Bool}
    (hp : ∀ row ∈ rows, row.Names accountId → p row = true) : Store.total f (rows.filter p) = Store.total f rows := by
  refine total_filter_of_zero fun row hrow hleft => hf row fun hnames => ?_
  rw [hp row hrow hnames] at hleft
  cases hleft

/-- Of the entries of a period those of other accounts and their order do not count. -/
theorem total_findByAccount
    (startDate endDate : Time) : Store.total f (findByAccount ledger accountId startDate endDate) =
      Store.total f (ledger.filter fun row => between startDate endDate row.createdAt) := by
  rw [findByAccount, total_perm (List.perm_insertionSort _ _)]
  have hfilter : ledger.filter (fun row => row.Names accountId ∧ between startDate endDate row.createdAt = true) =
      (ledger.filter fun row => between startDate endDate row.createdAt).filter fun row => row.Names accountId := by
    rw [List.filter_filter]
    exact List.filter_congr fun row _ => by simp
  rw [hfilter]
  exact total_filter_of_names hf fun row _ hnames => decide_eq_true hnames

omit hf

theorem totalDebits_eq (startDate endDate : Time) : (getStatement ledger accountId startDate endDate).totalDebits =
    Store.total (LedgerEntry.debitOf accountId) (ledger.filter fun row => between startDate endDate row.createdAt) := by
  rw [← total_findByAccount fun _ => LedgerEntry.debitOf_eq_zero]
  simp [getStatement, foldl_addEntry]

theorem totalCredits_eq (startDate endDate : Time) : (getStatement ledger accountId startDate endDate).totalCredits =
    Store.total (LedgerEntry.creditOf accountId)
      (ledger.filter fun row => between startDate endDate row.createdAt) := by
  rw [← total_findByAccount fun _ => LedgerEntry.creditOf_eq_zero]
  simp [getStatement, foldl_addEntry]

theorem closingBalance_eq (startDate endDate : Time) :
    (getStatement ledger accountId startDate endDate).closingBalance =
      (getStatement ledger accountId startDate endDate).totalDebits -
        (getStatement ledger accountId startDate endDate).totalCredits := rfl

end

/-! ## Statements and the balance -/

/-- Over a period that holds all entries of the account, which are in one asset, the statement closes with the
balance. -/
def ClosesWithBalance (ledger : List LedgerEntry) (accountId : String) : Prop :=
  ∀ (asset : String) (startDate endDate : Time), (∀ row ∈ ledger, row.Names accountId →
      row.asset = asset ∧ between startDate endDate row.createdAt = true) →
    (getStatement ledger accountId startDate endDate).closingBalance = getBalance ledger accountId asset

theorem closesWithBalance (ledger : List LedgerEntry) (accountId : String) : ClosesWithBalance ledger accountId := by
  intro asset startDate endDate hall
  have hperiod {f : LedgerEntry → ℚ} (hf : ∀ entry, ¬ entry.Names accountId → f entry = 0) :
      Store.total f (ledger.filter fun row => between startDate endDate row.createdAt) = Store.total f ledger :=
    total_filter_of_names hf fun row hrow hnames => (hall row hrow hnames).2
  have hasset {f : LedgerEntry → ℚ} (hf : ∀ entry, ¬ entry.Names accountId → f entry = 0) :
      Store.total f (ledger.filter fun row =>
        (row.debitAccount = accountId ∨ row.creditAccount = accountId) ∧ row.asset = asset) = Store.total f ledger :=
    total_filter_of_names hf fun row hrow hnames => decide_eq_true ⟨hnames, (hall row hrow hnames).1⟩
  have hbalance : getBalance ledger accountId asset =
      Store.total (LedgerEntry.debitOf accountId) ledger - Store.total (LedgerEntry.creditOf accountId) ledger := by
    rw [← hasset fun _ => LedgerEntry.debitOf_eq_zero, ← hasset fun _ => LedgerEntry.creditOf_eq_zero]
    rfl
  rw [hbalance, closingBalance_eq, totalDebits_eq, totalCredits_eq, hperiod fun _ => LedgerEntry.debitOf_eq_zero,
    hperiod fun _ => LedgerEntry.creditOf_eq_zero]

/-- The totals and the balance of a statement are those of two others together. -/
structure AddsUp (whole left right : LedgerStatement) : Prop where
  debits : whole.totalDebits = left.totalDebits + right.totalDebits
  credits : whole.totalCredits = left.totalCredits + right.totalCredits
  closing : whole.closingBalance = left.closingBalance + right.closingBalance

/-- The same, but for what a fourth one lists. -/
structure Overlaps (whole left right both : LedgerStatement) : Prop where
  debits : whole.totalDebits + both.totalDebits = left.totalDebits + right.totalDebits
  credits : whole.totalCredits + both.totalCredits = left.totalCredits + right.totalCredits
  closing : whole.closingBalance + both.closingBalance = left.closingBalance + right.closingBalance

/-- What lies in two periods that meet in an instant. -/
theorem total_overlap (f : LedgerEntry → ℚ) (ledger : List LedgerEntry) {t₀ t₁ t₂ : Time} (h₀ : t₀ ≤ t₁)
    (h₂ : t₁ ≤ t₂) :
    Store.total f (ledger.filter fun row => between t₀ t₂ row.createdAt) +
        Store.total f (ledger.filter fun row => between t₁ t₁ row.createdAt) =
      Store.total f (ledger.filter fun row => between t₀ t₁ row.createdAt) +
        Store.total f (ledger.filter fun row => between t₁ t₂ row.createdAt) := by
  have hinstant : ledger.filter (fun row => between t₁ t₁ row.createdAt) =
      ledger.filter fun row => row.createdAt = t₁ :=
    List.filter_congr fun row _ => decide_eq_decide.2 (by rw [le_antisymm_iff, and_comm])
  rw [hinstant]
  exact total_between_split LedgerEntry.createdAt h₀ h₂

/-- **Two statements that meet in an instant** make up that of the whole period and that of the instant, which both
of them list; and the statement over all time closes with the balance. -/
theorem statements_overlap (ledger : List LedgerEntry) (accountId : String) {t₀ t₁ t₂ : Time} (h₀ : t₀ ≤ t₁)
    (h₂ : t₁ ≤ t₂) :
    Overlaps (getStatement ledger accountId t₀ t₂) (getStatement ledger accountId t₀ t₁)
        (getStatement ledger accountId t₁ t₂) (getStatement ledger accountId t₁ t₁) ∧
      ClosesWithBalance ledger accountId := by
  have hdebits := total_overlap (LedgerEntry.debitOf accountId) ledger h₀ h₂
  have hcredits := total_overlap (LedgerEntry.creditOf accountId) ledger h₀ h₂
  simp only [← totalDebits_eq, ← totalCredits_eq] at hdebits hcredits
  refine ⟨⟨hdebits, hcredits, ?_⟩, closesWithBalance ledger accountId⟩
  simp only [closingBalance_eq]
  linarith

/-- A deposit of 100 USDC, stamped at 15. -/
def deposit : LedgerEntry :=
  { intentId := "pi", entryType := .deposit, amount := 100, asset := "USDC", chain := "ethereum"
    debitAccount := "pending:pi", creditAccount := "customer:ann", id := "e1", createdAt := 15 }

theorem statements_overlap_deposit :
    Overlaps (getStatement [deposit] "pending:pi" 0 20) (getStatement [deposit] "pending:pi" 0 15)
        (getStatement [deposit] "pending:pi" 15 20) (getStatement [deposit] "pending:pi" 15 15) ∧
      ClosesWithBalance [deposit] "pending:pi" :=
  statements_overlap [deposit] "pending:pi" (by decide) (by decide)

/-- Where the deposit is stamped at the instant in which two statements meet, both list it. -/
theorem deposit_counted_twice :
    ¬ AddsUp (getStatement [deposit] "pending:pi" 0 20) (getStatement [deposit] "pending:pi" 0 15)
      (getStatement [deposit] "pending:pi" 15 20) := by
  rintro ⟨hdebits, -, -⟩
  revert hdebits
  decide +kernel

end NexoraGateway.Settlements
