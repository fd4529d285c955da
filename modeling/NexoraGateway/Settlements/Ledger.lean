import NexoraGateway.Async.Runs
import NexoraGateway.Settlements.Service
import NexoraGateway.Store.Books

/-!
# The double-entry ledger (`settlement/src/ledger.service.ts`, `settlement/src/ledger.repository.ts`)

Every `record…` function makes one call, `createEntry`; `post` is what it does to the database, whether the
call is answered or rejected. `getBalance` is the query over `ledger_entries`; the rows in one asset are the
books of that asset (`getBalance_eq`), so it answers what they say.

* `recordDeposit`, `recordRefund`, `recordFxGainLoss` — ledger.service.ts:73, :136, :157.
* `getBalance`, `getMerchantBalance` — ledger.repository.ts:100, :119.
-/
namespace NexoraGateway.Settlements

open Async

structure DepositRecord where
  intentId : Id
  amount : ℚ
  asset : String
  chain : String
  customerId : Id
  txHash : Id
  sourceAddress : String

structure RefundRecord where
  intentId : Id
  amount : ℚ
  asset : String
  chain : String
  merchantId : Id
  customerId : Id
  txHash : Id
  reason : String

/-- `recordDeposit` (ledger.service.ts:73). -/
def recordDeposit (deposit : DepositRecord) : Task LedgerEntry :=
  Task.createEntry
    { intentId := deposit.intentId, entryType := .deposit, amount := deposit.amount, asset := deposit.asset
      chain := deposit.chain, debitAccount := "pending:" ++ deposit.intentId
      creditAccount := "customer:" ++ deposit.customerId
      metadata := some [("tx_hash", .str deposit.txHash), ("source_address", .str deposit.sourceAddress)] }

/-- `recordRefund` (ledger.service.ts:136). -/
def recordRefund (refund : RefundRecord) : Task LedgerEntry :=
  Task.createEntry
    { intentId := refund.intentId, entryType := .refund, amount := refund.amount, asset := refund.asset
      chain := refund.chain, debitAccount := "merchant:" ++ refund.merchantId
      creditAccount := "customer:" ++ refund.customerId
      metadata := some [("tx_hash", .str refund.txHash), ("reason", .str refund.reason)] }

/-- `recordFxGainLoss` (ledger.service.ts:157). -/
def recordFxGainLoss (intentId : Id) (asset chain : String) (gain : ℚ) : Task LedgerEntry :=
  let isGain : Bool := gain ≥ 0
  Task.createEntry
    { intentId, entryType := .fxGainLoss, amount := |gain|, asset, chain
      debitAccount := if isGain then "revenue:fx" else "expense:fx"
      creditAccount := if isGain then "expense:fx" else "revenue:fx"
      metadata := some [("type", .str (if isGain then "gain" else "loss"))] }

/-- `getBalance` (ledger.repository.ts:100). -/
def getBalance (ledger : List LedgerEntry) (accountId asset : String) : ℚ :=
  let rows := ledger.filter fun row =>
    (row.debitAccount = accountId ∨ row.creditAccount = accountId) ∧ row.asset = asset
  let debits := (rows.map fun row => if row.debitAccount = accountId then row.amount else 0).sum
  let credits := (rows.map fun row => if row.creditAccount = accountId then row.amount else 0).sum
  debits - credits

/-- `getMerchantBalance` (ledger.repository.ts:119). -/
def getMerchantBalance (ledger : List LedgerEntry) (merchantId asset : String) : ℚ :=
  getBalance ledger ("merchant:" ++ merchantId) asset

/-! ## Postings -/

/-- A call of one of the five `record…` functions. -/
inductive Posting where
  | deposit (deposit : DepositRecord)
  | fee (fee : FeeRecord)
  | settlement (settlement : Settlement)
  | refund (refund : RefundRecord)
  | fxGainLoss (intentId : Id) (asset chain : String) (gain : ℚ)

namespace Posting

def task : Posting → Task LedgerEntry
  | deposit d => recordDeposit d
  | fee f => recordFee f
  | settlement s => recordSettlement s
  | refund r => recordRefund r
  | fxGainLoss intentId asset chain gain => recordFxGainLoss intentId asset chain gain

def intentId : Posting → Id
  | deposit d => d.intentId
  | fee f => f.intentId
  | settlement s => s.intentId
  | refund r => r.intentId
  | fxGainLoss intentId .. => intentId

def asset : Posting → String
  | deposit d => d.asset
  | fee f => f.asset
  | settlement s => s.asset
  | refund r => r.asset
  | fxGainLoss _ asset .. => asset

def amount : Posting → ℚ
  | deposit d => d.amount
  | fee f => f.amount
  | settlement s => s.amount
  | refund r => r.amount
  | fxGainLoss _ _ _ gain => |gain|

def debit : Posting → String
  | deposit d => "pending:" ++ d.intentId
  | fee f => "merchant:" ++ f.merchantId
  | settlement s => "pending:" ++ s.intentId
  | refund r => "merchant:" ++ r.merchantId
  | fxGainLoss _ _ _ gain => if gain ≥ 0 then "revenue:fx" else "expense:fx"

def credit : Posting → String
  | deposit d => "customer:" ++ d.customerId
  | fee _ => "revenue:fees"
  | settlement s => "merchant:" ++ s.merchantId
  | refund r => "customer:" ++ r.customerId
  | fxGainLoss _ _ _ gain => if gain ≥ 0 then "expense:fx" else "revenue:fx"

/-- A posting in the books, its amount as the `DECIMAL(20, 8)` column stores it. -/
def entry (p : Posting) : Books.Posting String ℚ := ⟨p.debit, p.credit, decimal8 p.amount⟩

/-- Every posting is one `createEntry` of its own accounts and amount. -/
theorem task_eq (p : Posting) : ∃ params : CreateLedgerEntryParams, p.task = Task.createEntry params ∧
    params.debitAccount = p.debit ∧ params.creditAccount = p.credit ∧ params.amount = p.amount ∧
    params.asset = p.asset := by
  cases p with
  | fxGainLoss intentId asset chain gain =>
    refine ⟨_, rfl, ?_, ?_, rfl, rfl⟩ <;> simp [debit, credit]
  | _ => exact ⟨_, rfl, rfl, rfl, rfl, rfl⟩

/-- Two accounts of different kinds are different. -/
theorem account_ne {kind kind' : String} {id id' : Id} (h : ¬ kind.toList <+: kind'.toList)
    (h' : ¬ kind'.toList <+: kind.toList) : kind ++ id ≠ kind' ++ id' := by
  intro heq
  have hlist : kind.toList ++ id.toList = kind'.toList ++ id'.toList := by
    simpa using congrArg String.toList heq
  rcases List.prefix_or_prefix_of_prefix (List.prefix_append _ id.toList)
    (hlist ▸ List.prefix_append _ id'.toList) with hpre | hpre
  · exact h hpre
  · exact h' hpre

theorem debit_ne_credit (p : Posting) : p.debit ≠ p.credit := by
  cases p with
  | deposit d => exact account_ne (by decide) (by decide)
  | fee f => exact @account_ne "merchant:" "revenue:" f.merchantId "fees" (by decide) (by decide)
  | settlement s => exact account_ne (by decide) (by decide)
  | refund r => exact account_ne (by decide) (by decide)
  | fxGainLoss intentId asset chain gain =>
    simp only [debit, credit]
    split <;> decide

end Posting

/-- A call that is answered is executed; one that is rejected may be. -/
def Oracle.Executes (o : Oracle) : Prop := o.rejects = none ∨ o.lost = true

instance (o : Oracle) : Decidable o.Executes := inferInstanceAs (Decidable (_ ∨ _))

/-- What a request leaves behind. -/
theorem request_store {α : Type} (o : Oracle) (result : α × Db) (db : Db) :
    (request o result db).2 = if o.Executes then result.2 else db := by
  cases hrejects : o.rejects with
  | none => rw [request_accepted hrejects, if_pos (.inl hrejects)]
  | some message =>
    have hlost : o.Executes ↔ o.lost = true :=
      ⟨fun h => h.resolve_left fun hnone => (by cases hrejects.symm.trans hnone), .inr⟩
    simp only [request_rejected hrejects, hlost]

/-- One call of a `record…` function, alone. -/
def post (db : Db) (x : Posting × Oracle) : Db := (x.1.task.run handle (fun _ => x.2) 0 db).2.2

theorem post_eq {db : Db} {p : Posting} {o : Oracle} {params : CreateLedgerEntryParams}
    (htask : p.task = Task.createEntry params) : post db (p, o) = (createEntry o params (db.tick o)).2 := by
  have hrun : (Task.createEntry params).run handle (fun _ => o) 0 db =
      ((createEntry o params (db.tick o)).1, 1, (createEntry o params (db.tick o)).2) := Prog.run_await ..
  simp only [post, htask, hrun]

/-- The row that an executed posting appends. -/
structure Row (p : Posting) (row : LedgerEntry) : Prop where
  debit : row.debitAccount = p.debit
  credit : row.creditAccount = p.credit
  amount : row.amount = decimal8 p.amount
  asset : row.asset = p.asset

theorem post_ledger (db : Db) (p : Posting) (o : Oracle) :
    o.Executes ∧ (∃ row, Row p row ∧ (post db (p, o)).ledger = db.ledger ++ [row]) ∨
    ¬ o.Executes ∧ (post db (p, o)).ledger = db.ledger := by
  obtain ⟨params, htask, hdebit, hcredit, hamount, hasset⟩ := p.task_eq
  let row : LedgerEntry :=
    { params with id := o.uuid, createdAt := (db.tick o).clock, amount := decimal8 params.amount }
  have hrow : Row p row := ⟨hdebit, hcredit, congrArg decimal8 hamount, hasset⟩
  rw [post_eq htask, createEntry, request_store]
  by_cases ho : o.Executes
  · rw [if_pos ho]
    exact .inl ⟨ho, row, hrow, rfl⟩
  · rw [if_neg ho]
    exact .inr ⟨ho, rfl⟩

/-! ## Balances -/

/-- A row in the books. -/
def LedgerEntry.entry (row : LedgerEntry) : Books.Posting String ℚ :=
  ⟨row.debitAccount, row.creditAccount, row.amount⟩

theorem Row.entry {p : Posting} {row : LedgerEntry} (h : Row p row) : row.entry = p.entry := by
  simp only [LedgerEntry.entry, Posting.entry, h.debit, h.credit, h.amount]

/-- The postings in one asset. -/
def inAsset (ledger : List LedgerEntry) (asset : String) : List (Books.Posting String ℚ) :=
  (ledger.filter fun row => row.asset = asset).map LedgerEntry.entry

/-- The query answers what the books of the asset say. -/
theorem getBalance_eq (ledger : List LedgerEntry) (accountId asset : String) :
    getBalance ledger accountId asset = Books.books (inAsset ledger asset) accountId := by
  rw [Books.books_apply]
  induction ledger with
  | nil => rfl
  | cons row ledger ih =>
    simp only [getBalance, inAsset, List.filter_cons] at ih ⊢
    by_cases hasset : row.asset = asset
    · by_cases hnamed : row.debitAccount = accountId ∨ row.creditAccount = accountId
      · simp only [hasset, hnamed, and_self, decide_true, if_true, List.map_cons, List.sum_cons,
          add_sub_add_comm] at ih ⊢
        rw [ih]
        rfl
      · obtain ⟨hdebit, hcredit⟩ := not_or.1 hnamed
        simpa [hasset, hdebit, hcredit, LedgerEntry.entry] using ih
    · simpa [hasset] using ih

theorem inAsset_append (ledger : List LedgerEntry) (row : LedgerEntry) (asset : String) :
    inAsset (ledger ++ [row]) asset = inAsset ledger asset ++ if row.asset = asset then [row.entry] else [] := by
  simp only [inAsset, List.filter_append, List.map_append, List.filter_cons, List.filter_nil]
  split <;> simp_all

/-- What an appended row does to a balance. -/
theorem getBalance_append (ledger : List LedgerEntry) {p : Posting} {row : LedgerEntry} (h : Row p row)
    (accountId asset : String) :
    getBalance (ledger ++ [row]) accountId asset =
      getBalance ledger accountId asset + if p.asset = asset then p.entry.effect accountId else 0 := by
  rw [getBalance_eq, getBalance_eq, inAsset_append, h.asset, h.entry]
  split
  · rw [Books.books_concat, Finsupp.add_apply]
  · rw [List.append_nil, add_zero]

/-- **The ledger balances**: after any calls, answered or rejected, the balances of all accounts in an asset add
up to zero; and the next call, if it is executed, adds its amount to its debit account and takes it from its
credit account in its own asset, and leaves every other balance alone. The amount is the one its row holds, which
is the call's own when that has at most eight decimals. -/
theorem ledger_balances (history : List (Posting × Oracle)) (asset : String) :
    let ledger := (Runs.exec post emptyDb history).ledger
    (Function.support fun accountId => getBalance ledger accountId asset).Finite ∧
    ∑ᶠ accountId, getBalance ledger accountId asset = 0 ∧
    ∀ (p : Posting) (o : Oracle),
      let ledger' := (post (Runs.exec post emptyDb history) (p, o)).ledger
      o.Executes ∧ getBalance ledger' p.debit p.asset = getBalance ledger p.debit p.asset + decimal8 p.amount ∧
        getBalance ledger' p.credit p.asset = getBalance ledger p.credit p.asset - decimal8 p.amount ∧
        (∀ accountId asset', (accountId = p.debit ∨ accountId = p.credit → asset' ≠ p.asset) →
          getBalance ledger' accountId asset' = getBalance ledger accountId asset') ∧
        (∀ units : ℤ, p.amount = units / 10 ^ 8 → decimal8 p.amount = p.amount) ∨
      ¬ o.Executes ∧ ledger' = ledger := by
  intro ledger
  refine ⟨?_, ?_, fun p o => ?_⟩
  · simp only [getBalance_eq]
    exact Finsupp.hasFiniteSupport _
  · simp only [getBalance_eq]
    exact Books.finsum_books _
  · rcases post_ledger (Runs.exec post emptyDb history) p o with ⟨ho, row, hrow, hledger⟩ | ⟨ho, hledger⟩
    · have hne : p.entry.debit ≠ p.entry.credit := p.debit_ne_credit
      refine .inl ⟨ho, ?_, ?_, fun accountId asset' hother => ?_, fun units h => by rw [h, decimal8_units]⟩
      · rw [hledger, getBalance_append _ hrow, if_pos rfl]
        exact congrArg _ (Books.Posting.effect_debit hne)
      · rw [hledger, getBalance_append _ hrow, if_pos rfl, sub_eq_add_neg]
        exact congrArg _ (Books.Posting.effect_credit hne)
      · rw [hledger, getBalance_append _ hrow]
        split
        · rename_i hasset
          obtain ⟨hdebit, hcredit⟩ := not_or.1 fun h => hother h hasset.symm
          rw [Books.Posting.effect_other hdebit hcredit, add_zero]
        · rw [add_zero]
    · exact .inr ⟨ho, hledger⟩

end NexoraGateway.Settlements
