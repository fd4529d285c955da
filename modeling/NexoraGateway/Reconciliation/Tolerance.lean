import Mathlib.Tactic.Linarith
import Mathlib.Tactic.Positivity
import Mathlib.Tactic.Ring
import NexoraGateway.Reconciliation.Findings
import NexoraGateway.Settlements.Amounts

/-!
# The tolerance of the amount check (`checkAmountMismatches`, reconciliation.service.ts:205)

`calculateSettlementAmount` rounds to eight decimals and takes the fee of the settlement; the check compares with an
amount that is not rounded and takes the fee that the merchant has when it runs. `judged_iff` says for which amounts and
fees the check spares what `settleIntent` completed and catches every amount that is off by more than 0.01%. Amounts
are counted in units of the eighth decimal.
-/
namespace NexoraGateway.Reconciliation

open Async Store
open Settlements (Settlement SettlementExecutionContext calculateSettlementAmount)

/-! ## Reports of a settlement's amount -/

/-- The result names the settlement's intent and amount as a mismatch. -/
def MismatchReported (result : ReconciliationCheckResult) (row : Settlement) : Prop :=
  ∃ d ∈ result.discrepancies, d.type = .amountMismatch ∧ d.intentId = row.intentId ∧ d.actualValue = .num row.amount

/-- The check joins the settlement with a target amount, and with the fee that the merchant has now. -/
def Compared (books : Books) (row : Settlement) (targetAmount feePercentage : ℚ) : Prop :=
  books.amountRow? row = some ⟨row.intentId, row.amount, targetAmount, feePercentage⟩

/-- The amount is off by more than the tolerance. -/
def Off (targetAmount feePercentage amount : ℚ) : Prop :=
  |targetAmount * (1 - feePercentage / 100) - amount| > targetAmount * (1 - feePercentage / 100) * (1 / 10000)

section
variable {startDate endDate : Time} {db db' : Db} {result : ReconciliationCheckResult} {row : Settlement}
  {targetAmount feePercentage : ℚ}

/-- The join looks at the intent and the amount of a settlement. -/
theorem amountRow?_congr {books : Books} {settlement : Settlement} (hintent : settlement.intentId = row.intentId)
    (hamount : settlement.amount = row.amount) : books.amountRow? settlement = books.amountRow? row := by
  simp only [Books.amountRow?, hintent, hamount]

theorem amountRow?_eq_some {books : Books} {found : AmountRow} (h : books.amountRow? row = some found) :
    found.intentId = row.intentId ∧ found.settlementAmount = row.amount := by
  simp only [Books.amountRow?, Option.bind_eq_bind, Option.bind_eq_some_iff] at h
  obtain ⟨intent, -, merchant, -, h⟩ := h
  cases h
  exact ⟨rfl, rfl⟩

/-- What is reported is off. -/
theorem Ran.off_of_reported (h : Ran startDate endDate db db' result)
    (hrow : Compared db.books row targetAmount feePercentage) (hreported : MismatchReported result row) :
    Off targetAmount feePercentage row.amount := by
  obtain ⟨finding, hmem, htype, hintent, hamount⟩ := (h.exists_iff (p := fun finding =>
    finding.type = .amountMismatch ∧ finding.intentId = row.intentId ∧
      finding.actualValue = .num row.amount)).1 hreported
  rw [mem_findings, htype] at hmem
  obtain ⟨found, hfound, hmismatch⟩ := List.mem_filterMap.1 hmem
  obtain ⟨settlement, -, hsettlement⟩ := List.mem_filterMap.1 hfound
  obtain ⟨⟨-, hid, hvalue⟩, hoff⟩ := amountMismatch?_eq_some hmismatch
  obtain ⟨hid', hvalue'⟩ := amountRow?_eq_some hsettlement
  -- a settlement with the same intent and amount is compared alike
  have hsame : settlement.intentId = row.intentId := hid'.symm.trans (hid.symm.trans hintent)
  have hsame' : settlement.amount = row.amount := hvalue'.symm.trans (Json.num.inj (hvalue.symm.trans hamount))
  rw [amountRow?_congr hsame hsame', hrow] at hsettlement
  cases hsettlement
  exact hoff

/-- What is off is reported, if the settlement was completed in the period. -/
theorem Ran.reported_of_off (h : Ran startDate endDate db db' result)
    (hrow : Compared db.books row targetAmount feePercentage) (hin : row ∈ db.books.completedIn startDate endDate)
    (hoff : Off targetAmount feePercentage row.amount) : MismatchReported result row := by
  obtain ⟨finding, hfinding⟩ :=
    (amountMismatch?_isSome ⟨row.intentId, row.amount, targetAmount, feePercentage⟩).2 hoff
  refine (h.exists_iff (p := fun finding => finding.type = .amountMismatch ∧ finding.intentId = row.intentId ∧
    finding.actualValue = .num row.amount)).2 ⟨finding, ?_, (amountMismatch?_eq_some hfinding).1⟩
  refine mem_findings_iff.2 ⟨.amountMismatch, List.mem_filterMap.2 ⟨_, ?_, hfinding⟩⟩
  exact List.mem_filterMap.2 ⟨row, hin, hrow⟩

end

/-! ## The check in units -/

/-- What the check expects, in units of the eighth decimal. -/
def expectedUnits (target : ℕ) (fee : ℚ) : ℚ := target * (1 - fee / 100)

/-- The amount of a settlement, in the same units. -/
def settledUnits (target : ℕ) (fee : ℚ) : ℤ := ⌊target * (1 - fee / 100) + 1 / 2⌋

theorem calculateSettlementAmount_units (target : ℕ) (fee : ℚ) :
    calculateSettlementAmount (target / 10 ^ 8) fee = settledUnits target fee / 10 ^ 8 := by
  rw [Settlements.calculateSettlementAmount_eq, Ecma.mathRound, settledUnits]

theorem off_units (target : ℕ) (fee : ℚ) (units : ℤ) :
    Off (target / 10 ^ 8) fee (units / 10 ^ 8) ↔
      ¬ |expectedUnits target fee - units| ≤ 1 / 10000 * expectedUnits target fee := by
  have hexpected : (target : ℚ) / 10 ^ 8 * (1 - fee / 100) = expectedUnits target fee / 10 ^ 8 := by
    rw [expectedUnits]
    ring
  rw [Off, hexpected, ← sub_div, abs_div, abs_of_pos (by positivity : (0 : ℚ) < 10 ^ 8), gt_iff_lt, div_mul_eq_mul_div,
    div_lt_div_iff_of_pos_right (by positivity), not_le, mul_comm]

/-- An amount that is off from what is settled. -/
theorem differs_units (target : ℕ) (fee : ℚ) (units : ℤ) :
    |(units : ℚ) / 10 ^ 8 - calculateSettlementAmount (target / 10 ^ 8) fee| >
        calculateSettlementAmount (target / 10 ^ 8) fee / 10000 ↔
      ¬ |(units : ℚ) - settledUnits target fee| ≤ 1 / 10000 * settledUnits target fee := by
  rw [calculateSettlementAmount_units, ← sub_div, abs_div, abs_of_pos (by positivity : (0 : ℚ) < 10 ^ 8), gt_iff_lt,
    div_right_comm, div_lt_div_iff_of_pos_right (by positivity), not_le, one_div_mul_eq_div]

/-- Whole amounts within a tolerance of one value are within that of another, if the least and the greatest are. -/
theorem within_iff {ε x : ℚ} {n : ℤ} (hn : |x - n| ≤ ε * x) :
    (∀ m : ℤ, |x - m| ≤ ε * x → |(m : ℚ) - n| ≤ ε * n) ↔
      (n : ℚ) - ⌈(1 - ε) * x⌉ ≤ ε * n ∧ (⌊(1 + ε) * x⌋ : ℚ) - n ≤ ε * n := by
  have hwithin (m : ℤ) : |x - m| ≤ ε * x ↔ ⌈(1 - ε) * x⌉ ≤ m ∧ m ≤ ⌊(1 + ε) * x⌋ := by
    rw [abs_le, Int.ceil_le, Int.le_floor]
    constructor
    · rintro ⟨hle, hge⟩
      constructor <;> linarith
    · rintro ⟨hle, hge⟩
      constructor <;> linarith
  obtain ⟨hlo, hhi⟩ := (hwithin n).1 hn
  simp only [hwithin]
  constructor
  · intro h
    have hleast := (abs_le.1 (h _ ⟨le_refl _, hlo.trans hhi⟩)).1
    have hgreatest := (abs_le.1 (h _ ⟨hlo.trans hhi, le_refl _⟩)).2
    exact ⟨by linarith, hgreatest⟩
  · rintro ⟨hleast, hgreatest⟩ m ⟨hm, hm'⟩
    have hle : ((⌈(1 - ε) * x⌉ : ℤ) : ℚ) ≤ m := Int.cast_le.2 hm
    have hge : (m : ℚ) ≤ (⌊(1 + ε) * x⌋ : ℤ) := Int.cast_le.2 hm'
    exact abs_le.2 ⟨by linarith, by linarith⟩

/-! ## Settlements that were completed, and those that are off -/

/-- The row was completed by the settlement service, where its intent was settled for that amount at that fee. -/
def CompletedBy (targetAmount feePercentage : ℚ) (row : Settlement) : Prop :=
  ∃ (S : SettlementExecutionContext → Prop) (cs : List (Choice _ _ _ _ _)),
    (∀ p, .spawn p ∈ cs → ∃ op : Settlements.Op, op.Of S ∧ p = op.task) ∧
    row ∈ (Pool.exec Settlements.handle (⟨Settlements.emptyDb, []⟩ : Settlements.Service) cs).store.settlements.rows ∧
    row.status = .completed ∧ ∀ ctx, S ctx → ctx.intent.id = row.intentId →
      ctx.intent.targetAmount = targetAmount ∧ ctx.merchant.feePercentage = feePercentage

theorem CompletedBy.amount {targetAmount feePercentage : ℚ} {row : Settlement}
    (h : CompletedBy targetAmount feePercentage row) :
    row.amount = calculateSettlementAmount targetAmount feePercentage := by
  obtain ⟨S, cs, hops, hrow, -, hall⟩ := h
  obtain ⟨ctx, hctx, hintent, -, hamount⟩ := (Settlements.rows_made cs hops row hrow).context
  obtain ⟨htarget, hfee⟩ := hall ctx hctx hintent.symm
  rw [hamount, htarget, hfee]

/-- The order for an amount, and the shop with a fee. -/
def orderOf (targetAmount : ℚ) : Intent.PaymentIntent := { Settlements.order with targetAmount }

def shopOf (feePercentage : ℚ) : Intent.MerchantConfig := { Settlements.shop with feePercentage }

theorem exists_completedBy (targetAmount feePercentage : ℚ) : ∃ row, CompletedBy targetAmount feePercentage row ∧
    row.intentId = "pi" ∧ row.merchantId = "shop" ∧ row.status = .completed ∧ ∃ t, row.completedAt = some t := by
  let ctx : SettlementExecutionContext := ⟨orderOf targetAmount, shopOf feePercentage, ⟨12⟩⟩
  obtain ⟨cs, hops, row, hrow, hstatus⟩ := Settlements.exists_completed ctx
  obtain ⟨⟨_, rfl, hintent, hmerchant, -⟩, hstamped⟩ := Settlements.rows_made cs hops row hrow
  refine ⟨row, ⟨(· = ctx), cs, hops, hrow, hstatus, ?_⟩, hintent, hmerchant, hstatus,
    Option.isSome_iff_exists.1 (hstamped hstatus)⟩
  rintro _ rfl -
  exact ⟨rfl, rfl⟩

/-- A settlement that the service completed at `fee` is spared by every later run, and every stored amount that is off
by more than 0.01% from what it settles at `fee` is reported, when the merchant's fee is `fee'` by then. -/
structure Judged (targetAmount fee fee' : ℚ) : Prop where
  spared : ∀ row, CompletedBy targetAmount fee row → ∀ ω n db period startDate endDate result m db',
    (runReconciliation period startDate endDate).run handle ω n db = (.ok result, m, db') →
    Compared db.books row targetAmount fee' → ¬ MismatchReported result row
  caught : ∀ (row : Settlement) (units : ℤ), row.amount = units / 10 ^ 8 →
    |row.amount - calculateSettlementAmount targetAmount fee| > calculateSettlementAmount targetAmount fee / 10000 →
    ∀ ω n db period startDate endDate result m db',
    (runReconciliation period startDate endDate).run handle ω n db = (.ok result, m, db') →
    Compared db.books row targetAmount fee' → row ∈ db.books.completedIn startDate endDate → MismatchReported result row

/-- A payout of any amount. -/
def payoutOf (units : ℤ) : Settlement := { payout "s1" 11 12 with amount := units / 10 ^ 8 }

theorem payoutOf_amount (units : ℤ) : (payoutOf units).amount = units / 10 ^ 8 := rfl

/-- Some run compares a completed settlement of the order with any fee. -/
theorem exists_compared (targetAmount fee' : ℚ) {row : Settlement} {t : Time} (hintent : row.intentId = "pi")
    (hmerchant : row.merchantId = "shop") (hstatus : row.status = .completed) (ht : row.completedAt = some t) :
    ∃ ω n db period startDate endDate result m db',
      (runReconciliation period startDate endDate).run handle ω n db = (.ok result, m, db') ∧
      Compared db.books row targetAmount fee' ∧ row ∈ db.books.completedIn startDate endDate := by
  have hrows : ∀ u ∈ (⟨[row], List.nodup_singleton _⟩ : Table Settlement.id).rows,
      u.intentId = (orderOf targetAmount).id ∧ u.merchantId = (shopOf fee').id := by
    intro u hu
    cases List.mem_singleton.1 hu
    exact ⟨hintent, hmerchant⟩
  let books := booksOf (shopOf fee') (orderOf targetAmount) ⟨[row], List.nodup_singleton _⟩ [] rfl hrows
  obtain ⟨result, m, db', hrun⟩ := exists_run books .daily t t
  refine ⟨_, _, _, _, _, _, _, _, _, hrun, ?_, ?_⟩
  · simp [Compared, Books.amountRow?, books, dbOf, booksOf, Table.find?, hintent, orderOf, shopOf, Settlements.order,
      Settlements.shop]
  · simp [Books.completedIn, books, dbOf, booksOf, hstatus, ht, between]

section
variable {target : ℕ} {fee fee' : ℚ}

theorem Judged.spares (h : Judged (target / 10 ^ 8) fee fee') :
    |expectedUnits target fee' - settledUnits target fee| ≤ 1 / 10000 * expectedUnits target fee' := by
  obtain ⟨row, hrow, hintent, hmerchant, hstatus, t, ht⟩ := exists_completedBy (target / 10 ^ 8) fee
  obtain ⟨_, _, _, _, _, _, _, _, _, hrun, hcompared, hin⟩ :=
    exists_compared (target / 10 ^ 8) fee' hintent hmerchant hstatus ht
  by_contra hoff
  rw [← off_units, ← calculateSettlementAmount_units, ← hrow.amount] at hoff
  exact h.spared row hrow _ _ _ _ _ _ _ _ _ hrun hcompared
    ((runReconciliation_ok hrun).1.reported_of_off hcompared hin hoff)

theorem Judged.catches (h : Judged (target / 10 ^ 8) fee fee') (units : ℤ)
    (hunits : |expectedUnits target fee' - units| ≤ 1 / 10000 * expectedUnits target fee') :
    |(units : ℚ) - settledUnits target fee| ≤ 1 / 10000 * settledUnits target fee := by
  obtain ⟨_, _, _, _, _, _, _, _, _, hrun, hcompared, hin⟩ :=
    exists_compared (target / 10 ^ 8) fee' (rfl : (payoutOf units).intentId = "pi") rfl rfl (t := 12) rfl
  have hran := (runReconciliation_ok hrun).1
  by_contra hdiffers
  rw [← differs_units, ← payoutOf_amount] at hdiffers
  have hreported := h.caught _ units (payoutOf_amount units) hdiffers _ _ _ _ _ _ _ _ _ hrun hcompared hin
  have hoff := hran.off_of_reported hcompared hreported
  rw [payoutOf_amount, off_units] at hoff
  exact hoff hunits

/-- **What the amount check can tell**, in units of the eighth decimal: it is right about every settlement exactly if
the amount settled lies within 0.01% of the amount expected at today's fee, and the least and the greatest amounts
within 0.01% of that one lie within 0.01% of the amount settled. -/
theorem judged_iff (target : ℕ) (fee fee' : ℚ) :
    Judged (target / 10 ^ 8) fee fee' ↔
      |expectedUnits target fee' - settledUnits target fee| ≤ 1 / 10000 * expectedUnits target fee' ∧
      (settledUnits target fee : ℚ) - ⌈(1 - 1 / 10000) * expectedUnits target fee'⌉ ≤
        1 / 10000 * settledUnits target fee ∧
      (⌊(1 + 1 / 10000) * expectedUnits target fee'⌋ : ℚ) - settledUnits target fee ≤
        1 / 10000 * settledUnits target fee := by
  constructor
  · intro h
    exact ⟨h.spares, (within_iff h.spares).1 h.catches⟩
  · rintro ⟨hspares, hends⟩
    have hcatches := (within_iff hspares).2 hends
    constructor
    · intro row hrow ω n db period startDate endDate result m db' hrun hcompared hreported
      have hoff := (runReconciliation_ok hrun).1.off_of_reported hcompared hreported
      rw [hrow.amount, calculateSettlementAmount_units, off_units] at hoff
      exact hoff hspares
    · intro row units hamount hdiffers ω n db period startDate endDate result m db' hrun hcompared hin
      refine (runReconciliation_ok hrun).1.reported_of_off hcompared hin ?_
      rw [hamount, differs_units] at hdiffers
      rw [hamount, off_units]
      exact fun hunits => hdiffers (hcatches units hunits)

end

/-- Of an order over 100, settled at a fee of one per cent, the check is wrong once the fee is two per cent; of 51
units, settled as 50, it is wrong at the same fee. -/
theorem fee_changed : ¬ Judged ((10 ^ 10 : ℕ) / 10 ^ 8) 1 2 ∧ ¬ Judged ((51 : ℕ) / 10 ^ 8) 1 1 := by
  constructor
  · intro h
    exact absurd h.spares (by decide +kernel)
  · intro h
    exact absurd h.spares (by decide +kernel)

end NexoraGateway.Reconciliation
