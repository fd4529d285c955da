import Mathlib.Order.Interval.Set.Defs
import NexoraGateway.Settlements.Amounts
import NexoraGateway.Settlements.Written

/-!
# The fee and the rest (`calculateSettlementAmount`, ledger.service.ts:246)

The merchant is paid the target amount less the fee, rounded to the eighth decimal, and `settleIntent` records as the
fee what is left of the target amount. With amounts counted in units of the eighth decimal:

* `settlement_and_fee` — neither is negative, both are whole numbers of units, no rounding gets lost, and the two are
  what the row and the entries of the intent hold.
-/
namespace NexoraGateway.Settlements

open Async Ecma Store

/-! ## What `settleIntent` records -/

/-- The same order at another price. -/
def SettlementExecutionContext.charging (ctx : SettlementExecutionContext) (targetAmount feePercentage : ℚ) :
    SettlementExecutionContext :=
  { ctx with
    intent := { ctx.intent with targetAmount }
    merchant := { ctx.merchant with feePercentage } }

/-- A fee that is posted is this amount. -/
def Call.Charges (feeAmount : ℚ) : Call → Prop
  | createEntry params => params.entryType = .fee → params.amount = feeAmount
  | _ => True

theorem record_charges (ctx : SettlementExecutionContext) (settlementAmount : ℚ) (completed : Settlement) :
    (record ctx settlementAmount completed).Only (Call.Charges (ctx.intent.targetAmount - settlementAmount))
      fun _ => True := by
  have hrest : ((recordSettlement completed).bind fun _ => .ret completed : Task Settlement).Only
      (Call.Charges (ctx.intent.targetAmount - settlementAmount)) fun _ => True :=
    Prog.Only.bind (Prog.Only.await fun h => by cases h) fun _ => Prog.Only.ret completed
  unfold record
  split
  · exact Prog.Only.bind (Prog.Only.await fun _ => rfl) fun _ => hrest
  · exact hrest

theorem settleIntent_charges (ctx : SettlementExecutionContext) :
    (settleIntent ctx).Only (Call.Charges ctx.feeAmount) fun _ => True := by
  rw [settleIntent_eq]
  refine Prog.Only.bind (Prog.Only.await trivial) fun settlement => ?_
  have hpay : (pay ctx settlement).Only (Call.Charges ctx.feeAmount) fun _ => True :=
    Prog.Only.bind (Prog.Only.bind (Prog.Only.await trivial) fun _ => Prog.Only.await trivial) fun txHash =>
      confirm_only trivial trivial trivial trivial trivial
  have hclose : (close ctx settlement).Only (Call.Charges ctx.feeAmount) fun _ => True :=
    Prog.Only.bind (Prog.Only.bind (Prog.Only.await trivial) fun now => updateSettlement_only trivial trivial)
      fun completed => record_charges ctx _ completed
  exact Prog.Only.tryCatch (Prog.Only.bind hpay fun _ => hclose) fun e _ =>
    handleSettlementFailure_only trivial trivial (fun _ => trivial) e

/-- Entries were added, and the fees among them are this amount. -/
def Charged (feeAmount : ℚ) (db db' : Db) : Prop :=
  ∃ entries, db'.ledger = db.ledger ++ entries ∧ ∀ e ∈ entries, e.entryType = .fee → e.amount = feeAmount

theorem Charged.handle {feeAmount : ℚ} {db db' : Db} (h : Charged (decimal8 feeAmount) db db') {a : Call}
    (ha : a.Charges feeAmount) (o : Oracle) : Charged (decimal8 feeAmount) db (handle a o db').2 := by
  obtain ⟨entries, hledger, hfees⟩ := h
  by_cases hentry : ∃ params, a = .createEntry params
  · obtain ⟨params, rfl⟩ := hentry
    let entry : LedgerEntry :=
      { params with id := o.uuid, createdAt := (db'.tick o).clock, amount := decimal8 params.amount }
    have hposted : (db'.tick o).ledger ++ [entry] = db.ledger ++ (entries ++ [entry]) := by
      rw [← List.append_assoc, ← hledger]
      rfl
    refine request_rule (P := Charged (decimal8 feeAmount) db) ⟨entries ++ [entry], hposted, fun e he hfee => ?_⟩
      ⟨entries, hledger, hfees⟩
    rcases List.mem_append.1 he with he | he
    · exact hfees e he hfee
    · obtain rfl := List.mem_singleton.1 he
      exact congrArg decimal8 (ha hfee)
  · have hsame : (Settlements.handle a o db').2.ledger = db'.ledger := by
      have heffect := handle_effect a o db'
      generalize (Settlements.handle a o db').2 = db'' at heffect ⊢
      cases heffect with
      | posted params entry clock => exact absurd ⟨params, rfl⟩ hentry
      | idle | created | updated | paid | reported | scheduled => rfl
    exact ⟨entries, hsame.trans hledger, hfees⟩

theorem settleIntent_charged (ctx : SettlementExecutionContext) (ω : Nat → Oracle) (n : Nat) (db : Db) :
    Charged (decimal8 ctx.feeAmount) db ((settleIntent ctx).run handle ω n db).2.2 :=
  (settleIntent_charges ctx).run_inv ω (fun _ o _ ha h => h.handle ha o) n db
    ⟨[], (List.append_nil _).symm, fun _ he => absurd he List.not_mem_nil⟩

/-- The rows and the entries of an intent hold these two amounts. -/
def HoldsAmounts (intentId : Id) (settled feeAmount : ℚ) (db : Db) : Prop :=
  (∀ row ∈ db.settlements.rows, row.intentId = intentId → row.amount = settled) ∧
  ∀ entry ∈ db.ledger, entry.intentId = intentId →
    (entry.entryType = .settlement → entry.amount = settled) ∧ (entry.entryType = .fee → entry.amount = feeAmount)

def amounts (intentId : Id) (settled feeAmount : ℚ) : Marks where
  row s := s.intentId = intentId → s.amount = settled
  entry e := e.intentId = intentId →
    (e.entryType = .settlement → e.amount = settled) ∧ (e.entryType = .fee → e.amount = feeAmount)
  set h := h

/-- A settled amount has eight decimals, so it is posted as it was inserted. -/
theorem of_amounts {ctx ctx' : SettlementExecutionContext} (h : ctx'.intent.id = ctx.intent.id → ctx' = ctx) :
    (amounts ctx.intent.id (calculateSettlementAmount ctx.intent.targetAmount ctx.merchant.feePercentage)
      (decimal8 ctx.feeAmount)).Of ctx' where
  create _ _ hid := by
    have hctx : ctx' = ctx := h hid
    rw [hctx]
    exact decimal8_calculateSettlementAmount _ _
  recordFee := by
    refine Prog.obeys_await.2 ⟨fun _ _ hid => ⟨nofun, fun _ => ?_⟩, fun r _ => by cases r <;> trivial⟩
    have hctx : ctx' = ctx := h hid
    rw [hctx]
    rfl
  recordSettlement {row} hrow := by
    refine Prog.obeys_await.2 ⟨fun _ _ hid => ⟨fun _ => ?_, nofun⟩, fun r _ => by cases r <;> trivial⟩
    have hamount : row.amount = _ := hrow hid
    exact (congrArg decimal8 hamount).trans (decimal8_calculateSettlementAmount _ _)

/-- Beside any other settlements, an intent's row and entries hold the amount that was calculated and its rest. -/
theorem settled_amounts (ctx : SettlementExecutionContext)
    (cs : List (Choice Call Answer SettlementError Unit Oracle))
    (hops : ∀ p, .spawn p ∈ cs → ∃ op : Op, op.Beside ctx ∧ p = op.task) :
    HoldsAmounts ctx.intent.id (calculateSettlementAmount ctx.intent.targetAmount ctx.merchant.feePercentage)
      (decimal8 ctx.feeAmount) (Pool.exec handle (⟨emptyDb, []⟩ : Service) cs).store := by
  refine written (amounts ctx.intent.id _ _) cs fun p hp => ?_
  obtain ⟨op, hop, rfl⟩ := hops p hp
  exact ⟨op, hop.marked fun _ => of_amounts, rfl⟩

/-! ## Both amounts together -/

/-- A percentage that a merchant can be charged. -/
abbrev FeePercentage : Type := Set.Icc (0 : ℚ) 100

theorem rest_le (units : ℕ) (fee : FeePercentage) : (units : ℚ) * (1 - fee / 100) ≤ units :=
  mul_le_of_le_one_right (Nat.cast_nonneg units) (by linarith [fee.2.1])

theorem rest_nonneg (units : ℕ) (fee : FeePercentage) : 0 ≤ (units : ℚ) * (1 - fee / 100) :=
  mul_nonneg (Nat.cast_nonneg units) (by linarith [fee.2.2])

theorem exists_units (units : ℕ) (fee : FeePercentage) :
    ∃ n : ℕ, n ≤ units ∧ mathRound (units * (1 - fee / 100)) = n := by
  have hnonneg : 0 ≤ mathRound (units * (1 - fee / 100)) := by
    simpa using mathRound_mono (rest_nonneg units fee)
  have hle : mathRound (units * (1 - fee / 100)) ≤ units := by
    simpa using mathRound_mono (rest_le units fee)
  rw [mathRound_eq] at hnonneg hle ⊢
  obtain ⟨n, hn⟩ := Int.eq_ofNat_of_zero_le (Int.cast_nonneg_iff.1 hnonneg)
  rw [hn] at hle ⊢
  exact ⟨n, by exact_mod_cast hle, rfl⟩

section
variable (units : ℕ) (fee : FeePercentage)

/-- The rounding is off by at most half a unit. -/
theorem abs_calculateSettlementAmount_sub_le (fee : ℚ) :
    |calculateSettlementAmount (units / 10 ^ 8) fee - units / 10 ^ 8 * (1 - fee / 100)| ≤ 1 / 2 / 10 ^ 8 := by
  have hscale : (units : ℚ) / 10 ^ 8 * (1 - fee / 100) = units * (1 - fee / 100) / 10 ^ 8 := by ring
  rw [calculateSettlementAmount_eq, hscale, ← sub_div, abs_div, abs_of_pos (by positivity : (0 : ℚ) < 10 ^ 8)]
  exact div_le_div_of_nonneg_right (abs_mathRound_sub_le _) (by positivity)

theorem calculateSettlementAmount_mono :
    Monotone fun units : ℕ => calculateSettlementAmount (units / 10 ^ 8) fee := by
  intro units units' h
  simp only [calculateSettlementAmount_eq]
  refine div_le_div_of_nonneg_right (mathRound_mono ?_) (by positivity)
  exact mul_le_mul_of_nonneg_right (Nat.cast_le.2 h) (by linarith [fee.2.2])

theorem calculateSettlementAmount_anti :
    Antitone fun fee : FeePercentage => calculateSettlementAmount (units / 10 ^ 8) fee := by
  intro fee fee' h
  have h' : (fee : ℚ) ≤ fee' := h
  simp only [calculateSettlementAmount_eq]
  refine div_le_div_of_nonneg_right (mathRound_mono ?_) (by positivity)
  exact mul_le_mul_of_nonneg_left (by linarith) (Nat.cast_nonneg units)

theorem calculateSettlementAmount_zero : calculateSettlementAmount (units / 10 ^ 8) 0 = units / 10 ^ 8 := by
  simp [calculateSettlementAmount_eq]

end

/-- **The settlement and the fee**: of a target amount in units of the eighth decimal, `settleIntent` settles a part
and records the rest as its fee, neither of them negative. The part is in whole units as well, is off by at most half
a unit, grows with the target amount and shrinks with the percentage; with no fee to record it is all of it. Whatever
runs beside it, the rows and the `SETTLEMENT` entries of the intent hold the part and its `FEE` entries the rest. -/
theorem settlement_and_fee (units : ℕ) (fee : FeePercentage) :
    let target : ℚ := units / 10 ^ 8
    let settled := calculateSettlementAmount target fee
    0 ≤ settled ∧ settled ≤ target ∧ (∃ n : ℕ, settled = n / 10 ^ 8) ∧
      |settled - target * (1 - fee / 100)| ≤ 1 / 2 / 10 ^ 8 ∧
      Monotone (fun units : ℕ => calculateSettlementAmount (units / 10 ^ 8) fee) ∧
      Antitone (fun fee : FeePercentage => calculateSettlementAmount target fee) ∧
      calculateSettlementAmount target 0 = target ∧
      ∀ ctx : SettlementExecutionContext,
        (∀ (ω : Nat → Oracle) (db : Db),
          Charged (target - settled) db ((settleIntent (ctx.charging target fee)).run handle ω 0 db).2.2) ∧
        ∀ cs : List (Choice Call Answer SettlementError Unit Oracle),
          (∀ p, .spawn p ∈ cs → ∃ op : Op, op.Beside (ctx.charging target fee) ∧ p = op.task) →
          HoldsAmounts ctx.intent.id settled (target - settled)
            (Pool.exec handle (⟨emptyDb, []⟩ : Service) cs).store := by
  intro target settled
  obtain ⟨n, hle, hn⟩ := exists_units units fee
  have hsettled : settled = n / 10 ^ 8 := by rw [← hn, ← calculateSettlementAmount_eq]
  have hle' : (n : ℚ) ≤ units := Nat.cast_le.2 hle
  refine ⟨?_, ?_, ⟨n, hsettled⟩, abs_calculateSettlementAmount_sub_le units fee, calculateSettlementAmount_mono fee,
    calculateSettlementAmount_anti units, calculateSettlementAmount_zero units, fun ctx => ?_⟩
  · rw [hsettled]
    positivity
  · rw [hsettled]
    exact div_le_div_of_nonneg_right hle' (by positivity)
  · have hfee : (ctx.charging target fee).feeAmount = ((units - n : ℤ) : ℚ) / 10 ^ 8 := by
      push_cast
      rw [sub_div, ← hsettled]
      rfl
    have hrest : decimal8 (ctx.charging target fee).feeAmount = target - settled := by
      rw [hfee, decimal8_units, ← hfee]
      rfl
    rw [← hrest]
    exact ⟨fun ω db => settleIntent_charged (ctx.charging target fee) ω 0 db,
      fun cs hops => settled_amounts (ctx.charging target fee) cs hops⟩

end NexoraGateway.Settlements
