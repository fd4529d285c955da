import NexoraGateway.Settlements.Ledger

/-!
# Escrow and merchant balances

What the postings of `ledger.service.ts` leave in `pending:{intent}` and `merchant:{id}`. The comments of the
`record…` functions say which balance each of them increases and which it decreases (`increased`, `decreased`);
`getBalance` counts debits up and credits down.

* `escrow_cleared_iff` — an intent whose deposit was settled or refunded.
* `documented_iff` — the directions of the comments, and the merchant balance that follows from them.
-/
namespace NexoraGateway.Settlements

open Async

/-- The postings that a history has executed. -/
def recorded (history : List (Posting × Oracle)) : List Posting :=
  (history.filter fun x => x.2.Executes).map Prod.fst

/-- The postings in one asset, as the books have them. -/
def entries (ps : List Posting) (asset : String) : List (Books.Posting String ℚ) :=
  (ps.filter fun p => p.asset = asset).map Posting.entry

theorem inAsset_exec (db : Db) (history : List (Posting × Oracle)) (asset : String) :
    inAsset (Runs.exec post db history).ledger asset = inAsset db.ledger asset ++ entries (recorded history) asset := by
  induction history generalizing db with
  | nil => simp [recorded, entries]
  | cons x history ih =>
    obtain ⟨p, o⟩ := x
    rw [Runs.exec_cons, ih]
    rcases post_ledger db p o with ⟨ho, row, hrow, hledger⟩ | ⟨ho, hledger⟩
    · rw [hledger, inAsset_append, hrow.asset, hrow.entry, List.append_assoc]
      congr 1
      by_cases hasset : p.asset = asset <;> simp [recorded, entries, ho, hasset]
    · rw [hledger]
      simp [recorded, entries, ho]

/-- A balance, from the postings executed so far. -/
theorem getBalance_exec (history : List (Posting × Oracle)) (accountId asset : String) :
    getBalance (Runs.exec post emptyDb history).ledger accountId asset =
      Books.books (entries (recorded history) asset) accountId := by
  rw [getBalance_eq, inAsset_exec]
  rfl

/-- What a posting adds to the balance of an account in an asset. -/
def Posting.adds (accountId asset : String) (p : Posting) : ℚ :=
  if p.asset = asset then (if p.debit = accountId then decimal8 p.amount else 0)
    - (if p.credit = accountId then decimal8 p.amount else 0) else 0

theorem getBalance_sum (history : List (Posting × Oracle)) (accountId asset : String) :
    getBalance (Runs.exec post emptyDb history).ledger accountId asset =
      ((recorded history).map (Posting.adds accountId asset)).sum := by
  rw [getBalance_exec, Books.books_sum, entries, List.map_map]
  induction recorded history with
  | nil => rfl
  | cons p ps ih =>
    have heffect : p.entry.effect accountId = _ := Books.effect_apply p.entry accountId
    by_cases hasset : p.asset = asset
    · simp only [hasset, decide_true, List.filter_cons_of_pos, List.map_cons, List.sum_cons, ih, Posting.adds, if_true,
        Function.comp_apply, heffect]
      rfl
    · simp [hasset, ih, Posting.adds]

section
variable {p : Posting} {accountId : String} (asset : String)

theorem adds_other (hdebit : p.debit ≠ accountId) (hcredit : p.credit ≠ accountId) : p.adds accountId asset = 0 := by
  simp [Posting.adds, hdebit, hcredit]

theorem adds_debit (hcredit : p.credit ≠ accountId) :
    p.adds accountId asset = if p.debit = accountId ∧ p.asset = asset then decimal8 p.amount else 0 := by
  by_cases hasset : p.asset = asset <;> simp [Posting.adds, hcredit, hasset]

theorem adds_credit (hdebit : p.debit ≠ accountId) :
    p.adds accountId asset = if p.credit = accountId ∧ p.asset = asset then -decimal8 p.amount else 0 := by
  by_cases hasset : p.asset = asset
  · by_cases hcredit : p.credit = accountId <;> simp [Posting.adds, hdebit, hcredit, hasset]
  · simp [Posting.adds, hasset]

end

/-- The accounts of a gain or a loss are of neither kind. -/
theorem fx_adds {kind : String} (hrevenue : ∀ id id', "revenue:" ++ id' ≠ kind ++ id)
    (hexpense : ∀ id id', "expense:" ++ id' ≠ kind ++ id) (id intentId : Id) (asset asset' chain : String) (gain : ℚ) :
    (Posting.fxGainLoss intentId asset chain gain).adds (kind ++ id) asset' = 0 := by
  have hfx : "revenue:fx" ≠ kind ++ id := hrevenue id "fx"
  have hfx' : "expense:fx" ≠ kind ++ id := hexpense id "fx"
  apply adds_other <;> simp only [Posting.debit, Posting.credit] <;> split <;> assumption

/-! ## The escrow of an intent -/

/-- What a posting adds to `pending:{intent}`. -/
def Posting.escrow (intent : Id) (asset : String) : Posting → ℚ
  | .deposit d => if d.intentId = intent ∧ d.asset = asset then decimal8 d.amount else 0
  | .settlement s => if s.intentId = intent ∧ s.asset = asset then decimal8 s.amount else 0
  | _ => 0

theorem adds_pending (intent : Id) (asset : String) :
    Posting.adds ("pending:" ++ intent) asset = Posting.escrow intent asset := by
  funext p
  have hcustomer (id : Id) : "customer:" ++ id ≠ "pending:" ++ intent := Posting.account_ne (by decide) (by decide)
  have hmerchant (id : Id) : "merchant:" ++ id ≠ "pending:" ++ intent := Posting.account_ne (by decide) (by decide)
  have hrevenue (id id' : Id) : "revenue:" ++ id' ≠ "pending:" ++ id := Posting.account_ne (by decide) (by decide)
  have hexpense (id id' : Id) : "expense:" ++ id' ≠ "pending:" ++ id := Posting.account_ne (by decide) (by decide)
  cases p with
  | deposit d =>
    rw [adds_debit (p := .deposit d) asset (hcustomer d.customerId)]
    simp [Posting.escrow, Posting.debit, Posting.asset, Posting.amount]
  | settlement s =>
    rw [adds_debit (p := .settlement s) asset (hmerchant s.merchantId)]
    simp [Posting.escrow, Posting.debit, Posting.asset, Posting.amount]
  | fee f => exact adds_other asset (hmerchant f.merchantId) (hrevenue intent "fees")
  | refund r => exact adds_other asset (hmerchant r.merchantId) (hcustomer r.customerId)
  | fxGainLoss intentId asset' chain gain => exact fx_adds hrevenue hexpense intent intentId asset' asset chain gain

/-- The escrow of an intent depends on its own postings alone. -/
theorem escrow_own (ps : List Posting) (intent : Id) (asset : String) :
    (ps.map (Posting.escrow intent asset)).sum =
      ((ps.filter fun p => p.intentId = intent).map (Posting.escrow intent asset)).sum := by
  induction ps with
  | nil => rfl
  | cons p ps ih =>
    by_cases hp : p.intentId = intent
    · simp [hp, ih]
    · have hzero : p.escrow intent asset = 0 := by
        cases p <;> simp_all [Posting.escrow, Posting.intentId]
      simp [hp, ih, hzero]

/-- The postings of an intent whose deposit is fully disposed of: settled for `s` with a fee of the rest, which
need not be posted when there is no rest, or refunded. -/
inductive Disposed (d : DepositRecord) : List Posting → Prop
  | settled (f : FeeRecord) (s : Settlement) (hnonneg : 0 ≤ s.amount) (hle : s.amount ≤ d.amount)
      (hfee : f.amount = d.amount - s.amount) : Disposed d [.deposit d, .fee f, .settlement s]
  | unpaid (s : Settlement) (hamount : s.amount = d.amount) : Disposed d [.deposit d, .settlement s]
  | refunded (r : RefundRecord) (hamount : r.amount = d.amount) : Disposed d [.deposit d, .refund r]

/-- A deposit and a settlement out of it are stored as nothing exactly when the deposit is. -/
theorem stored_zero_iff {amount settled : ℚ} (hd : 0 ≤ amount) (hs : 0 ≤ settled) (hle : settled ≤ amount) :
    decimal8 amount + decimal8 settled = 0 ↔ decimal8 amount = 0 := by
  have hstored := decimal8_nonneg hd
  have hstored' := decimal8_nonneg hs
  constructor
  · intro h
    linarith
  · intro h
    have hlt := lt_of_le_of_lt hle ((decimal8_eq_zero_iff hd).1 h)
    rw [h, (decimal8_eq_zero_iff hs).2 hlt, add_zero]

/-- **What stays in escrow**: an intent whose deposit was settled or refunded, once each, has an empty escrow only
if the deposit was less than half a unit of the eighth decimal. -/
theorem escrow_cleared_iff (history : List (Posting × Oracle)) (d : DepositRecord) (hd : 0 ≤ d.amount)
    (own : List Posting) (hown : Disposed d own)
    (hperm : ((recorded history).filter fun p => p.intentId = d.intentId).Perm own) :
    getBalance (Runs.exec post emptyDb history).ledger ("pending:" ++ d.intentId) d.asset = 0 ↔
      d.amount < 1 / (2 * 10 ^ 8) := by
  have hbalance : getBalance (Runs.exec post emptyDb history).ledger ("pending:" ++ d.intentId) d.asset =
      (own.map (Posting.escrow d.intentId d.asset)).sum := by
    rw [getBalance_sum, adds_pending, escrow_own]
    exact (hperm.map _).sum_eq
  have hintent : ∀ p ∈ own, p.intentId = d.intentId := fun p hp => by
    simpa using (List.mem_filter.1 (hperm.mem_iff.2 hp)).2
  rw [hbalance, ← decimal8_eq_zero_iff hd]
  cases hown with
  | refunded r hamount => simp [Posting.escrow]
  | unpaid s hamount =>
    have hs : s.intentId = d.intentId := hintent (.settlement s) (by simp)
    have hstored := stored_zero_iff hd (hamount ▸ hd) hamount.le
    by_cases hasset : s.asset = d.asset <;> simp [Posting.escrow, hs, hasset, hstored]
  | settled f s hnonneg hle hfee =>
    have hs : s.intentId = d.intentId := hintent (.settlement s) (by simp)
    have hstored := stored_zero_iff hd hnonneg hle
    by_cases hasset : s.asset = d.asset <;> simp [Posting.escrow, hs, hasset, hstored]

/-- A deposit of 100 USDC for the order of `shop`, and what becomes of it. -/
def deposited : DepositRecord := ⟨"pi", 100, "USDC", "ethereum", "customer", "0xtx", "0xfrom"⟩

def charged : FeeRecord := ⟨"pi", 1, "USDC", "ethereum", "shop", "PLATFORM", 1⟩

def settled : Settlement :=
  { id := "s", intentId := "pi", merchantId := "shop", amount := 99, asset := "USDC", chain := "ethereum"
    destinationAddress := "0xshop", createdAt := 0, updatedAt := 0 }

def refunded : RefundRecord := ⟨"pi", 100, "USDC", "ethereum", "shop", "customer", "0xtx", "cancelled"⟩

/-- After the deposit, the fee and the settlement of the order. -/
def settledHistory : List (Posting × Oracle) :=
  [(.deposit deposited, {}), (.fee charged, {}), (.settlement settled, {})]

theorem escrow_not_cleared : getBalance (Runs.exec post emptyDb settledHistory).ledger "pending:pi" "USDC" = 199 ∧
    getBalance (Runs.exec post emptyDb [(.deposit deposited, {}), (.refund refunded, {})]).ledger "pending:pi" "USDC"
      = 100 := by
  decide +kernel

theorem escrow_cleared_iff_order :
    getBalance (Runs.exec post emptyDb settledHistory).ledger ("pending:" ++ deposited.intentId) deposited.asset = 0 ↔
      deposited.amount < 1 / (2 * 10 ^ 8) :=
  escrow_cleared_iff settledHistory deposited (by decide +kernel) _
    (.settled charged settled (by decide +kernel) (by decide +kernel) (by decide +kernel)) (by rfl)

/-! ## The directions of the comments -/

/-- The balance that the comment of a `record…` function says increases. -/
def Posting.increased : Posting → Option String
  | deposit d => some ("pending:" ++ d.intentId)
  | fee _ => some "revenue:fees"
  | settlement s => some ("merchant:" ++ s.merchantId)
  | refund r => some ("customer:" ++ r.customerId)
  | fxGainLoss .. => none

/-- The balance that it says decreases. -/
def Posting.decreased : Posting → Option String
  | deposit d => some ("customer:" ++ d.customerId)
  | fee f => some ("merchant:" ++ f.merchantId)
  | settlement s => some ("pending:" ++ s.intentId)
  | refund r => some ("merchant:" ++ r.merchantId)
  | fxGainLoss .. => none

/-- How a call changes a balance in its own asset. -/
def change (db : Db) (p : Posting) (o : Oracle) (accountId : String) : ℚ :=
  getBalance (post db (p, o)).ledger accountId p.asset - getBalance db.ledger accountId p.asset

/-- A call changes balances in the directions of its comment. -/
def Documented (db : Db) (p : Posting) (o : Oracle) : Prop :=
  (∀ a ∈ p.increased, 0 < change db p o a) ∧ ∀ a ∈ p.decreased, change db p o a < 0

instance (db : Db) (p : Posting) (o : Oracle) : Decidable (Documented db p o) := inferInstanceAs (Decidable (_ ∧ _))

section
variable {db : Db} {p : Posting} {o : Oracle} (ho : o.Executes)
include ho

theorem change_eq (accountId : String) : change db p o accountId = p.entry.effect accountId := by
  rcases post_ledger db p o with ⟨_, row, hrow, hledger⟩ | ⟨hnot, _⟩
  · rw [change, hledger, getBalance_append _ hrow, if_pos rfl, add_sub_cancel_left]
  · exact absurd ho hnot

theorem change_debit : change db p o p.debit = decimal8 p.amount :=
  (change_eq ho _).trans (Books.Posting.effect_debit p.debit_ne_credit)

theorem change_credit : change db p o p.credit = -decimal8 p.amount :=
  (change_eq ho _).trans (Books.Posting.effect_credit p.debit_ne_credit)

end

/-- The postings that keep to their comments: deposits that are not stored as nothing. A gain or a loss has no
direction to keep to. -/
def Posting.Agrees : Posting → Prop
  | deposit d => 1 / (2 * 10 ^ 8) ≤ d.amount
  | fxGainLoss .. => True
  | _ => False

theorem documented_of_agrees {db : Db} {p : Posting} {o : Oracle} (ho : o.Executes) (hp : 0 < p.amount) :
    Documented db p o ↔ p.Agrees := by
  have hdebit : change db p o p.debit = decimal8 p.amount := change_debit ho
  have hcredit : change db p o p.credit = -decimal8 p.amount := change_credit ho
  have hnonneg := decimal8_nonneg hp.le
  cases p with
  | deposit d =>
    have hzero := decimal8_eq_zero_iff hp.le
    simp only [Posting.debit, Posting.credit, Posting.amount] at *
    simp only [Documented, Posting.increased, Posting.decreased, Posting.Agrees, Option.mem_some_iff, forall_eq',
      hdebit, hcredit, Left.neg_neg_iff, and_self]
    rw [← not_lt, ← hzero]
    exact ⟨fun h => h.ne', fun h => lt_of_le_of_ne hnonneg (Ne.symm h)⟩
  | fxGainLoss intentId asset chain gain => simp [Documented, Posting.increased, Posting.decreased, Posting.Agrees]
  | _ =>
    simp only [Posting.debit, Posting.credit, Posting.amount] at *
    simp only [Documented, Posting.increased, Posting.decreased, Posting.Agrees, Option.mem_some_iff, forall_eq',
      hdebit, hcredit, iff_false, not_and, not_lt]
    intro _
    exact hnonneg

/-! ## The balance of a merchant -/

section
variable (merchantId asset : String)

/-- The part of a posting that is a settlement to the merchant, as it is stored. -/
def Posting.settledTo : Posting → ℚ
  | settlement s => if s.merchantId = merchantId ∧ s.asset = asset then decimal8 s.amount else 0
  | _ => 0

/-- The part that is a fee of the merchant. -/
def Posting.chargedTo : Posting → ℚ
  | fee f => if f.merchantId = merchantId ∧ f.asset = asset then decimal8 f.amount else 0
  | _ => 0

/-- The part that is a refund of the merchant. -/
def Posting.refundedBy : Posting → ℚ
  | refund r => if r.merchantId = merchantId ∧ r.asset = asset then decimal8 r.amount else 0
  | _ => 0

theorem adds_merchant (p : Posting) : p.adds ("merchant:" ++ merchantId) asset =
    p.chargedTo merchantId asset + p.refundedBy merchantId asset - p.settledTo merchantId asset := by
  have hcustomer (id : Id) : "customer:" ++ id ≠ "merchant:" ++ merchantId := Posting.account_ne (by decide) (by decide)
  have hpending (id : Id) : "pending:" ++ id ≠ "merchant:" ++ merchantId := Posting.account_ne (by decide) (by decide)
  have hrevenue (id id' : Id) : "revenue:" ++ id' ≠ "merchant:" ++ id := Posting.account_ne (by decide) (by decide)
  have hexpense (id id' : Id) : "expense:" ++ id' ≠ "merchant:" ++ id := Posting.account_ne (by decide) (by decide)
  cases p with
  | deposit d =>
    rw [adds_other (p := .deposit d) asset (hpending d.intentId) (hcustomer d.customerId)]
    simp [Posting.settledTo, Posting.chargedTo, Posting.refundedBy]
  | fee f =>
    rw [adds_debit (p := .fee f) asset (hrevenue merchantId "fees")]
    simp [Posting.settledTo, Posting.chargedTo, Posting.refundedBy, Posting.debit, Posting.asset, Posting.amount]
  | settlement s =>
    rw [adds_credit (p := .settlement s) asset (hpending s.intentId)]
    simp only [Posting.settledTo, Posting.chargedTo, Posting.refundedBy, Posting.credit, Posting.asset, Posting.amount,
      String.append_right_inj]
    split <;> simp
  | refund r =>
    rw [adds_debit (p := .refund r) asset (hcustomer r.customerId)]
    simp [Posting.settledTo, Posting.chargedTo, Posting.refundedBy, Posting.debit, Posting.asset, Posting.amount]
  | fxGainLoss intentId asset' chain gain =>
    rw [fx_adds hrevenue hexpense]
    simp [Posting.settledTo, Posting.chargedTo, Posting.refundedBy]

/-- What a history has settled, charged and refunded. -/
def total (part : Posting → ℚ) (history : List (Posting × Oracle)) : ℚ := ((recorded history).map part).sum

/-- The merchant balance that the query answers: fees and refunds count up, settlements down. -/
theorem merchantBalance_eq (history : List (Posting × Oracle)) :
    getMerchantBalance (Runs.exec post emptyDb history).ledger merchantId asset =
      total (Posting.chargedTo merchantId asset) history + total (Posting.refundedBy merchantId asset) history
        - total (Posting.settledTo merchantId asset) history := by
  rw [getMerchantBalance, getBalance_sum, total, total, total]
  induction recorded history with
  | nil => simp
  | cons p ps ih =>
    simp only [List.map_cons, List.sum_cons, ih, adds_merchant]
    ring

end

/-- **The directions of the comments**, after any history: a posting keeps to its comment exactly if it is a deposit
that is not stored as nothing, and a merchant's balance is settlements less fees and refunds exactly if they are
equal. -/
theorem documented_iff (history : List (Posting × Oracle)) (p : Posting) (o : Oracle) (ho : o.Executes)
    (hp : 0 < p.amount) (merchantId asset : String) :
    (Documented (Runs.exec post emptyDb history) p o ↔ p.Agrees) ∧
    (getMerchantBalance (Runs.exec post emptyDb history).ledger merchantId asset =
        total (Posting.settledTo merchantId asset) history - total (Posting.chargedTo merchantId asset) history
          - total (Posting.refundedBy merchantId asset) history ↔
      total (Posting.settledTo merchantId asset) history =
        total (Posting.chargedTo merchantId asset) history + total (Posting.refundedBy merchantId asset) history) := by
  refine ⟨documented_of_agrees ho hp, ?_⟩
  rw [merchantBalance_eq]
  constructor
  · intro h
    linarith
  · intro h
    linarith

/-- Charging a fee of 1 raises the merchant's balance, and paying 99 out lowers it to -98. -/
theorem not_documented : ¬ Documented (Runs.exec post emptyDb [(.deposit deposited, {})]) (.fee charged) {} ∧
    getMerchantBalance (Runs.exec post emptyDb settledHistory).ledger "shop" "USDC" = -98 := by
  decide +kernel

theorem documented_iff_order : (Documented (Runs.exec post emptyDb settledHistory) (.deposit deposited) {} ↔
      Posting.Agrees (.deposit deposited)) ∧
    (getMerchantBalance (Runs.exec post emptyDb settledHistory).ledger "shop" "USDC" =
        total (Posting.settledTo "shop" "USDC") settledHistory - total (Posting.chargedTo "shop" "USDC") settledHistory
          - total (Posting.refundedBy "shop" "USDC") settledHistory ↔
      total (Posting.settledTo "shop" "USDC") settledHistory =
        total (Posting.chargedTo "shop" "USDC") settledHistory
          + total (Posting.refundedBy "shop" "USDC") settledHistory) :=
  documented_iff settledHistory (.deposit deposited) {} (.inl rfl) (by decide +kernel) "shop" "USDC"

end NexoraGateway.Settlements
