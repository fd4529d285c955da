import NexoraGateway.Intent.Service
import NexoraGateway.Settlements.Escrow
import NexoraGateway.Settlements.Written

/-!
# The units of a settlement

`settleIntent` computes its amount from the intent's `target_amount` and labels it with the merchant's
`settlement_asset` and `settlement_chain`; the transaction it signs carries that amount as a decimal string, which
the EVM client reads with `BigInt`.

* `denominated_iff` — when the rows and entries of an intent are in the unit of its amount.
* `value_iff` — when the value of the transaction is the amount in base units.
-/
namespace NexoraGateway.Settlements

open Async Store

/-! ## The asset and the chain of a settlement -/

/-- The rows and entries of an intent are in one asset on one chain. -/
def Denominated (asset chain : String) (intentId : Id) (db : Db) : Prop :=
  (∀ row ∈ db.settlements.rows, row.intentId = intentId → row.asset = asset ∧ row.chain = chain) ∧
  ∀ entry ∈ db.ledger, entry.intentId = intentId → entry.asset = asset ∧ entry.chain = chain

/-- The marks of a unit: what is the intent's is in this asset on this chain. -/
def unit (asset chain : String) (intentId : Id) : Marks where
  row s := s.intentId = intentId → s.asset = asset ∧ s.chain = chain
  entry e := e.intentId = intentId → e.asset = asset ∧ e.chain = chain
  set h := h

/-- Whatever the intent, a context settles it in its merchant's unit. -/
theorem of_unit {ctx ctx' : SettlementExecutionContext} (h : ctx'.intent.id = ctx.intent.id → ctx' = ctx) :
    (unit ctx.merchant.settlementAsset ctx.merchant.settlementChain ctx.intent.id).Of ctx' := by
  have hctx (hid : ctx'.intent.id = ctx.intent.id) :
      ctx'.merchant.settlementAsset = ctx.merchant.settlementAsset ∧
        ctx'.merchant.settlementChain = ctx.merchant.settlementChain := by
    rw [h hid]
    exact ⟨rfl, rfl⟩
  exact
    { create := fun _ _ => hctx
      recordFee := Prog.obeys_await.2 ⟨fun _ _ => hctx, fun r _ => by cases r <;> trivial⟩
      recordSettlement := fun hrow => Prog.obeys_await.2 ⟨fun _ _ => hrow, fun r _ => by cases r <;> trivial⟩ }

/-- Beside any other settlements, an intent is settled in the merchant's asset on the merchant's chain. -/
theorem settled_in (ctx : SettlementExecutionContext) (cs : List (Choice Call Answer SettlementError Unit Oracle))
    (hops : ∀ p, .spawn p ∈ cs → ∃ op : Op, op.Beside ctx ∧ p = op.task) :
    Denominated ctx.merchant.settlementAsset ctx.merchant.settlementChain ctx.intent.id
      (Pool.exec handle (⟨emptyDb, []⟩ : Service) cs).store := by
  refine written (unit ctx.merchant.settlementAsset ctx.merchant.settlementChain ctx.intent.id) cs fun p hp => ?_
  obtain ⟨op, hop, rfl⟩ := hops p hp
  exact ⟨op, hop.marked fun _ => of_unit, rfl⟩

/-- **The unit of a settlement**: the rows and entries of an intent are always in its target asset on its target
chain exactly if these are the merchant's settlement asset and chain. -/
theorem denominated_iff (ctx : SettlementExecutionContext) :
    (∀ cs : List (Choice Call Answer SettlementError Unit Oracle),
      (∀ p, .spawn p ∈ cs → ∃ op : Op, op.Beside ctx ∧ p = op.task) →
      Denominated ctx.intent.targetAsset ctx.intent.targetChain ctx.intent.id
        (Pool.exec handle (⟨emptyDb, []⟩ : Service) cs).store) ↔
    ctx.merchant.settlementAsset = ctx.intent.targetAsset ∧ ctx.merchant.settlementChain = ctx.intent.targetChain := by
  constructor
  · intro h
    -- the row is inserted in the first call
    let cs : List (Choice Call Answer SettlementError Unit Oracle) :=
      [.spawn (Op.settleIntent ctx).task, .step 0 { uuid := "s" }]
    have hops : ∀ p, .spawn p ∈ cs → ∃ op : Op, op.Beside ctx ∧ p = op.task := by
      intro p hp
      simp only [cs, List.mem_cons, Choice.spawn.injEq, reduceCtorEq, List.not_mem_nil, or_false] at hp
      exact ⟨.settleIntent ctx, fun _ => rfl, hp⟩
    exact (h cs hops).1 { newSettlement { uuid := "s" } (createParams ctx) 0 with
      amount := decimal8 (createParams ctx).amount } (List.mem_singleton_self _) rfl
  · rintro ⟨hasset, hchain⟩ cs hops
    have hsettled := settled_in ctx cs hops
    rwa [hasset, hchain] at hsettled

/-- A shop that prices in USDC and is settled in ETH. -/
def ethShop : Intent.MerchantConfig :=
  { shop with settlementAsset := "ETH", acceptedChains := ["ethereum"], acceptedAssets := ["USDC"] }

/-- What each call meets when the chain confirms at the first poll. -/
def deepEnough : Oracle := { uuid := "s", status := { txHash := "", status := .confirmed, confirmations := 12 } }

/-- Its order over 100 USDC is accepted, and is settled with 99 ETH. -/
theorem settled_elsewhere : ∃ intent,
    ((Intent.createIntent ⟨"shop", "order-1", 100, "USDC", "ethereum", ["USDC"]⟩).run Intent.handle
      (fun _ => { now := 0, uuid := "pi" }) 0
      { intents := .empty, events := [], deliveries := .empty
        merchants := ⟨[ethShop], List.nodup_singleton _⟩ }).1.toOption = some intent ∧
    let db := ((settleIntent ⟨intent, ethShop, ⟨12⟩⟩).run handle (fun _ => deepEnough) 0 emptyDb).2.2
    db.settlements.rows.map (fun row => (row.amount, row.asset)) = [(99, "ETH")] ∧
      db.ledger.map (fun entry => (entry.amount, entry.asset)) = [(1, "ETH"), (99, "ETH")] := by
  refine ⟨{ order with state := .created, version := 1, updatedAt := 0 }, ?_, ?_⟩
  · decide +kernel
  · decide +kernel

/-! ## The value of the transaction -/

/-- The number that a row of digits stands for. -/
def digits? (cs : List Char) : Option ℕ :=
  if cs ≠ [] ∧ cs.all Char.isDigit then some (Nat.ofDigitChars 10 cs 0) else none

/-- `BigInt(s)`, or `none` where it throws: a numeral has none of the blanks and radix prefixes that it also takes. -/
def bigInt (s : String) : Option ℤ :=
  match s.toList with
  | '-' :: cs => (digits? cs).map fun n => -(n : ℤ)
  | cs => (digits? cs).map fun n => (n : ℤ)

/-- The `value` in `estimateGas` (evm-chain-client.ts:156). -/
def gasValue (tx : UnsignedTx) : Option ℤ := if tx.value = "0" then some 0 else bigInt tx.value

theorem digits?_of_all {cs : List Char} (hne : cs ≠ []) (h : ∀ c ∈ cs, c.isDigit) :
    digits? cs = some (Nat.ofDigitChars 10 cs 0) := by
  simpa [digits?, hne] using h

theorem bigInt_eq_none {s : String} {c : Char} (hc : c ∈ s.toList) (hdigit : c.isDigit = false) (hsign : c ≠ '-') :
    bigInt s = none := by
  have hnone {cs : List Char} (hmem : c ∈ cs) : digits? cs = none := by
    simp only [digits?, ite_eq_right_iff, reduceCtorEq, imp_false, not_and, List.all_eq_true, not_forall]
    exact fun _ => ⟨c, hmem, by simp [hdigit]⟩
  unfold bigInt
  split
  · rename_i cs hcs
    rw [hcs, List.mem_cons] at hc
    rw [hnone (hc.resolve_left hsign)]
    rfl
  · rw [hnone hc]
    rfl

theorem bigInt_digits {cs : List Char} (hne : cs ≠ []) (h : ∀ c ∈ cs, c.isDigit) :
    bigInt (String.ofList cs) = some (Nat.ofDigitChars 10 cs 0 : ℤ) ∧
      bigInt ("-" ++ String.ofList cs) = some (-(Nat.ofDigitChars 10 cs 0 : ℤ)) := by
  constructor
  · unfold bigInt
    split
    · rename_i cs' hcs
      simp only [String.toList_ofList] at hcs
      exact absurd (h '-' (hcs ▸ List.mem_cons_self)) (by decide)
    · simp [digits?_of_all hne h]
  · simp [bigInt, digits?_of_all hne h]

theorem isDigit_of_mem_toDigits {n : ℕ} {c : Char} (hc : c ∈ Nat.toDigits 10 n) : c.isDigit :=
  Nat.isDigit_of_mem_toDigits (by decide) (by decide) hc

/-- An integer's numeral converts back. -/
theorem bigInt_toString (n : ℤ) : bigInt (toString n) = some n := by
  have hback (m : ℕ) : toString m = String.ofList (Nat.toDigits 10 m) := Nat.toString_eq_ofList_toDigits
  have hbig (m : ℕ) := bigInt_digits (Nat.toDigits_ne_nil (n := m) (b := 10)) fun c hc => isDigit_of_mem_toDigits hc
  cases n with
  | ofNat m =>
    have hstring : toString (Int.ofNat m) = toString m := rfl
    rw [hstring, hback, (hbig m).1, Nat.ofDigitChars_ten_toDigits]
    rfl
  | negSucc m =>
    have hstring : toString (Int.negSucc m) = "-" ++ toString (m + 1) := rfl
    rw [hstring, hback, (hbig (m + 1)).2, Nat.ofDigitChars_ten_toDigits]
    rfl

/-- A row of digits is what `strip` leaves of it, and zeros. -/
theorem strip_zeros (cs : List Char) : ∃ z, cs = (cs.reverse.dropWhile (· = '0')).reverse ++ List.replicate z '0' := by
  have hsplit := congrArg List.reverse (List.takeWhile_append_dropWhile (p := (· = '0')) (l := cs.reverse)).symm
  rw [List.reverse_reverse, List.reverse_append] at hsplit
  have hzeros : (cs.reverse.takeWhile (· = '0')).reverse =
      List.replicate (cs.reverse.takeWhile (· = '0')).reverse.length '0' := by
    refine List.eq_replicate_of_mem fun c hc => ?_
    simpa using List.all_eq_true.1 List.all_takeWhile c (List.mem_reverse.1 hc)
  exact ⟨_, hzeros ▸ hsplit⟩

/-- Digits, and what is left of the zeros behind them when eight of these are decimals. -/
theorem bigInt_whole {q : ℚ} {units v : ℤ} {cs : List Char} {k : ℕ} (hq : q = units / 10 ^ 8) (hne : cs ≠ [])
    (hdigits : ∀ c ∈ cs, c.isDigit) (hvalue : units.natAbs = 10 ^ (8 + k) * Nat.ofDigitChars 10 cs 0)
    (hv : bigInt ((if q < 0 then "-" else "") ++ String.ofList (cs ++ List.replicate k '0')) = some v) :
    (v : ℚ) = q := by
  have hall : ∀ c ∈ cs ++ List.replicate k '0', c.isDigit := by
    intro c hc
    rcases List.mem_append.1 hc with hc | hc
    · exact hdigits c hc
    · rw [(List.mem_replicate.1 hc).2]
      decide
  obtain ⟨hpos, hneg⟩ := @bigInt_digits (cs ++ List.replicate k '0') (by simp [hne]) hall
  have hscale : Nat.ofDigitChars 10 (cs ++ List.replicate k '0') 0 * 10 ^ 8 = units.natAbs := by
    rw [Nat.ofDigitChars_append, Nat.ofDigitChars_replicate_zero, hvalue]
    ring
  generalize Nat.ofDigitChars 10 (cs ++ List.replicate k '0') 0 = n at hpos hneg hscale
  have hsign : q < 0 ↔ units < 0 := by
    rw [hq, div_lt_iff₀ (by norm_num), zero_mul, Int.cast_lt_zero]
  have hcast : units = v * 10 ^ 8 := by
    split at hv
    · rename_i hlt
      have := hsign.1 hlt
      rw [hneg, Option.some.injEq] at hv
      omega
    · rename_i hlt
      have := mt hsign.2 hlt
      rw [String.empty_append, hpos, Option.some.injEq] at hv
      omega
  rw [hq, hcast, Int.cast_mul, Int.cast_pow]
  exact (mul_div_cancel_right₀ _ (by norm_num)).symm

theorem bigInt_point (sign : String) (cs cs' : List Char) : bigInt (sign ++ String.ofList (cs ++ '.' :: cs')) = none :=
  bigInt_eq_none (c := '.') (by simp) (by decide) (by decide)

/-- A numeral that converts stands for its number: one with a decimal point or an exponent does not. -/
theorem bigInt_numeral {q : ℚ} {units v : ℤ} (hq : q = units / 10 ^ 8) (hv : bigInt (numeral q) = some v) :
    (v : ℚ) = q := by
  have hunits : (q * 10 ^ 8).num = units := by
    rw [hq, div_mul_cancel₀ _ (by norm_num), Rat.num_intCast]
  unfold numeral at hv
  rw [hunits] at hv
  dsimp only at hv
  obtain ⟨z, hz⟩ := strip_zeros (Nat.toDigits 10 units.natAbs)
  generalize (List.dropWhile (· = '0') (Nat.toDigits 10 units.natAbs).reverse).reverse = s at hv hz
  have hdigits : ∀ c ∈ s, c.isDigit := fun c hc => isDigit_of_mem_toDigits (hz ▸ List.mem_append_left _ hc)
  have hvalue : units.natAbs = 10 ^ z * Nat.ofDigitChars 10 s 0 := by
    rw [← Nat.ofDigitChars_ten_toDigits (n := units.natAbs), hz, Nat.ofDigitChars_append,
      Nat.ofDigitChars_replicate_zero]
  have hlength : (Nat.toDigits 10 units.natAbs).length = s.length + z := by rw [hz]; simp
  split at hv
  · rename_i hnil
    have hzero : units = 0 := by simpa [hnil] using hvalue
    have hv0 : v = 0 := by simpa [bigInt, digits?, Nat.ofDigitChars_cons] using hv.symm
    rw [hq, hzero, hv0]
    simp
  · rename_i hne
    split at hv
    · rename_i hwhole
      -- at least eight of the zeros are decimals
      obtain ⟨k, rfl⟩ : ∃ k, z = 8 + k := ⟨z - 8, by omega⟩
      have hcount : ((Nat.toDigits 10 units.natAbs).length - 8 : ℤ).toNat - s.length = k := by omega
      rw [hcount] at hv
      exact bigInt_whole hq hne hdigits hvalue hv
    · split at hv
      · rw [bigInt_point] at hv
        cases hv
      · split at hv
        · exact absurd ((bigInt_point _ ['0'] _).symm.trans hv) nofun
        · rw [bigInt_eq_none (c := 'e') (by simp) (by decide) (by decide)] at hv
          cases hv

/-- **The value of the transaction** of an amount of at most eight decimals, for an asset of `d` decimals in which the
amount is `base` units, is the numeral of `base` only for the amount zero. -/
theorem value_iff (settlement : Settlement) (units base : ℤ) (d : ℕ) (hunits : settlement.amount = units / 10 ^ 8)
    (hd : 8 ≤ d) (hbase : base = settlement.amount * 10 ^ d) :
    (∀ tx k, executeTransaction settlement = .call (.estimateGas tx) k →
      tx.value = toString base ∧ gasValue tx = some base) ↔ settlement.amount = 0 := by
  constructor
  · intro h
    have hvalue : numeral settlement.amount = toString base := (h _ _ rfl).1
    have hbig : (base : ℚ) = settlement.amount := bigInt_numeral hunits (hvalue ▸ bigInt_toString base)
    rw [hbig, eq_comm, mul_right_eq_self₀] at hbase
    refine hbase.resolve_left fun hone => ?_
    have hlt : (1 : ℚ) < 10 ^ d := one_lt_pow₀ (by norm_num) (by omega)
    exact hlt.ne' hone
  · intro h tx k hcall
    have hzero : base = 0 := by
      rw [h, zero_mul, Int.cast_eq_zero] at hbase
      exact hbase
    have htx : tx.value = numeral settlement.amount := by
      cases hcall
      rfl
    have hnumeral : numeral 0 = "0" := by decide +kernel
    rw [hzero, htx, h, hnumeral, gasValue, htx, h, hnumeral]
    exact ⟨rfl, rfl⟩

/-- The payout of the order has the value 99, where 99 ether are 99 * 10^18 base units; half an ether and the least
amount make `BigInt` throw. -/
theorem value_not_scaled : numeral 99 = "99" ∧ bigInt (numeral 99) = some 99 ∧ toString (99 * 10 ^ 18 : ℤ) ≠ "99" ∧
    bigInt (numeral (1 / 2)) = none ∧ numeral (1 / 10 ^ 8) = "1e-8" ∧ bigInt (numeral (1 / 10 ^ 8)) = none := by
  decide +kernel

theorem value_iff_order :
    (∀ tx k, executeTransaction settled = .call (.estimateGas tx) k →
      tx.value = toString (99 * 10 ^ 18 : ℤ) ∧ gasValue tx = some (99 * 10 ^ 18)) ↔ settled.amount = 0 :=
  value_iff settled 9900000000 (99 * 10 ^ 18) 18 (by decide +kernel) (by decide) (by decide +kernel)

end NexoraGateway.Settlements
