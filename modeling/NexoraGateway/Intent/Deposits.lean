import NexoraGateway.Intent.Runs

/-!
# What recording deposits guarantees

* `recordDeposit_transitions_iff` — exactly when `recordDeposit` cannot be refused by the table of
  valid transitions.
* `recordDeposits_classify_iff` — exactly when a sequence of transfers is classified by its running sum.
-/
namespace NexoraGateway.Intent

open Async Store
open Ecma (Double)

variable {ω : Nat → Oracle} {n : Nat} {db : Db} {row : PaymentIntent}
variable {id : Id} {txHash sourceChain sourceAsset : String} {amount : ℚ}

/-- The amount is within the tolerance of the target, as the code computes it. -/
def WithinTolerance (targetAmount amount : ℚ) : Prop :=
  Double.ofRat targetAmount * (1 - tolerance) ≤ .ofRat amount ∧
    Double.ofRat amount ≤ .ofRat targetAmount * (1 + tolerance)

/-- The amount is within one per cent of the target, without rounding. -/
def WithinOnePercent (targetAmount amount : ℚ) : Prop :=
  targetAmount * (99 / 100) ≤ amount ∧ amount ≤ targetAmount * (101 / 100)

/-- The intent has a quote and `now` is past its expiry. -/
def QuoteExpired (row : PaymentIntent) (now : Time) : Prop := ∃ e, row.quoteExpiresAt = some e ∧ e < now

theorem classify_cases (targetAmount amount : ℚ) :
    (classify targetAmount amount = .depositDetected ∧ WithinTolerance targetAmount amount) ∨
    (classify targetAmount amount ∈ [.underpaymentDetected, .overpaymentDetected] ∧
      ¬ WithinTolerance targetAmount amount) := by
  unfold classify WithinTolerance
  split
  · rename_i h
    exact .inr ⟨by simp, fun hw => absurd hw.1 (not_le.2 h)⟩
  · rename_i h
    split
    · rename_i h'
      exact .inr ⟨by simp, fun hw => absurd hw.2 (not_le.2 h')⟩
    · rename_i h'
      exact .inl ⟨rfl, not_lt.1 h, not_lt.1 h'⟩

-- at the edge doubles decide: the first two are one per cent more than asked for, the third is beyond it
example : [classify (21 / 100) (2121 / 10 ^ 4), classify (1999 / 100) (201899 / 10 ^ 4),
    classify (7 / 100) (7070000000000001 / 10 ^ 17)] =
      [.overpaymentDetected, .overpaymentDetected, .depositDetected] := by
  decide +kernel

theorem depositEvent_cases (row : PaymentIntent) (now : Time) (amount : ℚ) :
    (QuoteExpired row now ∧ depositEvent row now amount = .quoteExpired) ∨
    (¬ QuoteExpired row now ∧ depositEvent row now amount = classify row.targetAmount amount) := by
  unfold QuoteExpired depositEvent
  cases hq : row.quoteExpiresAt with
  | none => exact .inr ⟨by simp, by simp⟩
  | some e =>
    by_cases he : e < now
    · exact .inl ⟨⟨e, rfl, he⟩, by simp [he]⟩
    · exact .inr ⟨by simpa using he, by simp [he]⟩

theorem accepting_cases (hacc : acceptsDeposit.contains row.state = true) :
    row.state = .underpaid ∧ detectionState row = .underpaid ∨
      row.state ≠ .underpaid ∧ detectionState row = .awaitingPayment := by
  unfold detectionState
  cases h : row.state <;> simp_all [acceptsDeposit]

/-- The transitions a deposit may attempt that are valid: none from `UNDERPAID`, and from
`AWAITING_PAYMENT` only expiry and detection. -/
theorem valid_depositEvent_iff (hacc : acceptsDeposit.contains row.state = true) (now : Time) (amount : ℚ) :
    Valid (detectionState row) (getExpectedNextState (depositEvent row now amount)) ↔
      row.state ≠ .underpaid ∧ (QuoteExpired row now ∨ WithinTolerance row.targetAmount amount) := by
  rcases accepting_cases hacc with ⟨hs, hd⟩ | ⟨hs, hd⟩ <;> rw [hd]
  · rcases depositEvent_cases row now amount with ⟨-, he⟩ | ⟨-, he⟩ <;> rw [he]
    · simp only [hs, ne_eq, not_true, false_and, iff_false]; decide
    · rcases classify_cases row.targetAmount amount with ⟨hc, -⟩ | ⟨hc, -⟩
      · rw [hc]; simp only [hs, ne_eq, not_true, false_and, iff_false]; decide
      · simp only [List.mem_cons, List.not_mem_nil, or_false] at hc
        rcases hc with hc | hc <;> rw [hc] <;> simp only [hs, ne_eq, not_true, false_and, iff_false] <;> decide
  · rcases depositEvent_cases row now amount with ⟨hx, he⟩ | ⟨hx, he⟩ <;> rw [he]
    · exact iff_of_true (by decide) ⟨hs, .inl hx⟩
    · rcases classify_cases row.targetAmount amount with ⟨hc, hw⟩ | ⟨hc, hw⟩
      · rw [hc]; exact iff_of_true (by decide) ⟨hs, .inr hw⟩
      · refine iff_of_false ?_ fun h => h.2.elim hx hw
        simp only [List.mem_cons, List.not_mem_nil, or_false] at hc
        rcases hc with hc | hc <;> rw [hc] <;> decide

/-! ## Which deposits the table of transitions refuses -/

/-- The edge that an outcome was refused for, if it was. -/
def refusal {α : Type} : Except IntentError α → Option (IntentState × IntentState)
  | .error (.invalidTransition source target) => some (source, target)
  | _ => none

theorem refusal_eq_some {α : Type} {out : Except IntentError α} {edge : IntentState × IntentState} :
    refusal out = some edge ↔ out = .error (.invalidTransition edge.1 edge.2) := by
  obtain ⟨source, target⟩ := edge
  constructor
  · intro h
    unfold refusal at h
    split at h
    · cases h; rfl
    · cases h
  · rintro rfl
    rfl

/-- A refusal is for want of the edge that the deposit's event needs. -/
theorem recordDeposit_refused (hrow : db.intents.find? id = some row)
    (hacc : acceptsDeposit.contains row.state = true) {edge : IntentState × IntentState}
    (h : refusal ((recordDeposit id txHash amount sourceChain sourceAsset).run handle ω n db).1 = some edge) :
    ¬ Valid (detectionState row)
      (getExpectedNextState (depositEvent row (ω (expiryCheck row n)).now amount)) := by
  have hedge := refusal_eq_some.1 h
  rcases recordDeposit_run hrow hacc with ⟨e, -, he, hout, -⟩ | ⟨t₁, row₁, hhop, hatt⟩
  · rw [hedge] at hout
    cases hout
    exact he.elim
  · rw [← (hhop.facts hrow).2.1]
    rcases hatt.inv with ⟨e, -, he, hout, -⟩ | ⟨hedge, -⟩ | ⟨-, hout, -⟩
    · rw [hedge] at hout
      cases hout
      exact he.elim
    · exact hedge
    · exact (hout _ hedge).elim

/-- With every database call accepted, a missing edge is refused and an existing one recorded. -/
theorem recordDeposit_healthy (txHash sourceChain sourceAsset : String) (amount : ℚ) (n : Nat)
    (hω : ¬ Faulty ω) (hrow : db.intents.find? id = some row)
    (hacc : acceptsDeposit.contains row.state = true) :
    let r := (recordDeposit id txHash amount sourceChain sourceAsset).run handle ω n db
    let event := depositEvent row (ω (expiryCheck row n)).now amount
    ∃ t₁ row₁, Hop db.toTables row t₁ row₁ ∧
      ((¬ Valid (detectionState row) (getExpectedNextState event) ∧ r.2.2.toTables = t₁ ∧
          r.1 = .error (.invalidTransition (detectionState row) (getExpectedNextState event))) ∨
        Valid (detectionState row) (getExpectedNextState event) ∧
          ∃ o payload, r.2.2.toTables = t₁.record o row₁ event payload) := by
  intro r event
  rcases recordDeposit_run hrow hacc with ⟨e, hfault, -⟩ | ⟨t₁, row₁, hhop, hatt⟩
  · exact absurd hfault hω
  · refine ⟨t₁, row₁, hhop, ?_⟩
    rw [← (hhop.facts hrow).2.1]
    rcases hatt.inv with ⟨e, hfault, -⟩ | ⟨hedge, hout, htables⟩ | ⟨hedge, -, o, payload, -, htables⟩
    · exact absurd hfault hω
    · exact .inl ⟨hedge, htables, hout⟩
    · exact .inr ⟨hedge, o, payload, htables⟩

/-- **`recordDeposit` is never refused exactly when** the intent is not `UNDERPAID` and the deposit
either meets an expired quote or is within the tolerance of the target. -/
theorem recordDeposit_transitions_iff (hrow : db.intents.find? id = some row)
    (hacc : acceptsDeposit.contains row.state = true) (txHash sourceChain sourceAsset : String) (amount : ℚ)
    (clock : Nat → Time) :
    (∀ ω : Nat → Oracle, (∀ k, (ω k).now = clock k) →
      refusal ((recordDeposit id txHash amount sourceChain sourceAsset).run handle ω 0 db).1 = none) ↔
    row.state ≠ .underpaid ∧
      (QuoteExpired row (clock (expiryCheck row 0)) ∨ WithinTolerance row.targetAmount amount) := by
  rw [← valid_depositEvent_iff hacc]
  constructor
  · intro h
    by_contra hedge
    have hhealthy : ¬ Faulty fun k => ({ now := clock k } : Oracle) := fun ⟨_, hk⟩ => hk rfl
    obtain ⟨_, _, -, ⟨-, -, hout⟩ | ⟨hvalid, -⟩⟩ :=
      recordDeposit_healthy txHash sourceChain sourceAsset amount 0 hhealthy hrow hacc
    · have hnone := h (fun k => { now := clock k }) fun _ => rfl
      rw [hout] at hnone
      cases hnone
    · exact hedge hvalid
  · intro hedge ω hω
    cases hr : refusal ((recordDeposit id txHash amount sourceChain sourceAsset).run handle ω 0 db).1 with
    | none => rfl
    | some edge => exact absurd (by rwa [hω]) (recordDeposit_refused hrow hacc hr)

/-- A merchant that accepts USDC on Ethereum. -/
def shop : MerchantConfig :=
  { id := "shop", name := "Shop", settlementAsset := "USDC", settlementChain := "ethereum"
    settlementAddress := "0xshop", acceptedChains := ["ethereum"], acceptedAssets := ["USDC"] }

/-- Every call succeeds, at time `now`. -/
def calm (now : Time) : Nat → Oracle := fun _ => { now, uuid := "pi" }

def shopDb : Db :=
  { intents := .empty, events := [], deliveries := .empty, merchants := ⟨[shop], List.nodup_singleton _⟩ }

/-- The shop's intent `pi` over 100 USDC, created at 0 and quoted at 1. -/
def quotedDb : Db := serve shopDb
  [(.createIntent ⟨"shop", "order-1", 100, "USDC", "ethereum", ["USDC"]⟩, calm 0),
   (.generateQuote "pi" 1 "0xdeposit" "USDC" "ethereum", calm 1)]

/-- The row of `pi` in `quotedDb`. -/
def quotedRow : PaymentIntent :=
  { id := "pi", merchantId := "shop", orderRef := "order-1", targetAmount := 100, targetAsset := "USDC"
    targetChain := "ethereum", acceptedAssets := ["USDC"], quotedRate := some 1, quoteExpiresAt := some 300001
    depositAddress := some "0xdeposit", depositAsset := some "USDC", depositChain := some "ethereum"
    state := .quoted, version := 2, createdAt := 0, updatedAt := 1 }

theorem quotedDb_row : quotedDb.intents.find? "pi" = some quotedRow := by decide +kernel

/-- The rule at `pi`: 100 USDC at time 2 are never refused. -/
theorem recordDeposit_transitions_quoted :
    (∀ ω : Nat → Oracle, (∀ k, (ω k).now = 2) →
      refusal ((recordDeposit "pi" "0xa" 100 "ethereum" "USDC").run handle ω 0 quotedDb).1 = none) ↔
    quotedRow.state ≠ .underpaid ∧ (QuoteExpired quotedRow 2 ∨ WithinTolerance 100 100) :=
  recordDeposit_transitions_iff quotedDb_row (by decide) "0xa" "ethereum" "USDC" 100 fun _ => 2

/-- 50 of 100 USDC for the quoted intent: `AWAITING_PAYMENT` has no edge to `UNDERPAID`. -/
theorem recordDeposit_refuses_half :
    quotedDb.intents.find? "pi" = some quotedRow ∧ acceptsDeposit.contains quotedRow.state = true ∧
    refusal ((recordDeposit "pi" "0xa" 50 "ethereum" "USDC").run handle (calm 2) 0 quotedDb).1 =
      some (.awaitingPayment, .underpaid) := by decide +kernel

/-- The shop's intent with its deposit `0xa` detected. -/
def detectedDb : Db := serve quotedDb [(.recordDeposit "pi" "0xa" 100 "ethereum" "USDC", calm 2)]

/-! ## Sequences of transfers -/

/-- A transfer to the intent's deposit address, as the watcher reports it. -/
structure Transfer where
  txHash : String
  amount : ℚ
  sourceChain : String
  sourceAsset : String

/-- `recordDeposit` for each transfer in turn, each call with what it meets. -/
def recordDeposits (id : Id) (db : Db) (transfers : List (Transfer × (Nat → Oracle))) : Db :=
  transfers.foldl (fun db c =>
    ((recordDeposit id c.1.txHash c.1.amount c.1.sourceChain c.1.sourceAsset).run handle c.2 0 db).2.2) db

def amounts (transfers : List (Transfer × (Nat → Oracle))) : List ℚ := transfers.map fun c => c.1.amount

/-- The sum as the code would add the amounts up. -/
def roundedSum (amounts : List ℚ) : ℚ := (amounts.foldl (fun sum amount => sum + Double.ofRat amount) 0).value

/-- The intent's state says how a sum compares with two thresholds. -/
def ClassifiesSum (state : IntentState) (low high sum : ℚ) : Prop :=
  (state = .underpaid ↔ sum < low) ∧ (state = .detected ↔ low ≤ sum ∧ sum ≤ high) ∧ (state = .overpaid ↔ high < sum)

/-- The state of intent `id`. -/
def stateOf (db : Db) (id : Id) : Option IntentState := (db.intents.find? id).map PaymentIntent.state

/-- After a healthy, unexpired call the intent is `DETECTED` if the amount is within the tolerance,
and `AWAITING_PAYMENT` if not. -/
theorem stateOf_recordDeposit (txHash sourceChain sourceAsset : String) (amount : ℚ) (n : Nat)
    (hω : ¬ Faulty ω) (hrow : db.intents.find? id = some row)
    (hstate : row.state = .quoted ∨ row.state = .awaitingPayment)
    (hquote : ∀ k, ¬ QuoteExpired row (ω k).now) :
    (WithinTolerance row.targetAmount amount →
      stateOf ((recordDeposit id txHash amount sourceChain sourceAsset).run handle ω n db).2.2 id =
        some .detected) ∧
    (¬ WithinTolerance row.targetAmount amount →
      stateOf ((recordDeposit id txHash amount sourceChain sourceAsset).run handle ω n db).2.2 id =
        some .awaitingPayment) := by
  have hacc : acceptsDeposit.contains row.state = true := by rcases hstate with h | h <;> rw [h] <;> rfl
  have hne : row.state ≠ .underpaid := by rcases hstate with h | h <;> rw [h] <;> decide
  have hedge := valid_depositEvent_iff hacc (ω (expiryCheck row n)).now amount
  simp only [hne, ne_eq, not_false_eq_true, true_and, hquote, false_or] at hedge
  obtain ⟨t₁, row₁, hhop, h⟩ := recordDeposit_healthy txHash sourceChain sourceAsset amount n hω hrow hacc
  obtain ⟨hrow₁, hstate₁, -, -⟩ := hhop.facts hrow
  have hawait : detectionState row = .awaitingPayment :=
    ((accepting_cases hacc).resolve_left fun h => hne h.1).2
  rcases h with ⟨hinvalid, htables, -⟩ | ⟨hvalid, o, payload, htables⟩
  · refine ⟨fun hw => absurd (hedge.2 hw) hinvalid, fun _ => ?_⟩
    rw [stateOf, htables, hrow₁]
    simp [hstate₁, hawait]
  · have hw := hedge.1 hvalid
    refine ⟨fun _ => ?_, fun h => absurd hw h⟩
    rw [stateOf, htables, Tables.find?_recorded o _ payload hrow₁]
    rcases depositEvent_cases row (ω (expiryCheck row n)).now amount with ⟨hx, -⟩ | ⟨-, he⟩
    · exact absurd hx (hquote _)
    · rcases classify_cases row.targetAmount amount with ⟨hc, -⟩ | ⟨-, hn⟩
      · simp [he, hc, getExpectedNextState]
      · exact absurd hw hn

/-- After each transfer the state says how the running sum compares with the thresholds. -/
def ClassifiedBySum (id : Id) (db : Db) (low high : ℚ) (sum : List ℚ → ℚ)
    (transfers : List (Transfer × (Nat → Oracle))) : Prop :=
  ∀ before c after, transfers = before ++ c :: after →
    ∃ s, stateOf (recordDeposits id db (before ++ [c])) id = some s ∧
      ClassifiesSum s low high (sum (amounts (before ++ [c])))

/-- By any thresholds and any way of adding up: the first transfer must be within the tolerance, after which the intent
accepts no more, and within the thresholds. -/
theorem classifiedBySum_iff (low high : ℚ) (sum : List ℚ → ℚ) (transfers : List (Transfer × (Nat → Oracle)))
    (hrow : db.intents.find? id = some row) (hstate : row.state = .quoted ∨ row.state = .awaitingPayment)
    (hhealthy : ∀ c ∈ transfers, ¬ Faulty c.2) (hquote : ∀ c ∈ transfers, ∀ k, ¬ QuoteExpired row (c.2 k).now)
    (haccepted : ∀ before c after, transfers = before ++ c :: after →
      ∃ s ∈ acceptsDeposit, stateOf (recordDeposits id db before) id = some s) :
    ClassifiedBySum id db low high sum transfers ↔
      ∀ c, transfers.head? = some c →
        WithinTolerance row.targetAmount c.1.amount ∧ low ≤ sum [c.1.amount] ∧ sum [c.1.amount] ≤ high := by
  cases transfers with
  | nil => simp [ClassifiedBySum]
  | cons c rest =>
    have hstep := stateOf_recordDeposit c.1.txHash c.1.sourceChain c.1.sourceAsset c.1.amount 0
      (hhealthy c List.mem_cons_self) hrow hstate (hquote c List.mem_cons_self)
    simp only [List.head?_cons, Option.some.injEq, forall_eq']
    constructor
    · intro h
      obtain ⟨s, hs, hunder, hdetected, hover⟩ := h [] c rest rfl
      rw [List.nil_append] at hs hunder hdetected hover
      have hbetween : low ≤ sum [c.1.amount] ∧ sum [c.1.amount] ≤ high := by
        by_cases hw : WithinTolerance row.targetAmount c.1.amount
        · exact hdetected.1 (Option.some.inj (hs.symm.trans (hstep.1 hw)))
        · obtain rfl : s = .awaitingPayment := Option.some.inj (hs.symm.trans (hstep.2 hw))
          exact ⟨not_lt.1 fun h => (nomatch hunder.2 h), not_lt.1 fun h => (nomatch hover.2 h)⟩
      refine ⟨?_, hbetween⟩
      by_contra hw
      obtain rfl : s = .awaitingPayment := Option.some.inj (hs.symm.trans (hstep.2 hw))
      cases hdetected.2 hbetween
    · rintro ⟨hw, hlow, hhigh⟩
      have hs : stateOf (recordDeposits id db [c]) id = some .detected := hstep.1 hw
      -- a detected intent accepts nothing more, so `c` is the only transfer
      have hrest : rest = [] := by
        cases rest with
        | nil => rfl
        | cons c' rest =>
          obtain ⟨s, hmem, hs'⟩ := haccepted [c] c' rest rfl
          obtain rfl : s = .detected := Option.some.inj (hs'.symm.trans hs)
          simp [acceptsDeposit] at hmem
      subst hrest
      intro before c' after hsplit
      obtain ⟨rfl, rfl, rfl⟩ : before = [] ∧ c' = c ∧ after = [] := by
        cases before with
        | nil => simpa [eq_comm] using hsplit
        | cons => simp at hsplit
      exact ⟨.detected, hs, iff_of_false nofun (not_lt.2 hlow), iff_of_true rfl ⟨hlow, hhigh⟩,
        iff_of_false nofun (not_lt.2 hhigh)⟩

/-- **Transfers are classified by their running sum exactly when** there are none, or the first alone is within the
tolerance and the thresholds: one per cent without rounding, or the code's own thresholds, which are the tolerance. -/
theorem recordDeposits_classify_iff (transfers : List (Transfer × (Nat → Oracle)))
    (hrow : db.intents.find? id = some row) (hstate : row.state = .quoted ∨ row.state = .awaitingPayment)
    (hhealthy : ∀ c ∈ transfers, ¬ Faulty c.2) (hquote : ∀ c ∈ transfers, ∀ k, ¬ QuoteExpired row (c.2 k).now)
    (haccepted : ∀ before c after, transfers = before ++ c :: after →
      ∃ s ∈ acceptsDeposit, stateOf (recordDeposits id db before) id = some s) :
    (ClassifiedBySum id db (row.targetAmount * (99 / 100)) (row.targetAmount * (101 / 100)) List.sum transfers ↔
      ∀ c, transfers.head? = some c →
        WithinTolerance row.targetAmount c.1.amount ∧ WithinOnePercent row.targetAmount c.1.amount) ∧
    (ClassifiedBySum id db (Double.ofRat row.targetAmount * (1 - tolerance)).value
        (Double.ofRat row.targetAmount * (1 + tolerance)).value roundedSum transfers ↔
      ∀ c, transfers.head? = some c → WithinTolerance row.targetAmount c.1.amount) := by
  constructor
  · rw [classifiedBySum_iff _ _ List.sum transfers hrow hstate hhealthy hquote haccepted]
    simp only [List.sum_singleton, WithinOnePercent]
  · rw [classifiedBySum_iff _ _ roundedSum transfers hrow hstate hhealthy hquote haccepted]
    have hsum (amount : ℚ) : roundedSum [amount] = (Double.ofRat amount).value :=
      congrArg Double.value (Double.zero_add _)
    simp only [hsum]
    exact forall₂_congr fun c _ => and_iff_left_of_imp fun h => h

/-- One transfer of the whole price. -/
def whole : List (Transfer × (Nat → Oracle)) := [(⟨"0xa", 100, "ethereum", "USDC"⟩, calm 2)]

/-- The rule at the whole price: it is classified by its sum. -/
theorem recordDeposits_classify_whole :
    ClassifiedBySum "pi" quotedDb (100 * (99 / 100)) (100 * (101 / 100)) List.sum whole ∧
      ClassifiedBySum "pi" quotedDb (Double.ofRat 100 * (1 - tolerance)).value
        (Double.ofRat 100 * (1 + tolerance)).value roundedSum whole := by
  have hiff := recordDeposits_classify_iff whole quotedDb_row (.inl rfl) (by simp [whole, Faulty, calm])
    (by simp [whole, QuoteExpired, quotedRow, calm]) fun before c after h => by
      cases before with
      | nil => exact ⟨.quoted, by decide, by decide +kernel⟩
      | cons => simp [whole] at h
  have hwithin : WithinTolerance quotedRow.targetAmount 100 := by constructor <;> decide +kernel
  have hexact : WithinOnePercent quotedRow.targetAmount 100 := by constructor <;> decide +kernel
  refine ⟨hiff.1.2 fun c hc => ?_, hiff.2.2 fun c hc => ?_⟩
  · cases hc
    exact ⟨hwithin, hexact⟩
  · cases hc
    exact hwithin

/-- Two halves of the price, the second a top-up. -/
def halves : List (Transfer × (Nat → Oracle)) :=
  [(⟨"0xa", 50, "ethereum", "USDC"⟩, calm 2), (⟨"0xb", 50, "ethereum", "USDC"⟩, calm 3)]

/-- Two halves of 100 USDC leave the intent in `AWAITING_PAYMENT`, neither `UNDERPAID` after the first nor `DETECTED`
after the second, which is the whole price. -/
theorem recordDeposits_loses_halves :
    stateOf (recordDeposits "pi" quotedDb (halves.take 1)) "pi" = some .awaitingPayment ∧
    stateOf (recordDeposits "pi" quotedDb halves) "pi" = some .awaitingPayment ∧
    ¬ ClassifiesSum .awaitingPayment (100 * (99 / 100)) (100 * (101 / 100)) (amounts (halves.take 1)).sum ∧
    ¬ ClassifiesSum .awaitingPayment (100 * (99 / 100)) (100 * (101 / 100)) (amounts halves).sum := by
  have hfirst : (amounts (halves.take 1)).sum < 100 * (99 / 100) := by decide +kernel
  have hboth : (100 : ℚ) * (99 / 100) ≤ (amounts halves).sum ∧ (amounts halves).sum ≤ 100 * (101 / 100) := by
    constructor <;> decide +kernel
  exact ⟨by decide +kernel, by decide +kernel,
    fun h => (nomatch h.1.2 hfirst), fun h => (nomatch h.2.1.2 hboth)⟩

end NexoraGateway.Intent
