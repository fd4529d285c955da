import NexoraGateway.Intent.Deposits

/-!
# What a recorded deposit leaves in the log

The log is append-only (`run_events`, `serve_events`), so what one call records is there after any
operations that follow.

* `recordDeposit_traced` — a deposit that the intent accepted is named in the log for good; one that
  met an expired quote leaves `QUOTE_EXPIRED`; one that the intent does not accept leaves nothing.
* `recordDeposit_detects_iff` — when a `DEPOSIT_DETECTED` event vouches for the quote: the raw amount, the expiry and
  the state are looked at, but neither the asset, the chain nor the rate of the quote.
-/
namespace NexoraGateway.Intent

open Async Store

variable {ω : Nat → Oracle} {n : Nat} {db : Db} {row : PaymentIntent}
variable {id : Id} {txHash sourceChain sourceAsset : String} {amount : ℚ}

/-! ## The log is append-only -/

theorem run_events {α : Type} (p : Task α) (ω : Nat → Oracle) (n : Nat) (db : Db) :
    db.events <+: (p.run handle ω n db).2.2.events :=
  ((Prog.only_true p).run (r := fun db db' : Db => db.events <+: db'.events) (fun _ => List.prefix_refl _)
    (fun _ _ _ h h' => h.trans h') (fun _ a o db _ => ⟨fun _ _ => trivial, (handle_effect a o db).events⟩) n db).2

theorem serve_events (ops : List (Op × (Nat → Oracle))) (db : Db) : db.events <+: (serve db ops).events := by
  induction ops generalizing db with
  | nil => exact List.prefix_refl _
  | cons op ops ih => exact (run_events op.1.task op.2 0 db).trans (ih _)

/-! ## Deposits that are not accepted -/

/-- `recordDeposit` changes nothing when the intent does not exist or does not accept deposits. -/
theorem recordDeposit_ignored
    (h : ∀ row, db.intents.find? id = some row → acceptsDeposit.contains row.state = false) :
    ((recordDeposit id txHash amount sourceChain sourceAsset).run handle ω n db).2.2 = db := by
  simp only [recordDeposit, Prog.bind_def, run_bind_findById]
  rcases findById_eq (ω n) id db with hfind | ⟨-, hfind⟩
  swap
  · rw [hfind]; rfl
  cases hrow : db.intents.find? id with
  | none => rw [hfind, hrow]; rfl
  | some row =>
    have hnot : row.state ∉ acceptsDeposit := by simpa using h row hrow
    simp [hfind, hrow, hnot]

theorem recordDeposit_missing (ω : Nat → Oracle) (n : Nat) (hrow : db.intents.find? id = none) :
    ∃ e, ((recordDeposit id txHash amount sourceChain sourceAsset).run handle ω n db).1 = .error e := by
  simp only [recordDeposit, Prog.bind_def, run_bind_findById]
  rcases findById_eq (ω n) id db with hfind | ⟨-, hfind⟩
  · rw [hfind, hrow]; exact ⟨_, rfl⟩
  · rw [hfind]; exact ⟨_, rfl⟩

/-! ## Deposits that are -/

theorem classify_ne_expired (targetAmount amount : ℚ) : classify targetAmount amount ≠ .quoteExpired := by
  unfold classify
  split
  · exact nofun
  · split <;> exact nofun

/-- An accepted deposit that returns normally has appended its event. -/
theorem recordDeposit_recorded {intent : PaymentIntent} (hrow : db.intents.find? id = some row)
    (hacc : acceptsDeposit.contains row.state = true)
    (hok : ((recordDeposit id txHash amount sourceChain sourceAsset).run handle ω n db).1 = .ok intent) :
    let db' := ((recordDeposit id txHash amount sourceChain sourceAsset).run handle ω n db).2.2
    let event := depositEvent row (ω (expiryCheck row n)).now amount
    stateOf db' id = some (getExpectedNextState event) ∧
      ∃ e ∈ db'.events, e.intentId = id ∧ e.eventType = event ∧
        NamesTransfer event txHash sourceChain sourceAsset e.payload := by
  intro db' event
  rcases recordDeposit_run hrow hacc with ⟨e, -, -, hout, -⟩ | ⟨t₁, row₁, hhop, hatt⟩
  · rw [hok] at hout
    cases hout
  · rcases hatt.inv with ⟨e, -, -, hout, -⟩ | ⟨-, hout, -⟩ | ⟨-, -, o, payload, hgood, htables⟩
    · rw [hok] at hout
      cases hout
    · rw [hok] at hout
      cases hout
    · obtain ⟨hrow₁, -⟩ := hhop.facts hrow
      refine ⟨?_, ⟨row₁.id, event, payload, row₁.version + 1, o.now⟩, ?_,
        (Table.find?_eq_some.1 hrow₁).2, rfl, hgood⟩
      · rw [stateOf, htables, Tables.find?_recorded o _ payload hrow₁]
        rfl
      · rw [htables]
        exact List.mem_append_right _ (List.mem_singleton_self _)

/-- **A transfer that is accepted is never lost.** Let `recordDeposit` be one of a sequence of service
operations, with anything before and after it, and let it return normally. If the intent accepted
deposits and its quote had not expired, an event of the final log names this transaction; if the quote
had expired, the call left the intent `EXPIRED` with a `QUOTE_EXPIRED` event; if the intent did not
accept deposits, the call changed nothing. -/
theorem recordDeposit_traced (db₀ : Db) (before after : List (Op × (Nat → Oracle))) (id : Id)
    (txHash sourceChain sourceAsset : String) (amount : ℚ) (ω : Nat → Oracle) (intent : PaymentIntent)
    (hok : ((recordDeposit id txHash amount sourceChain sourceAsset).run handle ω 0 (serve db₀ before)).1 =
      .ok intent) :
    let db := serve db₀ before
    let db₁ := ((recordDeposit id txHash amount sourceChain sourceAsset).run handle ω 0 db).2.2
    ∃ row, db.intents.find? id = some row ∧
      (acceptsDeposit.contains row.state = true → ¬ QuoteExpired row (ω (expiryCheck row 0)).now →
        ∃ e ∈ (serve db₁ after).events, e.intentId = id ∧ e.payload.get? "tx_hash" = some (.str txHash)) ∧
      (acceptsDeposit.contains row.state = true → QuoteExpired row (ω (expiryCheck row 0)).now →
        stateOf db₁ id = some .expired ∧
          ∃ e ∈ (serve db₁ after).events, e.intentId = id ∧ e.eventType = .quoteExpired) ∧
      (acceptsDeposit.contains row.state = false → db₁ = db) := by
  intro db db₁
  cases hrow : db.intents.find? id with
  | none =>
    obtain ⟨e, he⟩ := recordDeposit_missing ω 0 hrow
    exact absurd (hok.symm.trans he) nofun
  | some row =>
    refine ⟨row, rfl, fun hacc hx => ?_, fun hacc hx => ?_, fun hacc => ?_⟩
    · obtain ⟨-, e, he, hid, -, hnames⟩ := recordDeposit_recorded hrow hacc hok
      have hev := ((depositEvent_cases row _ amount).resolve_left fun h => hx h.1).2
      exact ⟨e, (serve_events after db₁).subset he, hid, (hnames (hev ▸ classify_ne_expired _ _)).1⟩
    · obtain ⟨hstate, e, he, hid, htype, -⟩ := recordDeposit_recorded hrow hacc hok
      have hev := ((depositEvent_cases row _ amount).resolve_right fun h => h.1 hx).2
      rw [hev] at hstate htype
      exact ⟨hstate, e, (serve_events after db₁).subset he, hid, htype⟩
    · refine recordDeposit_ignored fun row' hrow' => ?_
      rwa [← Option.some.inj (hrow.symm.trans hrow')]

/-- The rule at `pi`: the whole price, seen at time 2 and followed by a sweep of expired quotes. -/
theorem recordDeposit_traced_quoted :
    ∃ e ∈ (serve ((recordDeposit "pi" "0xa" 100 "ethereum" "USDC").run handle (calm 2) 0 quotedDb).2.2
      [(.processExpiredQuotes, calm 3)]).events,
      e.intentId = "pi" ∧ e.payload.get? "tx_hash" = some (.str "0xa") := by
  have hreturns :
      ((recordDeposit "pi" "0xa" 100 "ethereum" "USDC").run handle (calm 2) 0 quotedDb).1.toBool = true := by
    decide +kernel
  cases hout : ((recordDeposit "pi" "0xa" 100 "ethereum" "USDC").run handle (calm 2) 0 quotedDb).1 with
  | error e =>
    rw [hout] at hreturns
    cases hreturns
  | ok intent =>
    obtain ⟨row, hrow, hnamed, -⟩ :=
      recordDeposit_traced quotedDb [] [(.processExpiredQuotes, calm 3)] "pi" "0xa"
      "ethereum" "USDC" 100 (calm 2) intent hout
    obtain rfl : quotedRow = row := Option.some.inj (quotedDb_row.symm.trans hrow)
    exact hnamed (by decide) (by simp [QuoteExpired, quotedRow, calm])

/-- The transaction hash that an event's payload names. -/
def txHashOf (e : IntentEvent) : Option String :=
  match e.payload.get? "tx_hash" with
  | some (.str txHash) => some txHash
  | _ => none

/-- Two transfers of the whole price: both calls return normally, and no event names the second. -/
def paidTwice : List (Transfer × (Nat → Oracle)) :=
  [(⟨"0xa", 100, "ethereum", "USDC"⟩, calm 2), (⟨"0xb", 100, "ethereum", "USDC"⟩, calm 3)]

theorem recordDeposit_drops_second :
    ((recordDeposit "pi" "0xa" 100 "ethereum" "USDC").run handle (calm 2) 0 quotedDb).1.toBool = true ∧
    ((recordDeposit "pi" "0xb" 100 "ethereum" "USDC").run handle (calm 3) 0
      (recordDeposits "pi" quotedDb (paidTwice.take 1))).1.toBool = true ∧
    "0xb" ∉ (recordDeposits "pi" quotedDb paidTwice).events.filterMap txHashOf := by
  refine ⟨?_, ?_, ?_⟩ <;> decide +kernel

/-! ## What a detected deposit was checked against -/

/-- The events that `recordDeposit` appends. -/
def appended (db : Db) (id : Id) (txHash : String) (amount : ℚ) (sourceChain sourceAsset : String)
    (ω : Nat → Oracle) : List IntentEvent :=
  ((recordDeposit id txHash amount sourceChain sourceAsset).run handle ω 0 db).2.2.events.drop db.events.length

/-- A deposit is detected only by a raw amount within the tolerance, for an intent that waits and whose quote has not
expired. -/
theorem appended_detected (hrow : db.intents.find? id = some row) {e : IntentEvent}
    (he : e ∈ appended db id txHash amount sourceChain sourceAsset ω) (hdetected : e.eventType = .depositDetected) :
    (row.state = .quoted ∨ row.state = .awaitingPayment) ∧ ¬ QuoteExpired row (ω (expiryCheck row 0)).now ∧
      WithinTolerance row.targetAmount amount := by
  unfold appended at he
  by_cases hacc : acceptsDeposit.contains row.state = true
  swap
  · rw [recordDeposit_ignored fun row' hrow' => by
      obtain rfl := Option.some.inj (hrow.symm.trans hrow')
      simpa using hacc] at he
    simp at he
  rcases recordDeposit_run hrow hacc with ⟨-, -, -, -, htables⟩ | ⟨t₁, row₁, hhop, hatt⟩
  · rw [htables] at he
    simp at he
  obtain ⟨-, hstate₁, -⟩ := hhop.facts hrow
  obtain ⟨hops, hevents, hhops⟩ := hhop.events
  have hnot : e ∉ hops := fun h => by cases (hhops e h).symm.trans hdetected
  rcases hatt.inv with ⟨-, -, -, -, htables⟩ | ⟨-, -, htables⟩ | ⟨hedge, -, o, payload, -, htables⟩
  · rw [htables, hevents, List.drop_left] at he
    exact absurd he hnot
  · rw [htables, hevents, List.drop_left] at he
    exact absurd he hnot
  · rw [htables, Tables.record, hevents, List.append_assoc, List.drop_left] at he
    obtain rfl := List.mem_singleton.1 ((List.mem_append.1 he).resolve_left hnot)
    rw [hstate₁, valid_depositEvent_iff hacc] at hedge
    have hx : ¬ QuoteExpired row (ω (expiryCheck row 0)).now := fun hx => by
      have hev := ((depositEvent_cases row _ amount).resolve_right fun h => h.1 hx).2
      cases hev.symm.trans hdetected
    refine ⟨?_, hx, hedge.2.resolve_left hx⟩
    cases hs : row.state <;> simp_all [acceptsDeposit]

/-- And it is, when no query is rejected. -/
theorem exists_appended (txHash sourceChain sourceAsset : String) (hω : ¬ Faulty ω)
    (hrow : db.intents.find? id = some row) (hstate : row.state = .quoted ∨ row.state = .awaitingPayment)
    (hquote : ¬ QuoteExpired row (ω (expiryCheck row 0)).now) (hwithin : WithinTolerance row.targetAmount amount) :
    ∃ e ∈ appended db id txHash amount sourceChain sourceAsset ω, e.eventType = .depositDetected := by
  have hacc : acceptsDeposit.contains row.state = true := by rcases hstate with h | h <;> rw [h] <;> rfl
  have hne : row.state ≠ .underpaid := by rcases hstate with h | h <;> rw [h] <;> decide
  have hevent : depositEvent row (ω (expiryCheck row 0)).now amount = .depositDetected := by
    rcases depositEvent_cases row (ω (expiryCheck row 0)).now amount with ⟨hx, -⟩ | ⟨-, he⟩
    · exact absurd hx hquote
    · rcases classify_cases row.targetAmount amount with ⟨hc, -⟩ | ⟨-, hn⟩
      · exact he.trans hc
      · exact absurd hwithin hn
  obtain ⟨t₁, row₁, hhop, ⟨hinvalid, -⟩ | ⟨-, o, payload, htables⟩⟩ :=
    recordDeposit_healthy txHash sourceChain sourceAsset amount 0 hω hrow hacc
  · exact absurd ((valid_depositEvent_iff hacc _ _).2 ⟨hne, .inr hwithin⟩) hinvalid
  · obtain ⟨hops, hevents, -⟩ := hhop.events
    unfold appended
    rw [htables, Tables.record, hevents, List.append_assoc, List.drop_left]
    exact ⟨_, List.mem_append_right _ (List.mem_singleton_self _), hevent⟩

/-- What an intent was quoted. -/
structure QuotedFor (row : PaymentIntent) (rate : ℚ) (asset chain : String) : Prop where
  rate : row.quotedRate = some rate
  asset : row.depositAsset = some asset
  chain : row.depositChain = some chain

/-- **A `DEPOSIT_DETECTED` event vouches for the quote exactly when** the deposit is not taken for one, because of the
intent's state, the expiry of its quote or the raw amount, or it is of the chain and the asset of the quote and at the
quoted rate within one per cent of the target. No code converts, so `convert` may be any conversion at a rate. -/
theorem recordDeposit_detects_iff (convert : ℚ → ℚ → ℚ) (hrow : db.intents.find? id = some row) {rate : ℚ}
    {asset chain : String} (hquoted : QuotedFor row rate asset chain) (txHash sourceChain sourceAsset : String)
    (amount : ℚ) (clock : Nat → Time) :
    (∀ ω : Nat → Oracle, (∀ k, (ω k).now = clock k) →
      ∀ e ∈ appended db id txHash amount sourceChain sourceAsset ω, e.eventType = .depositDetected →
        row.depositChain = some sourceChain ∧ row.depositAsset = some sourceAsset ∧
          WithinOnePercent row.targetAmount (convert rate amount)) ↔
    (row.state ≠ .quoted ∧ row.state ≠ .awaitingPayment) ∨ QuoteExpired row (clock (expiryCheck row 0)) ∨
      ¬ WithinTolerance row.targetAmount amount ∨
      (sourceChain = chain ∧ sourceAsset = asset ∧ WithinOnePercent row.targetAmount (convert rate amount)) := by
  have hmatches : (row.depositChain = some sourceChain ∧ row.depositAsset = some sourceAsset ∧
      WithinOnePercent row.targetAmount (convert rate amount)) ↔
      (sourceChain = chain ∧ sourceAsset = asset ∧ WithinOnePercent row.targetAmount (convert rate amount)) := by
    rw [hquoted.chain, hquoted.asset, Option.some_inj, Option.some_inj, eq_comm, eq_comm (a := asset)]
  constructor
  · intro h
    by_contra! hnot
    obtain ⟨hstate, hquote, hwithin, hother⟩ := hnot
    have hhealthy : ¬ Faulty fun k => ({ now := clock k } : Oracle) := fun ⟨_, hk⟩ => hk rfl
    have hwaiting : row.state = .quoted ∨ row.state = .awaitingPayment := by
      by_cases hs : row.state = .quoted
      · exact .inl hs
      · exact .inr (hstate hs)
    obtain ⟨e, he, hdetected⟩ :=
      exists_appended txHash sourceChain sourceAsset hhealthy hrow hwaiting hquote hwithin
    obtain ⟨hchain, hasset, hone⟩ := hmatches.1 (h _ (fun _ => rfl) e he hdetected)
    exact hother hchain hasset hone
  · intro h ω hω e he hdetected
    obtain ⟨hstate, hquote, hwithin⟩ := appended_detected hrow he hdetected
    rw [hω] at hquote
    rcases h with ⟨hnotQuoted, hnotAwaiting⟩ | hexpired | hoff | hmatch
    · exact absurd hstate (not_or.2 ⟨hnotQuoted, hnotAwaiting⟩)
    · exact absurd hexpired hquote
    · exact absurd hwithin hoff
    · exact hmatches.2 hmatch

theorem quotedRow_quoted : QuotedFor quotedRow 1 "USDC" "ethereum" := ⟨rfl, rfl, rfl⟩

/-- The rule at `pi`, quoted in USDC on Ethereum at a rate of 1: 100 of them at time 2 are detected. -/
theorem recordDeposit_detects_iff_quoted :
    (∃ e ∈ appended quotedDb "pi" "0xa" 100 "ethereum" "USDC" (calm 2), e.eventType = .depositDetected) ∧
    ∀ e ∈ appended quotedDb "pi" "0xa" 100 "ethereum" "USDC" (calm 2), e.eventType = .depositDetected →
      quotedRow.depositChain = some "ethereum" ∧ quotedRow.depositAsset = some "USDC" ∧
        WithinOnePercent quotedRow.targetAmount (100 * 1) := by
  have hone : WithinOnePercent quotedRow.targetAmount (100 * 1) := by constructor <;> decide +kernel
  have hvouched := (recordDeposit_detects_iff (fun rate amount => amount * rate) quotedDb_row quotedRow_quoted "0xa"
    "ethereum" "USDC" 100 fun _ => 2).2 (.inr (.inr (.inr ⟨rfl, rfl, hone⟩)))
  exact ⟨by decide +kernel, hvouched (calm 2) fun _ => rfl⟩

/-- The quote asks for USDC on Ethereum, and 100 FAKE on Polygon make the intent `DETECTED`. -/
theorem recordDeposit_detects_fake :
    quotedDb.intents.find? "pi" = some quotedRow ∧ quotedRow.depositAsset = some "USDC" ∧
    quotedRow.depositChain = some "ethereum" ∧
    stateOf ((recordDeposit "pi" "0xa" 100 "polygon" "FAKE").run handle (calm 2) 0 quotedDb).2.2 "pi" =
      some .detected ∧
    (((recordDeposit "pi" "0xa" 100 "polygon" "FAKE").run handle (calm 2) 0 quotedDb).2.2.events.map
      IntentEvent.eventType).getLast? = some .depositDetected := by
  refine ⟨?_, rfl, rfl, ?_, ?_⟩ <;> decide +kernel

end NexoraGateway.Intent
