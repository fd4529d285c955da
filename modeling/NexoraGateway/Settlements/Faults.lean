import NexoraGateway.Settlements.Completion

/-!
# One failing step after the transaction is out

From the moment `submitTransaction` has answered a hash, what should be on record is `Recorded`: the
hash, no failure that the chain did not report, no way back from `COMPLETED`, and the ledger entries of
a completed settlement. One `catch` handles every later failure by writing `FAILED`, so a single
rejected call can leave any of it unrecorded; `recorded_iff` says which calls have to be accepted.

Calls 0, 1 and 2 create, estimate and submit; 3 and 4 record the hash; the poll loop starts at 6.
-/
namespace NexoraGateway.Settlements

open Async Chain Store

variable {ω : Nat → Oracle} {db : Db} {ctx : SettlementExecutionContext}

/-- What should be on record of the transaction, for the settlement that the run created, among the
statuses that it was told and in the ledger entries that it posted. -/
structure Recorded (ctx : SettlementExecutionContext) (ω : Nat → Oracle) (db : Db) : Prop where
  hash : ((final ctx ω db).settlements.find? (ω 0).uuid).bind Settlement.txHash = some (ω 2).txHash
  failed : statusOf (final ctx ω db) (ω 0).uuid = some .failed ∨
      statusOf (final ctx ω db) (ω 0).uuid = some .retrying →
    ∃ status ∈ (final ctx ω db).reports.drop db.reports.length, status.status = .failed
  kept : ((settleIntent ctx).history handle ω 0 db).Pairwise fun t u =>
    statusOf t (ω 0).uuid = some .completed → statusOf u (ω 0).uuid = some .completed
  settlement : statusOf (final ctx ω db) (ω 0).uuid = some .completed →
    entriesOf ((final ctx ω db).ledger.drop db.ledger.length) .settlement ctx.intent.id = 1
  fee : statusOf (final ctx ω db) (ω 0).uuid = some .completed → ctx.merchant.feePercentage > 0 →
    entriesOf ((final ctx ω db).ledger.drop db.ledger.length) .fee ctx.intent.id = 1

/-- At most one later step fails: one call is rejected, or the confirmation times out. -/
structure OneFailure (ω : Nat → Oracle) (depth : Int) : Prop where
  call : ∀ i j, 3 ≤ i → 3 ≤ j → (ω i).rejects ≠ none → (ω j).rejects ≠ none → i = j
  timeout : ∀ k, (∀ i < k, Undecided depth (ω (6 + 3 * i + 1))) → maxWaitTime ≤ checkTime ω 6 k →
    ∀ i, 3 ≤ i → (ω i).rejects = none

theorem OneFailure.rest {depth : Int} {m : Nat} (h : OneFailure ω depth) (hfault : Faulted ω 3 m) (i : Nat)
    (hi : m ≤ i) : (ω i).rejects = none := by
  obtain ⟨j, hj, hjm, hrejects⟩ := hfault
  by_contra hrej
  have := h.call i j (by omega) hj hrej hrejects
  omega

/-- The call after poll `k`, where `complete` starts. -/
def closing (k : Nat) : Nat := 6 + 3 * k + 2

/-- The settlement is marked `COMPLETED` and its ledger entries are posted. -/
def Closed (ctx : SettlementExecutionContext) (ω : Nat → Oracle) (k : Nat) : Prop :=
  (ω (closing k + 1)).rejects = none ∧ (ω (closing k + 2)).rejects = none ∧ Posted ω (closing k + 3) ctx

/-- The settlement is not marked `COMPLETED`. -/
def Unmarked (ω : Nat → Oracle) (k : Nat) : Prop :=
  (ω (closing k + 1)).rejects ≠ none ∨ (ω (closing k + 2)).rejects ≠ none ∧ (ω (closing k + 2)).lost = false

/-- The hash is recorded, and the first poll to decide is in time, answered, and either reports a failure
before it is deep enough, or is deep enough with everything after it accepted; a failure may also
meet a rejected mark. -/
def Tracked (ctx : SettlementExecutionContext) (ω : Nat → Oracle) : Prop :=
  (ω 3).rejects = none ∧ (ω 4).rejects = none ∧ ∃ k, Polled ω ctx.chainClient.confirmationDepth 6 k ∧
    ((ω (6 + 3 * k + 1)).status.confirmations < ctx.chainClient.confirmationDepth ∧
        (ω (6 + 3 * k + 1)).status.status = .failed ∨
      ctx.chainClient.confirmationDepth ≤ (ω (6 + 3 * k + 1)).status.confirmations ∧
        (Closed ctx ω k ∨ (ω (6 + 3 * k + 1)).status.status = .failed ∧ Unmarked ω k))

/-! ## The two ways to miss the record -/

theorem not_recorded_of_failed (hfinal : statusOf (final ctx ω db) (ω 0).uuid = some .failed)
    (hreports : ∀ status ∈ (final ctx ω db).reports.drop db.reports.length, status.status ≠ .failed) :
    ¬ Recorded ctx ω db := by
  intro h
  obtain ⟨status, hmem, hfailed⟩ := h.failed (.inl hfinal)
  exact hreports status hmem hfailed

theorem not_recorded_of_overwritten {t : Db} (ht : t ∈ (settleIntent ctx).history handle ω 0 db)
    (hcompleted : statusOf t (ω 0).uuid = some .completed)
    (hfinal : statusOf (final ctx ω db) (ω 0).uuid ≠ some .completed) : ¬ Recorded ctx ω db := by
  intro h
  rcases List.mem_append.1 ht with ht | ht
  · exact hfinal ((List.pairwise_append.1 h.kept).2.2 t ht _ (List.mem_singleton_self _) hcompleted)
  · obtain rfl := List.mem_singleton.1 ht
    exact hfinal hcompleted

/-- A property that holds from some store of a list on is kept. -/
theorem pairwise_keeps {P : Db → Prop} {before after : List Db} (hbefore : ∀ t ∈ before, ¬ P t)
    (hafter : ∀ t ∈ after, P t) : (before ++ after).Pairwise fun t u => P t → P u :=
  List.pairwise_append.2
    ⟨List.pairwise_of_forall_mem_list fun t ht _ _ hp => absurd hp (hbefore t ht),
     List.pairwise_of_forall_mem_list fun _ _ u hu _ => hafter u hu, fun _ _ u hu _ => hafter u hu⟩

section
variable {db₁ db₂ db₃ : Db} {settlement row : Settlement} {m₂ m₃ : Nat}
variable (h : Created ctx ω db db₁ settlement row)
include h

/-- The failure handler marks the row, and no one reports anything any more. -/
theorem Created.final_failed {e : SettlementError} {m : Nat} {db' : Db} {row' : Settlement}
    (hfinal : final ctx ω db = ((handleSettlementFailure settlement.id e).run handle ω m db').2.2)
    (hrow : db'.settlements.find? settlement.id = some row') (hrest : ∀ i, m ≤ i → (ω i).rejects = none) :
    statusOf (final ctx ω db) (ω 0).uuid = some .failed ∧
      ((final ctx ω db).settlements.find? (ω 0).uuid).bind Settlement.txHash = row'.txHash ∧
      (final ctx ω db).reports = db'.reports := by
  obtain ⟨row'', hrow'', hhash, -, hfailed⟩ := handleSettlementFailure_run ω m e hrow
  rw [hfinal, statusOf, ← h.id, hrow'']
  exact ⟨congrArg some (hfailed hrest), hhash, reports_run (fail_not_polls settlement.id e)⟩

/-! ### The hash is not recorded, or the wait ends without a decision -/

theorem Created.not_recorded_of_unpaid {e : SettlementError} {row₂ : Settlement} {told : List TxStatus}
    (hpay : (pay ctx settlement).run handle ω 1 db₁ = (.error e, m₂, db₂))
    (hrow : db₂.settlements.find? settlement.id = some row₂) (hrest : ∀ i, m₂ ≤ i → (ω i).rejects = none)
    (hreports : db₂.reports = db₁.reports ++ told) (htold : ∀ status ∈ told, status.status ≠ .failed) :
    ¬ Recorded ctx ω db := by
  obtain ⟨hfailed, -, hreported⟩ := h.final_failed (h.final_of_unpaid hpay) hrow hrest
  refine not_recorded_of_failed hfailed ?_
  rwa [hreported, hreports, h.reports, List.drop_left]

/-! ### The chain reports a failure before the depth -/

theorem Created.fresh_status : statusOf db (ω 0).uuid ≠ some .completed := by
  rw [← h.id, statusOf, h.fresh]
  intro hcompleted
  cases hcompleted

theorem Created.recorded_of_reverted {e : SettlementError} {row₂ : Settlement} {k : Nat}
    (hpay : (pay ctx settlement).run handle ω 1 db₁ = (.error e, m₂, db₂))
    (hrow : db₂.settlements.find? settlement.id = some row₂) (hhash : row₂.txHash = some (ω 2).txHash)
    (hk : Polled ω ctx.chainClient.confirmationDepth 6 k)
    (hdepth : (ω (6 + 3 * k + 1)).status.confirmations < ctx.chainClient.confirmationDepth)
    (hfailed : (ω (6 + 3 * k + 1)).status.status = .failed)
    (hreports : db₂.reports = db₁.reports ++ polls ω 6 (k + 1)) : Recorded ctx ω db := by
  obtain ⟨row₃, hrow₃, hhash₃, hstatus₃, -⟩ := handleSettlementFailure_run ω m₂ e hrow
  have hfinal := h.final_of_unpaid hpay
  have hfound : (final ctx ω db).settlements.find? (ω 0).uuid = some row₃ := by rw [hfinal, ← h.id, hrow₃]
  have hreported : (final ctx ω db).reports = db.reports ++ polls ω 6 (k + 1) := by
    rw [hfinal, reports_run (fail_not_polls settlement.id e), hreports, h.reports]
  have hnever : ∀ t ∈ (settleIntent ctx).history handle ω 0 db, ¬ statusOf t (ω 0).uuid = some .completed := by
    intro t ht hcompleted
    -- a deep enough poll would be this one
    obtain ⟨m, hm, hdeep, -⟩ := completed_confirmed h.fresh_status ht hcompleted
    obtain rfl := hk.unique hm (fun hu => hu.2.2 hfailed) (fun hu => absurd hu.2.1 (Int.not_lt.2 hdeep))
    omega
  have hnot : statusOf (final ctx ω db) (ω 0).uuid ≠ some .completed :=
    hnever _ (Prog.mem_history_of_run rfl)
  refine ⟨by rw [hfound]; exact hhash₃.trans hhash,
    fun _ => ?_, ?_, fun hc => absurd hc hnot, fun hc => absurd hc hnot⟩
  · rw [hreported, List.drop_left]
    exact ⟨_, by simp [polls_succ], hfailed⟩
  · exact List.pairwise_of_forall_mem_list fun t ht _ _ hc => absurd hc (hnever t ht)

/-! ### The payment is confirmed -/

theorem Created.pay_never : ∀ t ∈ (pay ctx settlement).history handle ω 1 db₁,
    statusOf t (ω 0).uuid ≠ some .completed := by
  refine not_completed_history (pay_not_completes ctx settlement) ?_
  rw [statusOf, ← h.id, h.found, Option.map_some, h.status]
  intro hcompleted
  cases hcompleted

section
variable (hpay : (pay ctx settlement).run handle ω 1 db₁ = (.ok (), m₂, db₂))
include hpay

/-- Until the mark, the rows are as the payment left them. -/
theorem Created.not_completed_of_same {t : Db} (ht : t.settlements = db₂.settlements) :
    statusOf t (ω 0).uuid ≠ some .completed := by
  rw [statusOf, ht]
  exact h.pay_never db₂ (Prog.mem_history_of_run hpay)

/-- A store in which the settlement is `COMPLETED` is no use when the handler marks it `FAILED`. -/
theorem Created.not_recorded_of_overwritten {e : SettlementError} {row₃ : Settlement}
    (hclose : (close ctx settlement).run handle ω m₂ db₂ = (.error e, m₃, db₃))
    (hrow : db₃.settlements.find? settlement.id = some row₃) (hstatus : row₃.status = .completed)
    (hrest : ∀ i, m₃ ≤ i → (ω i).rejects = none) : ¬ Recorded ctx ω db := by
  obtain ⟨hfailed, -⟩ := h.final_failed (h.final_of_unclosed hpay hclose) hrow hrest
  refine Settlements.not_recorded_of_overwritten (t := db₃) ?_ ?_ (by rw [hfailed]; exact nofun)
  · rw [h.history_eq]
    refine List.mem_cons_of_mem _ (Prog.mem_history_tryCatch.2 (.inl (Prog.mem_history_bind.2 (.inr ?_))))
    exact ⟨(), m₂, db₂, hpay, Prog.mem_history_of_run hclose⟩
  · rw [statusOf, ← h.id, hrow, Option.map_some, hstatus]

theorem Created.never_of_unmarked {e : SettlementError} {clock : Time}
    (hcomplete : (complete settlement.id).run handle ω m₂ db₂ = (.error e, m₃, { db₂ with clock })) :
    ∀ t ∈ (settleIntent ctx).history handle ω 0 db, ¬ statusOf t (ω 0).uuid = some .completed := by
  have hclose : (close ctx settlement).run handle ω m₂ db₂ = (.error e, m₃, { db₂ with clock }) :=
    Prog.run_bind_of_error handle ω _ hcomplete
  intro t ht
  rw [h.history_eq] at ht
  rcases List.mem_cons.1 ht with rfl | ht
  · exact h.fresh_status
  rcases Prog.mem_history_tryCatch.1 ht with ht | ⟨e', m, u, hrun, ht⟩
  · rcases Prog.mem_history_bind.1 ht with ht | ⟨⟨⟩, m, u, hrun, ht⟩
    · exact h.pay_never t ht
    · cases hpay.symm.trans hrun
      rcases Prog.mem_history_bind.1 ht with ht | ⟨_, _, _, hrun', _⟩
      · rcases List.mem_append.1 ht with ht | ht
        · exact h.not_completed_of_same hpay (complete_trace t ht)
        · rw [List.mem_singleton.1 ht, hcomplete]
          exact h.not_completed_of_same hpay rfl
      · cases hcomplete.symm.trans hrun'
  · cases ((Prog.run_bind_of_ok handle ω _ hpay).trans hclose).symm.trans hrun
    have hdb₃ := h.not_completed_of_same hpay (t := { db₂ with clock }) rfl
    exact not_completed_history (fail_not_completes settlement.id e) hdb₃ t ht

/-- When the mark is refused, the row is `FAILED`, which is right if the chain said so. -/
theorem Created.recorded_of_unmarked_iff {e : SettlementError} {row₂ : Settlement} {k : Nat} {clock : Time}
    (hcomplete : (complete settlement.id).run handle ω m₂ db₂ = (.error e, m₃, { db₂ with clock }))
    (hrow : db₂.settlements.find? settlement.id = some row₂) (hhash : row₂.txHash = some (ω 2).txHash)
    (hk : Polled ω ctx.chainClient.confirmationDepth 6 k)
    (hreports : db₂.reports = db₁.reports ++ polls ω 6 (k + 1))
    (hrest : ∀ i, m₃ ≤ i → (ω i).rejects = none) :
    Recorded ctx ω db ↔ (ω (6 + 3 * k + 1)).status.status = .failed := by
  have hclose : (close ctx settlement).run handle ω m₂ db₂ = (.error e, m₃, { db₂ with clock }) :=
    Prog.run_bind_of_error handle ω _ hcomplete
  have hrow₃ : ({ db₂ with clock } : Db).settlements.find? settlement.id = some row₂ := hrow
  obtain ⟨hfailed, hfinalHash, hreported⟩ := h.final_failed (h.final_of_unclosed hpay hclose) hrow₃ hrest
  have htold : (final ctx ω db).reports.drop db.reports.length = polls ω 6 (k + 1) := by
    have hall : (final ctx ω db).reports = db.reports ++ polls ω 6 (k + 1) := by
      rw [hreported, ← h.reports]
      exact hreports
    rw [hall, List.drop_left]
  constructor
  · intro hrecorded
    obtain ⟨status, hmem, hstatus⟩ := hrecorded.failed (.inl hfailed)
    rw [htold, polls_succ] at hmem
    rcases List.mem_append.1 hmem with hmem | hmem
    · obtain ⟨i, hi, rfl⟩ := List.mem_map.1 hmem
      exact absurd hstatus (hk.prev i (List.mem_range.1 hi)).2.2
    · rwa [List.mem_singleton.1 hmem] at hstatus
  · intro hstatus
    have hnot : statusOf (final ctx ω db) (ω 0).uuid ≠ some .completed := by
      rw [hfailed]
      exact nofun
    refine ⟨hfinalHash.trans hhash, fun _ => ?_, ?_, fun hc => absurd hc hnot, fun hc => absurd hc hnot⟩
    · rw [htold]
      exact ⟨_, by simp [polls_succ], hstatus⟩
    · exact List.pairwise_of_forall_mem_list fun t ht _ _ hc =>
        absurd hc (h.never_of_unmarked hpay hcomplete t ht)

/-- Everything after the confirmation is accepted. -/
theorem Created.recorded_of_closed {row₃ : Settlement} {m₄ : Nat} {entries : List LedgerEntry} {clock : Time}
    (hcomplete : (complete settlement.id).run handle ω m₂ db₂ = (.ok row₃, m₃, db₃))
    (hrecord : (record ctx (calculateSettlementAmount ctx.intent.targetAmount ctx.merchant.feePercentage) row₃).run
      handle ω m₃ db₃ = (.ok row₃, m₄, { db₃ with ledger := db₃.ledger ++ entries, clock }))
    (hrow : db₃.settlements.find? settlement.id = some row₃) (hhash : row₃.txHash = some (ω 2).txHash)
    (hstatus : row₃.status = .completed) (hledger : db₃.ledger = db₁.ledger)
    (hsettlement : entriesOf entries .settlement ctx.intent.id = 1)
    (hfee : ctx.merchant.feePercentage > 0 → entriesOf entries .fee ctx.intent.id = 1) : Recorded ctx ω db := by
  have hclose := (Prog.run_bind_of_ok handle ω _ hcomplete).trans hrecord
  have hfinal := h.final_of_closed hpay hclose
  have hfound : (final ctx ω db).settlements.find? (ω 0).uuid = some row₃ := by rw [hfinal, ← h.id]; exact hrow
  have hcompleted : statusOf (final ctx ω db) (ω 0).uuid = some .completed := by
    rw [statusOf, hfound, Option.map_some, hstatus]
  have hposted : (final ctx ω db).ledger.drop db.ledger.length = entries := by
    have hall : (final ctx ω db).ledger = db.ledger ++ entries := by rw [hfinal, ← h.ledger, ← hledger]
    rw [hall, List.drop_left]
  refine ⟨by rw [hfound]; exact hhash, fun hf => ?_, ?_, fun _ => ?_, fun _ hpos => ?_⟩
  · rcases hf with hf | hf <;> cases hcompleted.symm.trans hf
  · rw [h.history_eq, Prog.history_tryCatch_of_ok handle ω _ ((Prog.run_bind_of_ok handle ω _ hpay).trans hclose),
      Prog.history_bind_of_ok handle ω _ hpay, close, Prog.history_bind_of_ok handle ω _ hcomplete,
      ← List.append_assoc, ← List.cons_append]
    refine pairwise_keeps (fun t ht => ?_) fun t ht => ?_
    · rcases List.mem_cons.1 ht with rfl | ht
      · exact h.fresh_status
      · rcases List.mem_append.1 ht with ht | ht
        · exact h.pay_never t (Prog.trace_subset_history _ _ _ ht)
        · exact h.not_completed_of_same hpay (complete_trace t ht)
    · rw [statusOf, record_history ctx _ row₃ t ht, ← h.id, hrow, Option.map_some, hstatus]
  · rw [hposted, hsettlement]
  · rw [hposted, hfee hpos]

/-- Once the row is `COMPLETED` the ledger entries have to be accepted. -/
theorem Created.recorded_iff_of_marked {row₃ : Settlement}
    (hcomplete : (complete settlement.id).run handle ω m₂ db₂ = (.ok row₃, m₃, db₃))
    (hrow : db₃.settlements.find? settlement.id = some row₃) (hhash : row₃.txHash = some (ω 2).txHash)
    (hstatus : row₃.status = .completed) (hintent : row₃.intentId = ctx.intent.id)
    (hledger : db₃.ledger = db₁.ledger)
    (hrest : ∀ m, Faulted ω m₃ m → ∀ i, m ≤ i → (ω i).rejects = none) :
    Recorded ctx ω db ↔ Posted ω m₃ ctx := by
  let settlementAmount := calculateSettlementAmount ctx.intent.targetAmount ctx.merchant.feePercentage
  have hrecording := record_run ω m₃ db₃ ctx settlementAmount row₃
  rcases hrecord : (record ctx settlementAmount row₃).run handle ω m₃ db₃ with ⟨out, m₄, db₄⟩
  rw [hrecord] at hrecording
  cases hrecording with
  | posted clock hposted hsettlement hfee =>
    rw [hintent] at hsettlement
    exact iff_of_true
      (h.recorded_of_closed hpay hcomplete hrecord hrow hhash hstatus hledger hsettlement hfee) hposted
  | rejected hposted hfault =>
    have hsame : db₄.settlements = db₃.settlements :=
      record_history ctx _ row₃ _ (Prog.mem_history_of_run hrecord)
    have hclose := (Prog.run_bind_of_ok handle ω (record ctx settlementAmount) hcomplete).trans hrecord
    exact iff_of_false (h.not_recorded_of_overwritten hpay hclose (hsame ▸ hrow) hstatus (hrest _ hfault)) hposted

end

/-- What the record needs when the payment is confirmed by poll `k`. -/
theorem Created.recorded_iff_of_deep {row₂ : Settlement} {k : Nat}
    (hpay : (pay ctx settlement).run handle ω 1 db₁ = (.ok (), closing k, db₂))
    (hrow : db₂.settlements.find? settlement.id = some row₂) (hhash : row₂.txHash = some (ω 2).txHash)
    (hintent : row₂.intentId = ctx.intent.id) (hk : Polled ω ctx.chainClient.confirmationDepth 6 k)
    (hledger : db₂.ledger = db₁.ledger) (hreports : db₂.reports = db₁.reports ++ polls ω 6 (k + 1))
    (hone : OneFailure ω ctx.chainClient.confirmationDepth) :
    Recorded ctx ω db ↔ Closed ctx ω k ∨ (ω (6 + 3 * k + 1)).status.status = .failed ∧ Unmarked ω k := by
  obtain ⟨params, hstatus, hnohash, hupdated⟩ := complete_run ω (closing k) hrow
  rcases hcomplete : (complete settlement.id).run handle ω (closing k) db₂ with ⟨out, m₃, db₃⟩
  rw [hcomplete] at hupdated
  have hmarked (clock : Time) : (params.set clock row₂).status = .completed := by rw [set_status, hstatus]; rfl
  have hticked : (db₂.tick (ω (closing k))).settlements.find? settlement.id = some row₂ := hrow
  have hfound (clock : Time) := find?_write params clock hticked
  have hlate : 3 ≤ closing k := by unfold closing; omega
  cases hupdated with
  | refused clock hfault =>
    have hunmarked : Unmarked ω k ∧ Faulted ω 3 m₃ := by
      rcases hfault with ⟨hfind, rfl⟩ | ⟨hupdate, hlost, rfl⟩
      · exact ⟨.inl hfind, closing k + 1, by omega, by omega, hfind⟩
      · exact ⟨.inr ⟨hupdate, hlost⟩, closing k + 2, by omega, by omega, hupdate⟩
    have hnot : ¬ Closed ctx ω k := fun hc =>
      hunmarked.1.elim (fun hfind => hfind hc.1) fun hupdate => hupdate.1 hc.2.1
    rw [h.recorded_of_unmarked_iff hpay hcomplete hrow hhash hk hreports (hone.rest hunmarked.2)]
    exact ⟨fun hf => .inr ⟨hf, hunmarked.1⟩, fun hc => hc.elim (fun hc => absurd hc hnot) And.left⟩
  | lost clock hfind hupdate hlost =>
    have hrest := hone.rest (m := closing k + 3) ⟨closing k + 2, by omega, by omega, hupdate⟩
    refine iff_of_false (h.not_recorded_of_overwritten hpay (Prog.run_bind_of_error handle ω _ hcomplete)
      (hfound clock) (hmarked clock) hrest) ?_
    rintro (hc | ⟨-, hc | ⟨-, hc⟩⟩)
    · exact hupdate hc.2.1
    · exact hc hfind
    · cases hlost.symm.trans hc
  | done clock hfind hupdate =>
    have hrest (m : Nat) (hfault : Faulted ω (closing k + 3) m) : ∀ i, m ≤ i → (ω i).rejects = none := by
      obtain ⟨j, hj, hjm, hrejects⟩ := hfault
      exact hone.rest ⟨j, by omega, hjm, hrejects⟩
    rw [h.recorded_iff_of_marked hpay hcomplete (hfound clock) ?_ (hmarked clock) hintent hledger hrest]
    · constructor
      · exact fun hposted => .inl ⟨hfind, hupdate, hposted⟩
      · rintro (hc | ⟨-, hc | ⟨hc, -⟩⟩)
        · exact hc.2.2
        · exact absurd hfind hc
        · exact absurd hupdate hc
    · rw [set_txHash, hnohash]
      exact hhash

end

/-! ## The condition -/

theorem not_tracked {k : Nat} (hprev : ∀ i < k, Undecided ctx.chainClient.confirmationDepth (ω (6 + 3 * i + 1)))
    (hk : ¬ Polled ω ctx.chainClient.confirmationDepth 6 k) : ¬ Tracked ctx ω := by
  rintro ⟨-, -, m, hm, hdecided⟩
  have hundecided := hm.undecided hprev hk
  rcases hdecided with ⟨-, hfailed⟩ | ⟨hdepth, -⟩
  · exact hundecided.2.2 hfailed
  · exact not_undecided_of_deep hdepth hundecided

theorem tracked_iff_of_deep {k : Nat} (hfind : (ω 3).rejects = none) (hupdate : (ω 4).rejects = none)
    (hk : Polled ω ctx.chainClient.confirmationDepth 6 k)
    (hdepth : ctx.chainClient.confirmationDepth ≤ (ω (6 + 3 * k + 1)).status.confirmations) :
    Tracked ctx ω ↔ Closed ctx ω k ∨ (ω (6 + 3 * k + 1)).status.status = .failed ∧ Unmarked ω k := by
  constructor
  · rintro ⟨-, -, m, hm, ⟨hshallow, hfailed⟩ | ⟨hdeep, hrest⟩⟩
    · obtain rfl := hk.unique hm (not_undecided_of_deep hdepth) fun hu => hu.2.2 hfailed
      omega
    · obtain rfl := hk.unique hm (not_undecided_of_deep hdepth) (not_undecided_of_deep hdeep)
      exact hrest
  · exact fun hrest => ⟨hfind, hupdate, k, hk, .inr ⟨hdepth, hrest⟩⟩

theorem not_failed_of_undecided {k : Nat} {depth : Int} (hprev : ∀ i < k, Undecided depth (ω (6 + 3 * i + 1))) :
    ∀ status ∈ polls ω 6 k, status.status ≠ .failed := by
  intro status hmem
  obtain ⟨i, hi, rfl⟩ := List.mem_map.1 hmem
  exact (hprev i (List.mem_range.1 hi)).2.2

/-- **The record is right after one failing step** exactly when the hash is recorded and the chain's
decision is reached and, unless it is a failure, everything after it accepted. -/
theorem recorded_iff (ctx : SettlementExecutionContext) (ω : Nat → Oracle) (db : Db) (hsub : Submitted ω db)
    (hone : OneFailure ω ctx.chainClient.confirmationDepth) : Recorded ctx ω db ↔ Tracked ctx ω := by
  obtain ⟨db₁, settlement, row, h⟩ := hsub.created ctx
  have hpaying := pay_run ω 1 ctx h.found hsub.estimated hsub.submitted
  rcases hpay : (pay ctx settlement).run handle ω 1 db₁ with ⟨out, m₂, db₂⟩
  rw [hpay] at hpaying
  cases hpaying with
  | unrecorded hfault hupdate hrow hreports =>
    have hnil : db₂.reports = db₁.reports ++ [] := by rw [hreports, List.append_nil]
    exact iff_of_false
      (h.not_recorded_of_unpaid hpay hrow (hone.rest hfault) hnil fun _ hmem => absurd hmem List.not_mem_nil)
      fun ht => hupdate ht.1 ht.2.1
  | waited hfind hupdate hwaited hrow hhash hintent hledger hreports =>
    cases hwaited with
    | timedOut hprev htime =>
      have hrest := hone.timeout _ hprev htime
      exact iff_of_false
        (h.not_recorded_of_unpaid hpay hrow (fun i hi => hrest i (by omega)) hreports
          (not_failed_of_undecided hprev))
        (not_tracked hprev fun hk => Nat.not_lt.2 htime hk.time)
    | @rejected k message hprev htime hpoll =>
      have hfault : (ω (6 + 3 * k + 1)).rejects ≠ none := by rw [hpoll]; exact nofun
      have hrest := hone.rest (m := 6 + 3 * k + 2) ⟨_, by omega, Nat.lt_succ_self _, hfault⟩
      exact iff_of_false (h.not_recorded_of_unpaid hpay hrow hrest hreports (not_failed_of_undecided hprev))
        (not_tracked hprev fun hk => hfault hk.answered)
    | reverted hk hdepth hfailed =>
      exact iff_of_true (h.recorded_of_reverted hpay hrow hhash hk hdepth hfailed hreports)
        ⟨hfind, hupdate, _, hk, .inl ⟨hdepth, hfailed⟩⟩
    | @confirmed k hk hdepth =>
      rw [tracked_iff_of_deep hfind hupdate hk hdepth]
      exact h.recorded_iff_of_deep hpay hrow hhash (hintent.trans h.intentId) hk hledger hreports hone

/-- Every call is accepted, and the first poll confirms. -/
def confirming : Nat → Oracle := fun _ =>
  { uuid := "s1", txHash := "0xh", status := { txHash := "0xh", status := .confirmed, confirmations := 12 } }

/-- The rule on a run without failures. -/
theorem recorded_confirming : Recorded context confirming emptyDb :=
  (recorded_iff context confirming emptyDb ⟨rfl, rfl, rfl, rfl⟩
    ⟨fun _ _ _ _ h _ => absurd rfl h, fun _ _ _ _ _ => rfl⟩).2
    ⟨rfl, rfl, 0, ⟨nofun, by decide, rfl⟩, .inr ⟨by decide, .inl ⟨rfl, rfl, rfl, fun _ => rfl⟩⟩⟩

/-- Call 12, the entry of the settlement, is rejected. -/
def entryRejected : Nat → Oracle := fun i =>
  { confirming i with rejects := if i = 12 then some "Connection terminated unexpectedly" else none }

/-- The payment was confirmed, and the settlement that was `COMPLETED` ends as `FAILED`. -/
theorem not_recorded_entry : Submitted entryRejected emptyDb ∧ OneFailure entryRejected 12 ∧
    (final context entryRejected emptyDb).reports.map TxStatus.status = [.confirmed] ∧
    statusOf (final context entryRejected emptyDb) "s1" = some .failed ∧
    ¬ Recorded context entryRejected emptyDb := by
  have honly (i : Nat) (h : (entryRejected i).rejects ≠ none) : i = 12 := by
    by_contra hi
    exact h (if_neg hi)
  have hfailed : statusOf (final context entryRejected emptyDb) "s1" = some .failed := by decide +kernel
  have hreports : (final context entryRejected emptyDb).reports.map TxStatus.status = [.confirmed] := by
    decide +kernel
  refine ⟨⟨rfl, rfl, rfl, rfl⟩,
    ⟨fun i j _ _ hi hj => (honly i hi).trans (honly j hj).symm, fun k hprev htime => ?_⟩,
    hreports, hfailed, not_recorded_of_failed hfailed fun status hmem hstatus => ?_⟩
  · cases k with
    | zero => exact absurd htime (by decide)
    | succ k => exact absurd (hprev 0 (Nat.succ_pos k)) (not_undecided_of_deep (by decide))
  · have hmem' := List.mem_map_of_mem (f := TxStatus.status) (List.mem_of_mem_drop hmem)
    rw [hreports, hstatus] at hmem'
    exact absurd hmem' (by decide)

end NexoraGateway.Settlements
