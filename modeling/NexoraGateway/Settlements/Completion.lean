import Mathlib.Data.Fintype.EquivFin
import NexoraGateway.Settlements.Runs

/-!
# When a settlement becomes `COMPLETED`

`completed_confirmed` — only after a poll in time that was deep enough. The poll loop looks at the
depth before it looks at a failure, so the EVM client, which reports both, can have a reverted payout
recorded as `COMPLETED`; `completed_sound_iff` says for which answers of the chain that does not happen.
-/
namespace NexoraGateway.Settlements

open Async Chain Store

variable {ω : Nat → Oracle} {db : Db} {id : Id} {ctx : SettlementExecutionContext}

/-- The store in which `settleIntent` ends. -/
def final (ctx : SettlementExecutionContext) (ω : Nat → Oracle) (db : Db) : Db :=
  ((settleIntent ctx).run handle ω 0 db).2.2

/-- `submitTransaction` answers: the row is created under a fresh id and the chain's calls are accepted. -/
structure Submitted (ω : Nat → Oracle) (db : Db) : Prop where
  fresh : db.settlements.find? (ω 0).uuid = none
  inserted : (ω 0).rejects = none
  estimated : (ω 1).rejects = none
  submitted : (ω 2).rejects = none

/-- The store in which the row has been created. -/
structure Created (ctx : SettlementExecutionContext) (ω : Nat → Oracle) (db db₁ : Db)
    (settlement row : Settlement) :
    Prop where
  run : (Task.create (createParams ctx)).run handle ω 0 db = (.ok settlement, 1, db₁)
  id : settlement.id = (ω 0).uuid
  found : db₁.settlements.find? settlement.id = some row
  intentId : row.intentId = ctx.intent.id
  status : row.status = .pending
  ledger : db₁.ledger = db.ledger
  reports : db₁.reports = db.reports
  fresh : db.settlements.find? settlement.id = none

theorem Submitted.created (h : Submitted ω db) (ctx : SettlementExecutionContext) :
    ∃ db₁ settlement row, Created ctx ω db db₁ settlement row := by
  let settlement := newSettlement (ω 0) (createParams ctx) (db.tick (ω 0)).clock
  let row := { settlement with amount := decimal8 (createParams ctx).amount }
  have hfresh : db.settlements.find? row.id = none := h.fresh
  obtain ⟨settlements, hins⟩ := Option.isSome_iff_exists.1 (Table.insert?_isSome.2 hfresh)
  refine ⟨{ db.tick (ω 0) with settlements }, settlement, row, ?_, rfl, ?_, rfl, rfl, rfl, rfl, hfresh⟩
  · have hcreate : create (ω 0) (createParams ctx) (db.tick (ω 0)) =
        request (ω 0) (settlement, { db.tick (ω 0) with settlements }) (db.tick (ω 0)) := by
      unfold create
      dsimp only
      split
      · rename_i hnone
        exact absurd (hins.symm.trans hnone) nofun
      · rename_i settlements' hsome
        cases hins.symm.trans hsome
        rfl
    rw [run_create, hcreate, request_accepted h.inserted]
  · rw [Table.find?_insert? hins, if_pos rfl]

section
variable {db₁ db₂ db₃ : Db} {settlement row : Settlement} {m₂ m₃ : Nat}

/-- The run and the history after the row has been created. -/
theorem Created.run_eq (h : Created ctx ω db db₁ settlement row) :
    (settleIntent ctx).run handle ω 0 db = (((pay ctx settlement).bind fun _ => close ctx settlement).tryCatch
      (handleSettlementFailure settlement.id)).run handle ω 1 db₁ := by
  rw [settleIntent_eq, Prog.run_bind_of_ok handle ω _ h.run]

theorem Created.history_eq (h : Created ctx ω db db₁ settlement row) :
    (settleIntent ctx).history handle ω 0 db =
      db :: (((pay ctx settlement).bind fun _ => close ctx settlement).tryCatch
        (handleSettlementFailure settlement.id)).history handle ω 1 db₁ := by
  have htrace : (Task.create (createParams ctx)).trace handle ω 0 db = [db] := Prog.trace_await ..
  rw [settleIntent_eq, Prog.history_bind_of_ok handle ω _ h.run, htrace]
  rfl

variable (h : Created ctx ω db db₁ settlement row)
include h

theorem Created.final_of_unpaid {e : SettlementError}
    (hpay : (pay ctx settlement).run handle ω 1 db₁ = (.error e, m₂, db₂)) :
    final ctx ω db = ((handleSettlementFailure settlement.id e).run handle ω m₂ db₂).2.2 := by
  rw [final, h.run_eq, Prog.run_tryCatch_of_error handle ω _ (Prog.run_bind_of_error handle ω _ hpay)]

theorem Created.final_of_unclosed {e : SettlementError}
    (hpay : (pay ctx settlement).run handle ω 1 db₁ = (.ok (), m₂, db₂))
    (hclose : (close ctx settlement).run handle ω m₂ db₂ = (.error e, m₃, db₃)) :
    final ctx ω db = ((handleSettlementFailure settlement.id e).run handle ω m₃ db₃).2.2 := by
  rw [final, h.run_eq, Prog.run_tryCatch_of_error handle ω _ ((Prog.run_bind_of_ok handle ω _ hpay).trans hclose)]

theorem Created.final_of_closed {completed : Settlement}
    (hpay : (pay ctx settlement).run handle ω 1 db₁ = (.ok (), m₂, db₂))
    (hclose : (close ctx settlement).run handle ω m₂ db₂ = (.ok completed, m₃, db₃)) :
    final ctx ω db = db₃ := by
  rw [final, h.run_eq, Prog.run_tryCatch_of_ok handle ω _ ((Prog.run_bind_of_ok handle ω _ hpay).trans hclose)]

end

/-! ## Only a confirmed payment completes -/

/-- A settlement that `settleIntent` makes `COMPLETED` was confirmed by the last status reported. -/
theorem completed_confirmed (hdb : statusOf db id ≠ some .completed) {t : Db}
    (ht : t ∈ (settleIntent ctx).history handle ω 0 db) (hcompleted : statusOf t id = some .completed) :
    ∃ k, Polled ω ctx.chainClient.confirmationDepth 6 k ∧
      ctx.chainClient.confirmationDepth ≤ (ω (6 + 3 * k + 1)).status.confirmations ∧
      t.reports.getLast? = some (ω (6 + 3 * k + 1)).status := by
  have hcreate : (Task.create (createParams ctx)).Only (fun a => ¬ a.Completes) fun _ => True := by
    have hnot : ¬ (Call.create (createParams ctx)).Completes := not_false
    exact Prog.Only.await hnot
  have hcreated : ∀ t ∈ (Task.create (createParams ctx)).history handle ω 0 db, statusOf t id ≠ some .completed :=
    not_completed_history hcreate hdb
  rw [settleIntent_eq, Prog.mem_history_bind] at ht
  rcases ht with ht | ⟨settlement, m₁, db₁, hrun₁, ht⟩
  · exact absurd hcompleted (hcreated t ht)
  have hdb₁ : statusOf db₁ id ≠ some .completed := hcreated db₁ (Prog.mem_history_of_run hrun₁)
  obtain rfl : m₁ = 1 := (congrArg (·.2.1) ((run_create _).symm.trans hrun₁)).symm
  have hpay : ∀ t ∈ (pay ctx settlement).history handle ω 1 db₁, statusOf t id ≠ some .completed :=
    not_completed_history (pay_not_completes ctx settlement) hdb₁
  -- from the confirmation on nothing is reported
  have hconfirmed {m : Nat} {db₂ : Db} (hrun₂ : (pay ctx settlement).run handle ω 1 db₁ = (.ok (), m, db₂))
      (hreports : t.reports = db₂.reports) : ∃ k, Polled ω ctx.chainClient.confirmationDepth 6 k ∧
        ctx.chainClient.confirmationDepth ≤ (ω (6 + 3 * k + 1)).status.confirmations ∧
        t.reports.getLast? = some (ω (6 + 3 * k + 1)).status := by
    obtain ⟨k, hk, hdepth, hlast⟩ := pay_ok hrun₂
    exact ⟨k, hk, hdepth, hreports ▸ hlast⟩
  rcases Prog.mem_history_tryCatch.1 ht with ht | ⟨e, m, db₃, hrun₃, ht⟩
  · rcases Prog.mem_history_bind.1 ht with ht | ⟨⟨⟩, m, db₂, hrun₂, ht⟩
    · exact absurd hcompleted (hpay t ht)
    · exact hconfirmed hrun₂ (reports_history (close_not_polls ctx settlement) t ht)
  · have hfail : t.reports = db₃.reports := reports_history (fail_not_polls settlement.id e) t ht
    rcases hrun₂ : (pay ctx settlement).run handle ω 1 db₁ with ⟨out, m₂, db₂⟩
    cases out with
    | error e' =>
      rw [Prog.run_bind_of_error handle ω _ hrun₂] at hrun₃
      cases hrun₃
      have hdb₃ := hpay db₃ (Prog.mem_history_of_run hrun₂)
      exact absurd hcompleted (not_completed_history (fail_not_completes settlement.id e) hdb₃ t ht)
    | ok _ =>
      rw [Prog.run_bind_of_ok handle ω _ hrun₂] at hrun₃
      have hclose := reports_history (close_not_polls ctx settlement) db₃ (Prog.mem_history_of_run hrun₃)
      exact hconfirmed hrun₂ (hfail.trans hclose)

theorem Created.status_of_marked {db₁ db₂ db₃ : Db} {settlement row row₃ : Settlement} {m₂ m₃ : Nat}
    (h : Created ctx ω db db₁ settlement row)
    (hpay : (pay ctx settlement).run handle ω 1 db₁ = (.ok (), m₂, db₂))
    (hcomplete : (complete settlement.id).run handle ω m₂ db₂ = (.ok row₃, m₃, db₃))
    (hrow : db₃.settlements.find? settlement.id = some row₃) (hall : ∀ i, (ω i).rejects = none) :
    statusOf (final ctx ω db) (ω 0).uuid = some row₃.status := by
  let settlementAmount := calculateSettlementAmount ctx.intent.targetAmount ctx.merchant.feePercentage
  have hrecording := record_run ω m₃ db₃ ctx settlementAmount row₃
  rcases hrecord : (record ctx settlementAmount row₃).run handle ω m₃ db₃ with ⟨out, m₄, db₄⟩
  rw [hrecord] at hrecording
  cases hrecording with
  | posted clock hposted =>
    rw [h.final_of_closed hpay ((Prog.run_bind_of_ok handle ω _ hcomplete).trans hrecord), statusOf, ← h.id]
    exact congrArg (Option.map Settlement.status) hrow
  | rejected _ hfault =>
    obtain ⟨i, -, -, hrejects⟩ := hfault
    exact absurd (hall i) hrejects

/-- With every call accepted, a poll that is deep enough completes the settlement. -/
theorem completed_of_deep {k : Nat} (hsub : Submitted ω db) (hall : ∀ i, (ω i).rejects = none)
    (hk : Polled ω ctx.chainClient.confirmationDepth 6 k)
    (hdepth : ctx.chainClient.confirmationDepth ≤ (ω (6 + 3 * k + 1)).status.confirmations) :
    statusOf (final ctx ω db) (ω 0).uuid = some .completed := by
  obtain ⟨db₁, settlement, row, h⟩ := hsub.created ctx
  have hpaying := pay_run ω 1 ctx h.found hsub.estimated hsub.submitted
  rcases hpay : (pay ctx settlement).run handle ω 1 db₁ with ⟨out, m₂, db₂⟩
  rw [hpay] at hpaying
  cases hpaying with
  | unrecorded hfault hupdate => exact absurd (hall 4) (hupdate (hall 3))
  | waited hfind hupdate hwaited hrow =>
    cases hwaited with
    | timedOut hprev htime =>
      exact absurd (hk.undecided hprev fun hk' => Nat.not_lt.2 htime hk'.time) (not_undecided_of_deep hdepth)
    | rejected hprev htime hpoll => cases (hall _).symm.trans hpoll
    | reverted hk' hshallow hfailed =>
      obtain rfl := hk.unique hk' (not_undecided_of_deep hdepth) fun hu => hu.2.2 hfailed
      exact absurd hdepth (Int.not_le.2 hshallow)
    | @confirmed k' _ _ =>
      obtain ⟨params, hstatus, -, hupdated⟩ := complete_run ω (6 + 3 * k' + 2) hrow
      rcases hcomplete : (complete settlement.id).run handle ω (6 + 3 * k' + 2) db₂ with ⟨out, m₃, db₃⟩
      rw [hcomplete] at hupdated
      cases hupdated with
      | refused clock hfault => rcases hfault with ⟨hfault, -⟩ | ⟨hfault, -⟩ <;> exact absurd (hall _) hfault
      | lost clock _ hfault => exact absurd (hall _) hfault
      | done clock =>
        have hticked : (db₂.tick (ω (6 + 3 * k' + 2))).settlements.find? settlement.id = some _ := hrow
        rw [h.status_of_marked hpay hcomplete (find?_write params clock hticked) hall, set_status, hstatus]
        rfl

/-! ## Reverted payouts -/

/-- The polls are answered by the EVM client from the RPC answers `rpc`. -/
def AnswersFrom (ω : Nat → Oracle) (confirmationDepth : Int) (rpc : Nat → RpcAnswer) : Prop :=
  ∀ k, (ω (6 + 3 * k + 1)).status = getTransactionStatus confirmationDepth (ω 2).txHash (rpc k)

/-- The last status reported is no failure and is deep enough. -/
def Db.Sound (db : Db) (confirmationDepth : Int) : Prop :=
  ∃ status, db.reports.getLast? = some status ∧ status.status ≠ .failed ∧
    confirmationDepth ≤ status.confirmations

theorem exists_fresh (db : Db) : ∃ uuid, db.settlements.find? uuid = none := by
  obtain ⟨uuid, huuid⟩ := Infinite.exists_notMem_finset (db.settlements.rows.map Settlement.id).toFinset
  refine ⟨uuid, Table.find?_eq_none.2 fun row hrow hid => huuid ?_⟩
  exact List.mem_toFinset.2 (hid ▸ List.mem_map_of_mem hrow)

/-- Every call is accepted at once, and the polls are answered from `rpc`. -/
def prompt (confirmationDepth : Int) (uuid : Id) (rpc : Nat → RpcAnswer) : Nat → Oracle := fun i =>
  { uuid, status := getTransactionStatus confirmationDepth "" (rpc ((i - 7) / 3)) }

theorem prompt_answers (confirmationDepth : Int) (uuid : Id) (rpc : Nat → RpcAnswer) :
    AnswersFrom (prompt confirmationDepth uuid rpc) confirmationDepth rpc := by
  intro k
  have hk : (6 + 3 * k + 1 - 7) / 3 = k := by omega
  simp only [prompt, hk]

/-- A reverted receipt that is deep enough when it is the first to decide does complete the settlement. -/
theorem completed_of_reverted {rpc : Nat → RpcAnswer} {k : Nat} (hk : k < 150)
    (hprev : ∀ i < k, (rpc i).confirmations < ctx.chainClient.confirmationDepth ∧ ¬ (rpc i).Reverted)
    (hreverted : (rpc k).Reverted) (hdeep : ctx.chainClient.confirmationDepth ≤ (rpc k).confirmations) (db : Db) :
    ∃ ω id, AnswersFrom ω ctx.chainClient.confirmationDepth rpc ∧ statusOf db id ≠ some .completed ∧
      statusOf (final ctx ω db) id = some .completed ∧
        ¬ (final ctx ω db).Sound ctx.chainClient.confirmationDepth := by
  obtain ⟨uuid, hfresh⟩ := exists_fresh db
  let ω := prompt ctx.chainClient.confirmationDepth uuid rpc
  have hω : AnswersFrom ω ctx.chainClient.confirmationDepth rpc := prompt_answers _ _ _
  have hpolled : Polled ω ctx.chainClient.confirmationDepth 6 k := by
    refine ⟨fun i hi => ⟨rfl, ?_, fun hf => ?_⟩, ?_, rfl⟩
    · rw [hω i, getTransactionStatus_confirmations]
      exact (hprev i hi).1
    · rw [hω i] at hf
      exact (hprev i hi).2 (getTransactionStatus_failed.1 hf)
    · rw [checkTime, elapsed_of_prompt fun _ => rfl]
      show k * 2000 + 0 < 300000
      omega
  have hdepth : ctx.chainClient.confirmationDepth ≤ (ω (6 + 3 * k + 1)).status.confirmations := by
    rw [hω k, getTransactionStatus_confirmations]
    exact hdeep
  have hdb : statusOf db uuid ≠ some .completed := by
    rw [statusOf, hfresh]
    intro h
    cases h
  have hcompleted := completed_of_deep ⟨hfresh, rfl, rfl, rfl⟩ (fun _ => rfl) hpolled hdepth
  refine ⟨ω, uuid, hω, hdb, hcompleted, ?_⟩
  rintro ⟨status, hlast, hnot, -⟩
  -- the last status is that of the poll that confirmed, which is this one
  obtain ⟨m, hm, hdepth', hlast'⟩ := completed_confirmed hdb (Prog.mem_history_of_run rfl) hcompleted
  obtain rfl := hpolled.unique hm (not_undecided_of_deep hdepth) (not_undecided_of_deep hdepth')
  have hstatus : status = (ω (6 + 3 * k + 1)).status := Option.some.inj (hlast.symm.trans hlast')
  rw [hstatus, hω k] at hnot
  exact hnot (getTransactionStatus_failed.2 hreverted)

/-- **A settlement completes only on a sound last poll**, whatever else happens in the run, exactly for
the RPC answers in which no reverted receipt is deep enough when it is the first to decide. -/
theorem completed_sound_iff (ctx : SettlementExecutionContext) (db : Db) (rpc : Nat → RpcAnswer) :
    (∀ ω, AnswersFrom ω ctx.chainClient.confirmationDepth rpc → ∀ id, statusOf db id ≠ some .completed →
      ∀ t ∈ (settleIntent ctx).history handle ω 0 db, statusOf t id = some .completed →
        t.Sound ctx.chainClient.confirmationDepth) ↔
    ∀ k < 150, (∀ i < k, (rpc i).confirmations < ctx.chainClient.confirmationDepth ∧ ¬ (rpc i).Reverted) →
      ¬ ((rpc k).Reverted ∧ ctx.chainClient.confirmationDepth ≤ (rpc k).confirmations) := by
  constructor
  · rintro hsound k hk hprev ⟨hreverted, hdeep⟩
    obtain ⟨ω, id, hω, hdb, hcompleted, hunsound⟩ := completed_of_reverted hk hprev hreverted hdeep db
    exact hunsound (hsound ω hω id hdb _ (Prog.mem_history_of_run rfl) hcompleted)
  · intro hrpc ω hω id hdb t ht hcompleted
    obtain ⟨k, hk, hdepth, hlast⟩ := completed_confirmed hdb ht hcompleted
    rw [hω k] at hlast
    refine ⟨_, hlast, fun hfailed => ?_, hω k ▸ hdepth⟩
    rw [hω k, getTransactionStatus_confirmations] at hdepth
    refine hrpc k (lt_of_checkTime hk.time) (fun i hi => ?_) ⟨getTransactionStatus_failed.1 hfailed, hdepth⟩
    obtain ⟨-, hshallow, hnot⟩ := hk.prev i hi
    rw [hω i] at hshallow hnot
    rw [getTransactionStatus_confirmations] at hshallow
    exact ⟨hshallow, fun hr => hnot (getTransactionStatus_failed.2 hr)⟩

/-- A payout that reverted twelve blocks ago is recorded as `COMPLETED` at the first poll. -/
theorem reverted_completed :
    let rpc : RpcAnswer := { receipt := some { status := some 0, blockNumber := 100 }, currentBlock := 112 }
    let db := final context (prompt 12 "s1" fun _ => rpc) emptyDb
    rpc.Reverted ∧ statusOf db "s1" = some .completed ∧ db.reports.map TxStatus.status = [.failed] := by
  refine ⟨⟨_, rfl, rfl⟩, ?_, ?_⟩
  · decide +kernel
  · decide +kernel

end NexoraGateway.Settlements
