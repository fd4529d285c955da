import NexoraGateway.Settlements.Wait

/-!
# The parts of `settleIntent`, run alone

`settleIntent` creates its row, and within one `try` pays (`pay`: submit, record the hash, wait) and
closes (`close`: mark as `COMPLETED`, post the ledger entries); `settleIntent_eq` is this reading.

* `updateSettlement_run`, `record_run`, `handleSettlementFailure_run` — how each of these ends.
* `pay_history` — while it pays, no settlement becomes `COMPLETED`.
-/
namespace NexoraGateway.Settlements

open Async Chain Store

variable {ω : Nat → Oracle} {n : Nat} {db db' : Db} {id : Id} {row : Settlement} {a : Call}

/-- The status of a settlement, if there is one. -/
def statusOf (db : Db) (id : Id) : Option SettlementStatus := (db.settlements.find? id).map Settlement.status

def createParams (ctx : SettlementExecutionContext) : CreateSettlementParams :=
  { intentId := ctx.intent.id, merchantId := ctx.merchant.id
    amount := calculateSettlementAmount ctx.intent.targetAmount ctx.merchant.feePercentage
    asset := ctx.merchant.settlementAsset, chain := ctx.merchant.settlementChain
    destinationAddress := ctx.merchant.settlementAddress }

/-- Steps 3 to 5 of `settleIntent`. -/
def pay (ctx : SettlementExecutionContext) (settlement : Settlement) : Task Unit :=
  (executeTransaction settlement).bind fun txHash => confirm ctx settlement txHash

/-- Step 6 of `settleIntent`. -/
def complete (id : Id) : Task Settlement :=
  Task.now.bind fun now => updateSettlement id { status := some .completed, completedAt := some now }

/-- Steps 6 to 8 of `settleIntent`. -/
def close (ctx : SettlementExecutionContext) (settlement : Settlement) : Task Settlement :=
  (complete settlement.id).bind fun completed =>
    record ctx (calculateSettlementAmount ctx.intent.targetAmount ctx.merchant.feePercentage) completed

theorem settleIntent_eq (ctx : SettlementExecutionContext) :
    settleIntent ctx = (Task.create (createParams ctx)).bind fun settlement =>
      ((pay ctx settlement).bind fun _ => close ctx settlement).tryCatch
        (handleSettlementFailure settlement.id) := by
  simp only [pay, close, complete, Prog.bind_assoc]
  rfl

/-! ## What never happens -/

/-- The calls that write `COMPLETED`. -/
def Call.Completes : Call → Prop
  | update _ params => params.status = some .completed
  | _ => False

def Call.Polls : Call → Prop
  | getTransactionStatus _ => True
  | _ => False

/-- The calls that write rows of `settlements`. -/
def Call.Writes : Call → Prop
  | create _ | update .. => True
  | _ => False

theorem Effect.not_completed (h : Effect db a db') (ha : ¬ a.Completes)
    (hdb : statusOf db id ≠ some .completed) :
    statusOf db' id ≠ some .completed := by
  cases h with
  | created _ _ hstatus hins =>
    rw [statusOf, Table.find?_insert? hins]
    split
    · simp [hstatus]
    · exact hdb
  | updated i params clock =>
    have hstatus : params.status ≠ some .completed := ha
    unfold statusOf at *
    rw [Table.find?_updateWhere]
    cases hrow : db.settlements.find? id with
    | none => simp
    | some row =>
      simp only [hrow, Option.map_some, ne_eq, Option.some.injEq] at hdb ⊢
      split
      · cases hp : params.status with
        | none => simpa [hp] using hdb
        | some status => simpa [hp] using hstatus
      · exact hdb
  | idle | posted | paid | reported | scheduled => exact hdb

theorem Effect.reports (h : Effect db a db') (ha : ¬ a.Polls) : db'.reports = db.reports := by
  cases h with
  | reported => exact absurd trivial ha
  | idle | created | updated | posted | paid | scheduled => rfl

theorem Effect.settlements (h : Effect db a db') (ha : ¬ a.Writes) : db'.settlements = db.settlements := by
  cases h with
  | created | updated => exact absurd trivial ha
  | idle | posted | paid | reported | scheduled => rfl

/-- What every call of a program keeps holds in every store of its run. -/
theorem history_rule {α : Type} {ok : Call → Prop} {p : Task α} (hp : p.Only ok fun _ => True)
    {r : Db → Db → Prop}
    (hrefl : ∀ db, r db db) (htrans : ∀ db₁ db₂ db₃, r db₁ db₂ → r db₂ db₃ → r db₁ db₃)
    (hcall : ∀ a o db, ok a → r db (handle a o db).2) (ω : Nat → Oracle) (n : Nat) (db : Db) :
    ∀ t ∈ p.history handle ω n db, r db t :=
  Prog.Obeys.history (h := handle) hrefl htrans
    (fun _ a o db ha => ⟨fun _ _ => trivial, hcall a o db ha⟩) hp n db

theorem not_completed_history {α : Type} {p : Task α} (hp : p.Only (fun a => ¬ a.Completes) fun _ => True)
    (hdb : statusOf db id ≠ some .completed) : ∀ t ∈ p.history handle ω n db, statusOf t id ≠ some .completed :=
  fun t ht => history_rule hp (r := fun s t => statusOf s id ≠ some .completed → statusOf t id ≠ some .completed)
    (fun _ h => h) (fun _ _ _ h h' hs => h' (h hs))
    (fun a o db ha => (handle_effect a o db).not_completed ha) ω n db t ht hdb

theorem record_not_writes (ctx : SettlementExecutionContext) (settlementAmount : ℚ) (completed : Settlement) :
    (record ctx settlementAmount completed).Only (fun a => ¬ a.Writes) fun _ => True :=
  record_only (fun _ => not_false) ctx settlementAmount completed

theorem record_history (ctx : SettlementExecutionContext) (settlementAmount : ℚ) (completed : Settlement) :
    ∀ t ∈ (record ctx settlementAmount completed).history handle ω n db, t.settlements = db.settlements :=
  history_rule (record_not_writes ctx settlementAmount completed)
    (r := fun s t => t.settlements = s.settlements)
    (fun _ => rfl) (fun _ _ _ h h' => h'.trans h) (fun a o db ha => (handle_effect a o db).settlements ha) ω n db

theorem pay_not_completes (ctx : SettlementExecutionContext) (settlement : Settlement) :
    (pay ctx settlement).Only (fun a => ¬ a.Completes) fun _ => True := by
  have hgas (tx : UnsignedTx) : ¬ (Call.estimateGas tx).Completes := not_false
  have hsubmit (payout : Payout) : ¬ (Call.submitTransaction payout).Completes := not_false
  refine Prog.Only.bind ?_ fun txHash => confirm_only not_false nofun not_false not_false not_false
  exact Prog.Only.bind (Prog.Only.await (hgas _)) fun _ => Prog.Only.await (hsubmit _)

theorem fail_not_completes (id : Id) (error : SettlementError) :
    (handleSettlementFailure id error).Only (fun a => ¬ a.Completes) fun _ => True :=
  handleSettlementFailure_only not_false nofun (fun _ => not_false) error

theorem fail_not_polls (id : Id) (error : SettlementError) :
    (handleSettlementFailure id error).Only (fun a => ¬ a.Polls) fun _ => True :=
  handleSettlementFailure_only not_false not_false (fun _ => not_false) error

/-- A program that does not poll reports nothing. -/
theorem reports_history {α : Type} {p : Task α} (hp : p.Only (fun a => ¬ a.Polls) fun _ => True) :
    ∀ t ∈ p.history handle ω n db, t.reports = db.reports :=
  history_rule hp (r := fun s t => t.reports = s.reports) (fun _ => rfl) (fun _ _ _ h h' => h'.trans h)
    (fun a o db ha => (handle_effect a o db).reports ha) ω n db

theorem reports_run {α : Type} {p : Task α} (hp : p.Only (fun a => ¬ a.Polls) fun _ => True) :
    (p.run handle ω n db).2.2.reports = db.reports :=
  reports_history hp _ (Prog.mem_history_of_run rfl)

theorem close_not_polls (ctx : SettlementExecutionContext) (settlement : Settlement) :
    (close ctx settlement).Only (fun a => ¬ a.Polls) fun _ => True := by
  have hnow : ¬ Call.now.Polls := not_false
  refine Prog.Only.bind ?_ fun completed => record_only (fun _ => not_false) ctx _ completed
  exact Prog.Only.bind (Prog.Only.await hnow) fun _ => updateSettlement_only not_false not_false

/-! ## How the parts end -/

section
variable {α : Type}

theorem run_create (params : CreateSettlementParams) : (Task.create params).run handle ω n db =
    ((create (ω n) params (db.tick (ω n))).1, n + 1, (create (ω n) params (db.tick (ω n))).2) :=
  Prog.run_await ..

theorem run_findById : (Task.findById id).run handle ω n db =
    ((findById (ω n) id (db.tick (ω n))).1, n + 1, (findById (ω n) id (db.tick (ω n))).2) :=
  Prog.run_await ..

theorem run_bind_findById (f : Option Settlement → Task α) : ((Task.findById id).bind f).run handle ω n db =
    ((Prog.ofExcept (findById (ω n) id (db.tick (ω n))).1).bind f).run handle ω (n + 1)
      (findById (ω n) id (db.tick (ω n))).2 := rfl

theorem run_bind_update (params : UpdateSettlementParams) (f : Option Settlement → Task α) :
    ((Task.update id params).bind f).run handle ω n db =
      ((Prog.ofExcept (update (ω n) id params (db.tick (ω n))).1).bind f).run handle ω (n + 1)
        (update (ω n) id params (db.tick (ω n))).2 := rfl

theorem run_bind_estimateGas (tx : UnsignedTx) (f : Unit → Task α) :
    ((Task.estimateGas tx).bind f).run handle ω n db =
      ((Prog.ofExcept (request (ω n) ((), db.tick (ω n)) (db.tick (ω n))).1).bind f).run handle ω (n + 1)
        (request (ω n) ((), db.tick (ω n)) (db.tick (ω n))).2 := rfl

theorem run_submitTransaction (payout : Payout) : (Task.submitTransaction payout).run handle ω n db =
    let sent := { db.tick (ω n) with payouts := db.payouts ++ [payout] }
    ((request (ω n) ((ω n).txHash, sent) (db.tick (ω n))).1, n + 1,
      (request (ω n) ((ω n).txHash, sent) (db.tick (ω n))).2) :=
  Prog.run_await ..

theorem run_bind_createEntry (params : CreateLedgerEntryParams) (f : LedgerEntry → Task α) :
    ((Task.createEntry params).bind f).run handle ω n db =
      ((Prog.ofExcept (createEntry (ω n) params (db.tick (ω n))).1).bind f).run handle ω (n + 1)
        (createEntry (ω n) params (db.tick (ω n))).2 := rfl

end

/-- The store after an `UPDATE` at time `clock`. -/
def Db.write (db : Db) (id : Id) (params : UpdateSettlementParams) (clock : Time) : Db :=
  { db with
    settlements := db.settlements.updateWhere (fun row => row.id = id) (params.set clock) (set_id params clock)
    clock }

theorem find?_write (params : UpdateSettlementParams) (clock : Time)
    (hrow : db.settlements.find? id = some row) :
    (db.write id params clock).settlements.find? id = some (params.set clock row) := by
  obtain ⟨-, hid⟩ := Table.find?_eq_some.1 hrow
  rw [Db.write, Table.find?_updateWhere, hrow]
  simp [hid]

/-- How `updateSettlement` ends for a settlement that exists: not executed, executed with its answer
lost, or done. -/
inductive Updated (ω : Nat → Oracle) (n : Nat) (db : Db) (id : Id) (params : UpdateSettlementParams)
    (row : Settlement) :
    Except SettlementError Settlement × Nat × Db → Prop
  | refused {message : String} {m : Nat} (clock : Time)
      (hfault : (ω n).rejects ≠ none ∧ m = n + 1 ∨
        (ω (n + 1)).rejects ≠ none ∧ (ω (n + 1)).lost = false ∧ m = n + 2) :
      Updated ω n db id params row (.error (.rejected message), m, { db with clock })
  | lost {message : String} (clock : Time) (hfind : (ω n).rejects = none)
      (hupdate : (ω (n + 1)).rejects ≠ none) (hlost : (ω (n + 1)).lost = true) :
      Updated ω n db id params row (.error (.rejected message), n + 2, db.write id params clock)
  | done (clock : Time) (hfind : (ω n).rejects = none) (hupdate : (ω (n + 1)).rejects = none) :
      Updated ω n db id params row (.ok (params.set clock row), n + 2, db.write id params clock)

theorem updateSettlement_run (ω : Nat → Oracle) (n : Nat) (params : UpdateSettlementParams)
    (hrow : db.settlements.find? id = some row) :
    Updated ω n db id params row ((updateSettlement id params).run handle ω n db) := by
  obtain ⟨hmem, hid⟩ := Table.find?_eq_some.1 hrow
  rw [updateSettlement, Prog.bind_def, run_bind_findById, findById]
  cases hfind : (ω n).rejects with
  | some message =>
    rw [request_rejected hfind, ite_self]
    exact .refused _ (.inl ⟨by simp [hfind], rfl⟩)
  | none =>
    have hfound : (db.tick (ω n)).settlements.find? id = some row := hrow
    rw [request_accepted hfind, hfound, Prog.ofExcept_ok, Prog.ret_bind]
    dsimp only
    rw [Prog.bind_def, run_bind_update]
    let clock := ((db.tick (ω n)).tick (ω (n + 1))).clock
    have hupdated : update (ω (n + 1)) id params ((db.tick (ω n)).tick (ω (n + 1))) =
        request (ω (n + 1)) (some (params.set clock row), db.write id params clock) { db with clock } := by
      have hreturn := Table.returning_of_find? hrow (params.set clock)
      have hhead : (db.settlements.returning (fun row => row.id = id) (params.set clock)).head? =
          some (params.set clock row) := by rw [hreturn]; rfl
      exact congrArg (fun result => request (ω (n + 1)) (result, db.write id params clock) { db with clock }) hhead
    rw [hupdated]
    cases hupdate : (ω (n + 1)).rejects with
    | none =>
      rw [request_accepted hupdate]
      exact .done clock hfind hupdate
    | some message =>
      rw [request_rejected hupdate]
      cases hlost : (ω (n + 1)).lost with
      | true => exact .lost clock hfind (by simp [hupdate]) hlost
      | false => exact .refused clock (.inr ⟨by simp [hupdate], hlost, rfl⟩)

theorem updateSettlement_next {params : UpdateSettlementParams} {updated : Settlement} {m : Nat}
    (h : (updateSettlement id params).run handle ω n db = (.ok updated, m, db')) : m = n + 2 := by
  cases hrow : db.settlements.find? id with
  | none =>
    have hmissing : (db.tick (ω n)).settlements.find? id = none := hrow
    rw [updateSettlement, Prog.bind_def, run_bind_findById, findById, hmissing] at h
    unfold request Store.request at h
    split at h <;> cases h
  | some row =>
    have hupdated := updateSettlement_run ω n params hrow
    rw [h] at hupdated
    cases hupdated
    rfl

/-- `executeTransaction` answers the hash when both its calls are accepted, and fails otherwise. -/
theorem executeTransaction_run (settlement : Settlement) (ω : Nat → Oracle) (n : Nat) (db : Db) :
    ((ω n).rejects = none ∧ (ω (n + 1)).rejects = none ∧ ∃ payouts clock,
      (executeTransaction settlement).run handle ω n db =
        (.ok (ω (n + 1)).txHash, n + 2, { db with payouts, clock })) ∨
    ((ω n).rejects = none → (ω (n + 1)).rejects ≠ none) ∧ ∃ e m u,
      (executeTransaction settlement).run handle ω n db = (.error e, m, u) := by
  rw [executeTransaction, Prog.bind_def, run_bind_estimateGas]
  cases hgas : (ω n).rejects with
  | some message =>
    rw [request_rejected hgas]
    exact .inr ⟨nofun, _, _, _, rfl⟩
  | none =>
    rw [request_accepted hgas, Prog.ofExcept_ok, Prog.ret_bind, run_submitTransaction]
    dsimp only
    cases hsubmit : (ω (n + 1)).rejects with
    | some message =>
      rw [request_rejected hsubmit]
      exact .inr ⟨fun _ => nofun, _, _, _, rfl⟩
    | none =>
      rw [request_accepted hsubmit]
      exact .inl ⟨rfl, rfl, _, _, rfl⟩

/-- Some call from `n` on and before `m` is rejected. -/
def Faulted (ω : Nat → Oracle) (n m : Nat) : Prop := ∃ i, n ≤ i ∧ i < m ∧ (ω i).rejects ≠ none

theorem handleSettlementFailure_run (ω : Nat → Oracle) (n : Nat) (error : SettlementError)
    (hrow : db.settlements.find? id = some row) :
    ∃ row', ((handleSettlementFailure id error).run handle ω n db).2.2.settlements.find? id = some row' ∧
      row'.txHash = row.txHash ∧ (row'.status = row.status ∨ row'.status = .failed) ∧
      ((∀ i, n ≤ i → (ω i).rejects = none) → row'.status = .failed) := by
  have hupdated := updateSettlement_run ω n { status := some .failed } hrow
  rw [handleSettlementFailure, Prog.bind_def, Prog.run_bind]
  generalize (updateSettlement id { status := some .failed }).run handle ω n db = r at hupdated
  cases hupdated with
  | refused clock hfault =>
    refine ⟨row, hrow, rfl, .inl rfl, fun hnone => ?_⟩
    rcases hfault with ⟨hfind, -⟩ | ⟨hupdate, -⟩
    · exact absurd (hnone n (Nat.le_refl n)) hfind
    · exact absurd (hnone (n + 1) (Nat.le_succ n)) hupdate
  | lost clock => exact ⟨_, find?_write _ clock hrow, rfl, .inr rfl, fun _ => rfl⟩
  | done clock =>
    dsimp only
    split <;> exact ⟨_, find?_write _ clock hrow, rfl, .inr rfl, fun _ => rfl⟩

/-- The ledger entries of `record`, whose first call is `n`, are accepted. -/
def Posted (ω : Nat → Oracle) (n : Nat) (ctx : SettlementExecutionContext) : Prop :=
  (ω n).rejects = none ∧ (ctx.merchant.feePercentage > 0 → (ω (n + 1)).rejects = none)

/-- How many entries of a type are for an intent. -/
def entriesOf (entries : List LedgerEntry) (entryType : LedgerEntryType) (intentId : Id) : Nat :=
  entries.countP fun e => e.entryType = entryType ∧ e.intentId = intentId

/-- How `record` ends: with its entries posted, or rejected at one of them. -/
inductive Recording (ω : Nat → Oracle) (n : Nat) (db : Db) (ctx : SettlementExecutionContext)
    (completed : Settlement) :
    Except SettlementError Settlement × Nat × Db → Prop
  | posted {m : Nat} {entries : List LedgerEntry} (clock : Time) (hposted : Posted ω n ctx)
      (hsettlement : entriesOf entries .settlement completed.intentId = 1)
      (hfee : ctx.merchant.feePercentage > 0 → entriesOf entries .fee ctx.intent.id = 1) :
      Recording ω n db ctx completed (.ok completed, m, { db with ledger := db.ledger ++ entries, clock })
  | rejected {e : SettlementError} {m : Nat} {t : Db} (hposted : ¬ Posted ω n ctx) (hfault : Faulted ω n m) :
      Recording ω n db ctx completed (.error e, m, t)

theorem post_accepted {α : Type} (db : Db) (params : CreateLedgerEntryParams) (f : LedgerEntry → Task α)
    (h : (ω n).rejects = none) : ∃ entry stored clock, stored.entryType = params.entryType ∧
      stored.intentId = params.intentId ∧ ((Task.createEntry params).bind f).run handle ω n db =
        (f entry).run handle ω (n + 1) { db with ledger := db.ledger ++ [stored], clock } := by
  rw [run_bind_createEntry, createEntry, request_accepted h]
  exact ⟨_, _, _, rfl, rfl, rfl⟩

theorem post_rejected {α : Type} (db : Db) (params : CreateLedgerEntryParams) (f : LedgerEntry → Task α)
    (h : (ω n).rejects ≠ none) :
    ∃ e t, ((Task.createEntry params).bind f).run handle ω n db = (.error e, n + 1, t) := by
  obtain ⟨message, hmessage⟩ := Option.ne_none_iff_exists'.1 h
  rw [run_bind_createEntry, createEntry, request_rejected hmessage]
  exact ⟨_, _, rfl⟩

theorem record_run (ω : Nat → Oracle) (n : Nat) (db : Db) (ctx : SettlementExecutionContext)
    (settlementAmount : ℚ) (completed : Settlement) :
    Recording ω n db ctx completed ((record ctx settlementAmount completed).run handle ω n db) := by
  unfold record recordFee recordSettlement
  by_cases hfee : ctx.merchant.feePercentage > 0
  · rw [if_pos hfee, Prog.bind_def]
    by_cases hfirst : (ω n).rejects = none
    swap
    · obtain ⟨e, t, hrun⟩ := post_rejected db _ _ hfirst
      rw [hrun]
      exact .rejected (fun h => hfirst h.1) ⟨n, Nat.le_refl n, Nat.lt_succ_self n, hfirst⟩
    obtain ⟨_, fee, clock₁, hfeeType, hfeeIntent, hrun₁⟩ := post_accepted db _ _ hfirst
    rw [hrun₁, Prog.bind_def]
    by_cases hsecond : (ω (n + 1)).rejects = none
    swap
    · obtain ⟨e, t, hrun⟩ := post_rejected _ _ _ hsecond
      rw [hrun]
      exact .rejected (fun h => hsecond (h.2 hfee)) ⟨n + 1, Nat.le_succ n, Nat.lt_succ_self _, hsecond⟩
    obtain ⟨_, payout, clock₂, hpayoutType, hpayoutIntent, hrun₂⟩ := post_accepted _ _ _ hsecond
    rw [hrun₂, List.append_assoc]
    refine .posted clock₂ ⟨hfirst, fun _ => hsecond⟩ ?_ fun _ => ?_
    · simp [entriesOf, hfeeType, hpayoutType, hpayoutIntent]
    · simp [entriesOf, hfeeType, hpayoutType, hfeeIntent]
  · rw [if_neg hfee, Prog.bind_def]
    by_cases hfirst : (ω n).rejects = none
    swap
    · obtain ⟨e, t, hrun⟩ := post_rejected db _ _ hfirst
      rw [hrun]
      exact .rejected (fun h => hfirst h.1) ⟨n, Nat.le_refl n, Nat.lt_succ_self n, hfirst⟩
    obtain ⟨_, payout, clock, hpayoutType, hpayoutIntent, hrun⟩ := post_accepted db _ _ hfirst
    rw [hrun]
    exact .posted clock ⟨hfirst, fun h => absurd h hfee⟩ (by simp [entriesOf, hpayoutType, hpayoutIntent])
      fun h => absurd h hfee

/-- How paying ends for a settlement that exists once its transaction is out: without the hash
recorded, or with it and as the wait ends. -/
inductive Paying (ω : Nat → Oracle) (n : Nat) (db : Db) (ctx : SettlementExecutionContext) (id : Id)
    (row : Settlement) :
    Except SettlementError Unit × Nat × Db → Prop
  | unrecorded {e : SettlementError} {m : Nat} {t : Db} {row' : Settlement} (hfault : Faulted ω (n + 2) m)
      (hupdate : (ω (n + 2)).rejects = none → (ω (n + 3)).rejects ≠ none)
      (hrow : t.settlements.find? id = some row')
      (hreports : t.reports = db.reports) : Paying ω n db ctx id row (.error e, m, t)
  | waited {out : Except SettlementError Unit} {m : Nat} {told : List TxStatus} {t : Db} {row' : Settlement}
      (hfind : (ω (n + 2)).rejects = none) (hupdate : (ω (n + 3)).rejects = none)
      (hwaited : Waited ω (ω (n + 1)).txHash ctx.chainClient.confirmationDepth (n + 5) out m told)
      (hrow : t.settlements.find? id = some row') (hhash : row'.txHash = some (ω (n + 1)).txHash)
      (hintent : row'.intentId = row.intentId) (hledger : t.ledger = db.ledger)
      (hreports : t.reports = db.reports ++ told) : Paying ω n db ctx id row (out, m, t)

theorem pay_run (ω : Nat → Oracle) (n : Nat) (ctx : SettlementExecutionContext) {settlement : Settlement}
    (hrow : db.settlements.find? settlement.id = some row) (hgas : (ω n).rejects = none)
    (hsubmit : (ω (n + 1)).rejects = none) :
    Paying ω n db ctx settlement.id row ((pay ctx settlement).run handle ω n db) := by
  rcases executeTransaction_run settlement ω n db with ⟨-, -, payouts, clock, hexec⟩ | ⟨hnot, -⟩
  swap
  · exact absurd hsubmit (hnot hgas)
  rw [pay, Prog.run_bind_of_ok handle ω _ hexec, confirm, Prog.bind_def, Prog.run_bind]
  have hrow₁ : ({ db with payouts, clock } : Db).settlements.find? settlement.id = some row := hrow
  have hupdated := updateSettlement_run ω (n + 2)
    { status := some .processing, txHash := some (ω (n + 1)).txHash } hrow₁
  generalize (updateSettlement settlement.id _).run handle ω (n + 2) _ = r at hupdated
  cases hupdated with
  | refused clock' hfault =>
    rcases hfault with ⟨hfind, rfl⟩ | ⟨hupdate, -, rfl⟩
    · exact .unrecorded ⟨n + 2, Nat.le_refl _, Nat.lt_succ_self _, hfind⟩ (fun h => absurd h hfind) hrow rfl
    · exact .unrecorded ⟨n + 3, by omega, by omega, hupdate⟩ (fun _ => hupdate) hrow rfl
  | lost clock' hfind hupdate =>
    exact .unrecorded ⟨n + 3, by omega, by omega, hupdate⟩ (fun _ => hupdate) (find?_write _ clock' hrow₁) rfl
  | done clock' hfind hupdate =>
    dsimp only
    obtain ⟨out, m, told, clock'', hwaited, hrun⟩ := waitForConfirmation_run ω (n + 2 + 2)
      (Db.write { db with payouts, clock } settlement.id
        { status := some .processing, txHash := some (ω (n + 1)).txHash } clock')
      (ω (n + 1)).txHash ctx.chainClient
    rw [hrun]
    exact .waited hfind hupdate hwaited (find?_write _ clock' hrow₁) rfl rfl rfl rfl

/-- Up to the answer of the `UPDATE`, no row changes. -/
theorem updateSettlement_trace (db : Db) {params : UpdateSettlementParams} :
    ∀ t ∈ (updateSettlement id params).trace handle ω n db, t.settlements = db.settlements := by
  have hread : (findById (ω n) id (db.tick (ω n))).2.settlements = db.settlements :=
    request_rule (P := fun t : Db => t.settlements = db.settlements) rfl rfl
  have hfirst : (Task.findById id).trace handle ω n db = [db] := Prog.trace_await ..
  rw [updateSettlement, Prog.bind_def, Prog.trace_bind, hfirst, run_findById]
  intro t ht
  rcases List.mem_append.1 ht with ht | ht
  · rw [List.mem_singleton.1 ht]
  · cases hfound : (findById (ω n) id (db.tick (ω n))).1 with
    | error e => simp [hfound] at ht
    | ok found =>
      simp only [hfound] at ht
      cases found with
      | none => exact absurd ht List.not_mem_nil
      | some row =>
        have hsecond : (Task.update id params).trace handle ω (n + 1) (findById (ω n) id (db.tick (ω n))).2 =
            [(findById (ω n) id (db.tick (ω n))).2] := Prog.trace_await ..
        dsimp only at ht
        rw [Prog.bind_def, Prog.trace_bind, hsecond] at ht
        rcases List.mem_append.1 ht with ht | ht
        · rw [List.mem_singleton.1 ht, hread]
        · split at ht
          · rename_i updated _ _ _
            cases updated <;> exact absurd ht List.not_mem_nil
          · exact absurd ht List.not_mem_nil

theorem complete_trace : ∀ t ∈ (complete id).trace handle ω n db, t.settlements = db.settlements := by
  have hfirst : Task.now.trace handle ω n db = [db] := Prog.trace_await ..
  have hnow : Task.now.run handle ω n db = (.ok (db.tick (ω n)).clock, n + 1, db.tick (ω n)) := rfl
  rw [complete, Prog.trace_bind, hfirst, hnow]
  intro t ht
  rcases List.mem_append.1 ht with ht | ht
  · rw [List.mem_singleton.1 ht]
  · exact updateSettlement_trace (db.tick (ω n)) t ht

theorem complete_run (ω : Nat → Oracle) (n : Nat) (hrow : db.settlements.find? id = some row) :
    ∃ params : UpdateSettlementParams, params.status = some .completed ∧ params.txHash = none ∧
      Updated ω (n + 1) (db.tick (ω n)) id params row ((complete id).run handle ω n db) :=
  ⟨_, rfl, rfl, updateSettlement_run ω (n + 1) _ hrow⟩

/-- The payment goes through when the chain confirms it; the confirming status is then the last one
reported. -/
theorem pay_ok {ctx : SettlementExecutionContext} {settlement : Settlement} {m : Nat}
    (h : (pay ctx settlement).run handle ω n db = (.ok (), m, db')) :
    ∃ k, Polled ω ctx.chainClient.confirmationDepth (n + 5) k ∧
      ctx.chainClient.confirmationDepth ≤ (ω (n + 5 + 3 * k + 1)).status.confirmations ∧
      db'.reports.getLast? = some (ω (n + 5 + 3 * k + 1)).status := by
  obtain ⟨txHash, m₁, db₁, hexec, hconfirm⟩ := Prog.ok_of_run_bind handle ω h
  obtain ⟨settlement', m₂, db₂, hupdate, hwait⟩ := Prog.ok_of_run_bind handle ω hconfirm
  obtain rfl : m₁ = n + 2 := by
    rcases executeTransaction_run settlement ω n db with ⟨-, -, _, _, hrun⟩ | ⟨-, _, _, _, hrun⟩
    · rw [hexec] at hrun
      cases hrun
      rfl
    · rw [hexec] at hrun
      cases hrun
  obtain rfl := updateSettlement_next hupdate
  obtain ⟨out, m', told, clock, hwaited, hrun⟩ :=
    waitForConfirmation_run ω (n + 2 + 2) db₂ txHash ctx.chainClient
  rw [hwait] at hrun
  cases hrun
  cases hwaited with
  | confirmed hk hdepth => exact ⟨_, hk, hdepth, by simp [polls_succ]⟩

end NexoraGateway.Settlements
