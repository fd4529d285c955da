import NexoraGateway.Settlements.Completion
import NexoraGateway.Settlements.Payouts

/-!
# The rows of `settlements`, under any interleaving

Every row was inserted by a `settleIntent`: `rows_made` says of which intent and merchant it is and that it holds the
amount that `calculateSettlementAmount` gave, whatever became of it since.
-/
namespace NexoraGateway.Settlements

open Async Store

/-- The operation is a retry, or settles an intent for a context of `S`. -/
def Op.Of (S : SettlementExecutionContext → Prop) : Op → Prop
  | settleIntent ctx => S ctx
  | retrySettlement _ => True

/-- A row that was inserted for a context of `S`. -/
structure Made (S : SettlementExecutionContext → Prop) (row : Settlement) : Prop where
  context : ∃ ctx, S ctx ∧ row.intentId = ctx.intent.id ∧ row.merchantId = ctx.merchant.id ∧
    row.amount = calculateSettlementAmount ctx.intent.targetAmount ctx.merchant.feePercentage
  stamped : row.status = .completed → row.completedAt.isSome = true

/-- The calls by which such rows are written. -/
def Call.Makes (S : SettlementExecutionContext → Prop) : Call → Prop
  | create params => ∃ ctx, S ctx ∧ params = createParams ctx
  | update _ params => params.status = some .completed → params.completedAt.isSome = true
  | _ => True

section
variable {S : SettlementExecutionContext → Prop}

/-- The amount in units of the eighth decimal. -/
theorem calculateSettlementAmount_eq (units : ℕ) (fee : ℚ) :
    calculateSettlementAmount (units / 10 ^ 8) fee = Ecma.mathRound (units * (1 - fee / 100)) / 10 ^ 8 := by
  have hunits : ((units : ℚ) / 10 ^ 8 - units / 10 ^ 8 * (fee / 100)) * 10 ^ 8 = units * (1 - fee / 100) := by ring
  rw [calculateSettlementAmount, hunits]

theorem decimal8_calculateSettlementAmount (targetAmount feePercentage : ℚ) :
    decimal8 (calculateSettlementAmount targetAmount feePercentage) =
      calculateSettlementAmount targetAmount feePercentage := decimal8_units _

theorem settleIntent_makes {ctx : SettlementExecutionContext} (hctx : S ctx) :
    (settleIntent ctx).Only (Call.Makes S) fun _ => True := by
  rw [settleIntent_eq]
  have hcreate : Call.Makes S (.create (createParams ctx)) := ⟨ctx, hctx, rfl⟩
  refine Prog.Only.bind (Prog.Only.await hcreate) fun settlement => ?_
  have hgas (tx : UnsignedTx) : Call.Makes S (.estimateGas tx) := trivial
  have hsubmit (payout : Payout) : Call.Makes S (.submitTransaction payout) := trivial
  have hnow : Call.Makes S .now := trivial
  have hpay : (pay ctx settlement).Only (Call.Makes S) fun _ => True :=
    Prog.Only.bind (Prog.Only.bind (Prog.Only.await (hgas _)) fun _ => Prog.Only.await (hsubmit _)) fun txHash =>
      confirm_only trivial (fun h => by cases h) trivial trivial trivial
  have hclose : (close ctx settlement).Only (Call.Makes S) fun _ => True :=
    Prog.Only.bind (Prog.Only.bind (Prog.Only.await hnow) fun now => updateSettlement_only trivial fun _ => rfl)
      fun completed => record_only (fun _ => trivial) ctx _ completed
  refine Prog.Only.tryCatch (Prog.Only.bind hpay fun _ => hclose) fun e _ => ?_
  exact handleSettlementFailure_only trivial (fun h => by cases h) (fun _ => trivial) e

theorem retrySettlement_makes (settlementId : Id) :
    (retrySettlement settlementId).Only (Call.Makes S) fun _ => True := by
  have hfind : Call.Makes S (.findById settlementId) := trivial
  refine Prog.Only.bind (Prog.Only.await hfind) fun settlement => ?_
  cases settlement with
  | none => exact Prog.Only.throw trivial
  | some settlement =>
    dsimp only
    split
    · exact Prog.Only.throw trivial
    · exact updateSettlement_only trivial fun h => by cases h

theorem Made.set {row : Settlement} (h : Made S row) {params : UpdateSettlementParams} (now : Time)
    (hparams : params.status = some .completed → params.completedAt.isSome = true) : Made S (params.set now row) := by
  refine ⟨h.context, fun hstatus => ?_⟩
  have hcompletedAt : (params.set now row).completedAt = params.completedAt.or row.completedAt := rfl
  rw [hcompletedAt, Option.isSome_or, Bool.or_eq_true]
  rw [set_status] at hstatus
  cases hset : params.status with
  | none =>
    rw [hset] at hstatus
    exact .inr (h.stamped hstatus)
  | some status =>
    rw [hset] at hstatus
    exact .inl (hparams (hset.trans (congrArg some hstatus)))

/-- A row of a context is made. -/
theorem made_of_insert {db : Db} {ctx : SettlementExecutionContext} (hctx : S ctx) {row : Settlement}
    (hintent : row.intentId = ctx.intent.id) (hmerchant : row.merchantId = ctx.merchant.id)
    (hamount : row.amount = decimal8 (createParams ctx).amount) (hstatus : row.status = .pending)
    {settlements : Table Settlement.id} (hins : db.settlements.insert? row = some settlements)
    (hdb : ∀ row ∈ db.settlements.rows, Made S row) : ∀ row ∈ settlements.rows, Made S row := by
  intro u hu
  rw [Table.rows_insert? hins, List.mem_append, List.mem_singleton] at hu
  rcases hu with hu | rfl
  · exact hdb u hu
  · refine ⟨⟨ctx, hctx, hintent, hmerchant, hamount.trans (decimal8_calculateSettlementAmount _ _)⟩, fun h => ?_⟩
    rw [hstatus] at h
    cases h

/-- One call keeps the rows made. -/
theorem handle_made {db : Db} {a : Call} (o : Oracle) (ha : a.Makes S) (hdb : ∀ row ∈ db.settlements.rows, Made S row) :
    ∀ row ∈ (handle a o db).2.settlements.rows, Made S row := by
  by_cases hwrites : a.Writes
  · cases a with
    | create params =>
      obtain ⟨ctx, hctx, rfl⟩ := ha
      simp only [handle, create]
      split
      · exact hdb
      · rename_i settlements hins
        refine request_rule (P := fun db : Db => ∀ row ∈ db.settlements.rows, Made S row) ?_ hdb
        exact made_of_insert hctx rfl rfl rfl rfl hins hdb
    | update id params =>
      refine request_rule (P := fun db : Db => ∀ row ∈ db.settlements.rows, Made S row) (fun u hu => ?_) hdb
      simp only [Table.mem_updateWhere] at hu
      obtain ⟨row, hrow, rfl⟩ := hu
      split
      · exact (hdb row hrow).set _ ha
      · exact hdb row hrow
    | _ => exact hwrites.elim
  · rw [(handle_effect a o db).settlements hwrites]
    exact hdb

/-- **What the rows hold**: each is of an intent that was settled, with the amount that was calculated for it. -/
theorem rows_made (cs : List (Choice Call Answer SettlementError Unit Oracle))
    (hops : ∀ p, .spawn p ∈ cs → ∃ op : Op, op.Of S ∧ p = op.task) :
    ∀ row ∈ (Pool.exec handle (⟨emptyDb, []⟩ : Service) cs).store.settlements.rows, Made S row := by
  let P : Protocol Call Answer Unit := only (Call.Makes S) fun _ => True
  let I : Db → List Unit → Prop := fun db _ => ∀ row ∈ db.settlements.rows, Made S row
  have hinit : (⟨emptyDb, []⟩ : Service).GhostInv P I := ⟨[], .nil, fun _ hrow => absurd hrow List.not_mem_nil⟩
  have hspawn (p : Task Unit) (hp : ∃ op : Op, op.Of S ∧ p = op.task) :
      ∃ g, p.Obeys P (fun _ _ => True) g ∧ ∀ db gs, I db gs → I db (gs ++ [g]) := by
    obtain ⟨op, hop, rfl⟩ := hp
    refine ⟨(), ?_, fun _ _ h => h⟩
    cases op with
    | settleIntent ctx =>
      exact (Prog.Only.bind (settleIntent_makes hop) fun _ => Prog.Only.ret ()).mono fun _ _ _ => trivial
    | retrySettlement id =>
      exact (Prog.Only.bind (retrySettlement_makes id) fun _ => Prog.Only.ret ()).mono fun _ _ _ => trivial
  have hcs : (⟨emptyDb, []⟩ : Service).Guarded handle (fun _ _ => True) cs :=
    Pool.guarded_of_forall (fun _ _ => trivial) _ cs
  obtain ⟨gs, -, hrows⟩ := Pool.exec_inv hspawn
    (fun db _ _ _ a o hdb ha _ => ⟨fun _ _ => trivial, handle_made o ha hdb⟩) hinit hops hcs
  exact hrows

/-- What each call meets when the chain confirms at once. -/
def confirmed (depth : Int) : Nat → Oracle := fun _ =>
  { uuid := "s", status := { txHash := "", status := .confirmed, confirmations := depth } }

/-- For every context there is a run of the service that completes a settlement. -/
theorem exists_completed (ctx : SettlementExecutionContext) :
    ∃ cs : List (Choice Call Answer SettlementError Unit Oracle),
      (∀ p, .spawn p ∈ cs → ∃ op : Op, op.Of (· = ctx) ∧ p = op.task) ∧
      ∃ row ∈ (Pool.exec handle (⟨emptyDb, []⟩ : Service) cs).store.settlements.rows, row.status = .completed := by
  let ω := confirmed ctx.chainClient.confirmationDepth
  let op := Op.settleIntent ctx
  have hpolled : Polled ω ctx.chainClient.confirmationDepth 6 0 := by
    refine ⟨fun i hi => absurd hi (Nat.not_lt_zero i), ?_, rfl⟩
    rw [checkTime, elapsed_of_prompt fun _ => rfl]
    show 0 * 2000 + 0 < 300000
    omega
  have hcompleted : statusOf (final ctx ω emptyDb) "s" = some .completed :=
    completed_of_deep ⟨rfl, rfl, rfl, rfl⟩ (fun _ => rfl) hpolled (le_refl _)
  obtain ⟨row, hrow, hstatus⟩ := Option.map_eq_some_iff.1 hcompleted
  obtain ⟨steps, hsteps, hrun⟩ := Pool.exec_run (h := handle) ω op.task (w := ⟨emptyDb, [op.task]⟩) (i := 0) rfl 0
  have hfinal : (op.task.run handle ω 0 emptyDb).2.2 = final ctx ω emptyDb := by
    simp only [op, Op.task, Prog.run_bind, final]
    split <;> simp_all
  refine ⟨.spawn op.task :: steps, fun p hp => ?_, row, ?_, hstatus⟩
  · rcases List.mem_cons.1 hp with h | h
    · exact ⟨op, rfl, Choice.spawn.inj h⟩
    · obtain ⟨o, ho⟩ := hsteps _ h
      cases ho
  · rw [Pool.exec_cons]
    change row ∈ (Pool.exec handle ⟨emptyDb, [op.task]⟩ steps).store.settlements.rows
    rw [hrun, hfinal]
    exact (Table.find?_eq_some.1 hrow).1

end

end NexoraGateway.Settlements
