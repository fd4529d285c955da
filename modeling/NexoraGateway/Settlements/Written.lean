import NexoraGateway.Settlements.Payouts
import NexoraGateway.Settlements.Runs

/-!
# What the settlement package writes

`settleIntent` inserts its row from its context, and no `UPDATE` sets a row's intent, amount, asset or chain. It posts
the fee from its context too, and the settlement from the row that its last `UPDATE` returned. So what holds of all
that a context can insert and post holds of every row and entry, whatever runs beside it.

* `written` — the rule: for any `Marks` that the contexts meet, every row and every entry has them.
-/
namespace NexoraGateway.Settlements

open Async Store

/-- What is to hold of the rows and of the entries; an `UPDATE` keeps it of a row. -/
structure Marks where
  row : Settlement → Prop
  entry : LedgerEntry → Prop
  set {params : UpdateSettlementParams} {now : Time} {s : Settlement} : row s → row (params.set now s)

/-- All rows and entries have the marks. -/
def Marks.Holds (M : Marks) (db : Db) : Prop :=
  (∀ row ∈ db.settlements.rows, M.row row) ∧ ∀ entry ∈ db.ledger, M.entry entry

/-- What is inserted and posted has the marks, and the rows that an `UPDATE` answers have them. -/
def marking (M : Marks) : Protocol Call Answer Unit where
  ok _
    | .create params => ∀ o now, M.row { newSettlement o params now with amount := decimal8 params.amount }
    | .createEntry params => ∀ id createdAt, M.entry { params with id, createdAt, amount := decimal8 params.amount }
    | _ => True
  rely
    | .update .., r => ∀ row, r = .ok (some row) → M.row row
    | _, _ => True
  next g _ _ := g

/-- `feeAmount` (settlement.service.ts:93). -/
def SettlementExecutionContext.feeAmount (ctx : SettlementExecutionContext) : ℚ :=
  ctx.intent.targetAmount - calculateSettlementAmount ctx.intent.targetAmount ctx.merchant.feePercentage

/-- The fee that `record` posts (:94). -/
def SettlementExecutionContext.fee (ctx : SettlementExecutionContext) : FeeRecord where
  intentId := ctx.intent.id
  amount := ctx.feeAmount
  asset := ctx.merchant.settlementAsset
  chain := ctx.merchant.settlementChain
  merchantId := ctx.merchant.id
  feeType := "PLATFORM"
  percentage := ctx.merchant.feePercentage

/-- What a context inserts and posts has the marks. -/
structure Marks.Of (M : Marks) (ctx : SettlementExecutionContext) : Prop where
  create : (marking M).ok () (.create (createParams ctx))
  recordFee : (recordFee ctx.fee).Obeys (marking M) (fun _ _ => True) ()
  recordSettlement {row : Settlement} : M.row row → (recordSettlement row).Obeys (marking M) (fun _ _ => True) ()

/-- An operation with the marks: a retry inserts and posts nothing. -/
def Op.Marked (M : Marks) : Op → Prop
  | settleIntent ctx => M.Of ctx
  | retrySettlement _ => True

/-- The operations beside which an intent is settled: its own with this intent and merchant, and any others. -/
def Op.Beside (ctx : SettlementExecutionContext) : Op → Prop
  | settleIntent ctx' => ctx'.intent.id = ctx.intent.id → ctx' = ctx
  | retrySettlement _ => True

/-- The calls that insert or post. -/
def Call.Adds : Call → Prop
  | create _ | createEntry _ => True
  | _ => False

section
variable {M : Marks} {ctx : SettlementExecutionContext}

/-! ## The programs -/

theorem obeys_marking {α : Type} {p : Task α} (hp : p.Only (fun a => ¬ a.Adds) fun _ => True) :
    p.Obeys (marking M) (fun _ _ => True) () :=
  hp.obeys (fun _ a ha => by cases a <;> first | trivial | exact absurd trivial ha) ()

/-- The row that `updateSettlement` answers has its mark. -/
theorem updateSettlement_marked (id : Id) (params : UpdateSettlementParams) :
    (updateSettlement id params).Obeys (marking M) (fun _ out => ∀ row, out = .ok row → M.row row) () := by
  refine Prog.Obeys.bind (Prog.obeys_await.2 ⟨trivial, fun found _ => ?_⟩)
  rcases found with e | _ | existing
  · exact fun _ hrow => nomatch hrow
  · exact fun _ hrow => nomatch hrow
  · refine Prog.Obeys.bind (Prog.obeys_await.2 ⟨trivial, fun updated hupdated => ?_⟩)
    rcases updated with e | _ | row
    · exact fun _ hrow => nomatch hrow
    · exact fun _ hrow => nomatch hrow
    · rintro _ ⟨rfl⟩
      exact hupdated row rfl

theorem Marks.Of.record (hctx : M.Of ctx) {completed : Settlement} (hcompleted : M.row completed) :
    (record ctx (calculateSettlementAmount ctx.intent.targetAmount ctx.merchant.feePercentage) completed).Obeys
      (marking M) (fun _ _ => True) () := by
  have hrest : ((Settlements.recordSettlement completed).bind fun _ => .ret completed : Task Settlement).Obeys
      (marking M) (fun _ _ => True) () :=
    Prog.Obeys.bind ((hctx.recordSettlement hcompleted).mono fun _ out _ => by cases out <;> trivial)
  unfold Settlements.record
  split
  · refine Prog.Obeys.bind (hctx.recordFee.mono fun _ out _ => ?_)
    cases out with
    | error e => trivial
    | ok entry => exact hrest
  · exact hrest

theorem Marks.Of.settleIntent (hctx : M.Of ctx) :
    (settleIntent ctx).Obeys (marking M) (fun _ _ => True) () := by
  have hfail (id : Id) (error : SettlementError) :
      (handleSettlementFailure id error).Obeys (marking M) (fun _ _ => True) () :=
    obeys_marking (handleSettlementFailure_only not_false not_false (fun _ => not_false) error)
  rw [settleIntent_eq]
  refine Prog.Obeys.bind (Prog.obeys_await.2 ⟨hctx.create, fun r _ => ?_⟩)
  cases r with
  | error e => trivial
  | ok settlement =>
    have hgas (tx : UnsignedTx) : ¬ (Call.estimateGas tx).Adds := not_false
    have hsubmit (payout : Payout) : ¬ (Call.submitTransaction payout).Adds := not_false
    have hpay : (pay ctx settlement).Only (fun a => ¬ a.Adds) fun _ => True :=
      Prog.Only.bind (Prog.Only.bind (Prog.Only.await (hgas _)) fun _ => Prog.Only.await (hsubmit _)) fun txHash =>
        confirm_only not_false not_false not_false not_false not_false
    refine Prog.Obeys.tryCatch (Prog.Obeys.bind ((obeys_marking hpay).mono fun _ out _ => ?_))
    cases out with
    | error e => exact hfail settlement.id e
    | ok _ =>
      refine Prog.Obeys.bind (Prog.Obeys.bind (Prog.obeys_await.2 ⟨trivial, fun now _ => ?_⟩))
      cases now with
      | error e => exact hfail settlement.id e
      | ok now =>
        refine (updateSettlement_marked settlement.id _).mono fun _ out hout => ?_
        cases out with
        | error e => exact hfail settlement.id e
        | ok completed =>
          refine (hctx.record (hout completed rfl)).mono fun _ out _ => ?_
          cases out with
          | error e => exact hfail settlement.id e
          | ok _ => trivial

theorem retrySettlement_marked (settlementId : Id) :
    (retrySettlement settlementId).Obeys (marking M) (fun _ _ => True) () := by
  have hfind : ¬ (Call.findById settlementId).Adds := not_false
  refine obeys_marking (Prog.Only.bind (Prog.Only.await hfind) fun settlement => ?_)
  cases settlement with
  | none => exact Prog.Only.throw trivial
  | some settlement =>
    dsimp only
    split
    · exact Prog.Only.throw trivial
    · exact updateSettlement_only not_false not_false

theorem Op.Beside.marked {op : Op} (hop : op.Beside ctx)
    (hof : ∀ ctx', (ctx'.intent.id = ctx.intent.id → ctx' = ctx) → M.Of ctx') : op.Marked M := by
  cases op with
  | settleIntent ctx' => exact hof ctx' hop
  | retrySettlement id => trivial

theorem Op.Marked.task {op : Op} (hop : op.Marked M) : op.task.Obeys (marking M) (fun _ _ => True) () := by
  cases op with
  | settleIntent ctx => exact Prog.Obeys.bind ((Marks.Of.settleIntent hop).mono fun _ out _ => by cases out <;> trivial)
  | retrySettlement id =>
    exact Prog.Obeys.bind ((retrySettlement_marked id).mono fun _ out _ => by cases out <;> trivial)

/-! ## One call -/

/-- An executed `INSERT` of a row that has its mark. -/
theorem Marks.Holds.create {db : Db} (hdb : M.Holds db) {params : CreateSettlementParams} (o : Oracle)
    (hparams : (marking M).ok () (.create params)) : M.Holds (create o params db).2 := by
  unfold Settlements.create
  dsimp only
  split
  · exact hdb
  · rename_i settlements hins
    refine request_rule ⟨fun row hrow => ?_, hdb.2⟩ hdb
    simp only [Table.rows_insert? hins, List.mem_append, List.mem_singleton] at hrow
    rcases hrow with hrow | rfl
    · exact hdb.1 row hrow
    · exact hparams o db.clock

theorem Marks.Holds.update {db : Db} (hdb : M.Holds db) {id : Id} {params : UpdateSettlementParams} {o : Oracle} :
    (∀ row, (update o id params db).1 = .ok (some row) → M.row row) ∧ M.Holds (update o id params db).2 := by
  refine ⟨fun row hrow => ?_, request_rule ⟨fun row hrow => ?_, hdb.2⟩ hdb⟩
  · obtain ⟨-, hhead⟩ := request_ok hrow
    obtain ⟨old, hold, rfl⟩ := List.mem_map.1 (List.mem_of_mem_head? hhead)
    exact M.set (hdb.1 old (List.mem_filter.1 hold).1)
  · simp only [Table.mem_updateWhere] at hrow
    obtain ⟨old, hold, rfl⟩ := hrow
    split
    · exact M.set (hdb.1 old hold)
    · exact hdb.1 old hold

theorem Marks.Holds.handle {db : Db} (hdb : M.Holds db) (a : Call) (o : Oracle) (hok : (marking M).ok () a) :
    (marking M).rely a (handle a o db).1 ∧ M.Holds (handle a o db).2 := by
  have htick : M.Holds (db.tick o) := hdb
  cases a with
  | create params => exact ⟨trivial, htick.create o hok⟩
  | update id params => exact htick.update
  | createEntry params =>
    refine ⟨trivial, request_rule ⟨hdb.1, fun entry hentry => ?_⟩ htick⟩
    rcases List.mem_append.1 hentry with hentry | hentry
    · exact hdb.2 entry hentry
    · rw [List.mem_singleton.1 hentry]
      exact hok _ _
  | now => exact ⟨trivial, htick⟩
  | findById id => exact ⟨trivial, request_rule htick htick⟩
  | estimateGas tx => exact ⟨trivial, request_rule htick htick⟩
  | submitTransaction payout => exact ⟨trivial, request_rule htick htick⟩
  | getTransactionStatus txHash =>
    simp only [Settlements.handle, lookupStatus]
    split
    · exact ⟨trivial, htick⟩
    · exact ⟨trivial, htick⟩
  | delay ms => exact ⟨trivial, htick⟩
  | setTimeout settlementId ms => exact ⟨trivial, htick⟩

end

/-- **What is written**: under any interleaving of operations that have the marks, every row and entry has them. -/
theorem written (M : Marks) (cs : List (Choice Call Answer SettlementError Unit Oracle))
    (hops : ∀ p, .spawn p ∈ cs → ∃ op : Op, op.Marked M ∧ p = op.task) :
    M.Holds (Pool.exec handle (⟨emptyDb, []⟩ : Service) cs).store := by
  let I : Db → List Unit → Prop := fun db _ => M.Holds db
  have hempty : I emptyDb [] :=
    ⟨fun _ hrow => absurd hrow List.not_mem_nil, fun _ hentry => absurd hentry List.not_mem_nil⟩
  have hinit : (⟨emptyDb, []⟩ : Service).GhostInv (marking M) I := ⟨[], .nil, hempty⟩
  have hspawn (p : Task Unit) (hp : ∃ op : Op, op.Marked M ∧ p = op.task) :
      ∃ g, p.Obeys (marking M) (fun _ _ => True) g ∧ ∀ db gs, I db gs → I db (gs ++ [g]) := by
    obtain ⟨op, hop, rfl⟩ := hp
    exact ⟨(), hop.task, fun _ _ h => h⟩
  have hcs : (⟨emptyDb, []⟩ : Service).Guarded handle (fun _ _ => True) cs :=
    Pool.guarded_of_forall (fun _ _ => trivial) _ cs
  obtain ⟨gs, -, hdb⟩ := Pool.exec_inv hspawn (fun _ _ _ _ a o hdb hok _ => hdb.handle a o hok) hinit hops hcs
  exact hdb

end NexoraGateway.Settlements
