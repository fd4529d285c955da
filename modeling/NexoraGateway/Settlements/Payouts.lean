import NexoraGateway.Async.Pool
import NexoraGateway.Settlements.Service

/-!
# How often an intent is paid

The package under any interleaving of its operations is the pool of `Op.task`s. Nothing in it keeps a
second `settleIntent` of the same intent from paying again: the table has no unique key on the intent
and `settleIntent` does not look for a settlement before it creates one. `paid_once` is what remains:
while every settlement is created for an intent that has none, every intent is paid at most once.

The invariant counts permits. Creating a settlement gives its task one permit to pay the intent, and
broadcasting uses it up; an intent's permits and payouts are at most one, and none before it has a row.
-/
namespace NexoraGateway.Settlements

open Async Store

abbrev Service := Pool Call Answer SettlementError Unit Db

/-- The tasks that can be started. -/
def IsOp (p : Task Unit) : Prop := ∃ op : Op, p = op.task

/-- The payouts of an intent that were broadcast. -/
def Db.paid (db : Db) (intentId : Id) : Nat := db.payouts.countP fun p => p.intentId = intentId

def Db.HasSettlement (db : Db) (intentId : Id) : Prop := ∃ row ∈ db.settlements.rows, row.intentId = intentId

instance (db : Db) (intentId : Id) : Decidable (db.HasSettlement intentId) :=
  inferInstanceAs (Decidable (∃ row ∈ _, _))

/-- A settlement is created only for an intent that has none. -/
def FirstSettlement (db : Db) : Call → Prop
  | .create params => ¬ db.HasSettlement params.intentId
  | _ => True

instance (db : Db) : DecidablePred (FirstSettlement db)
  | .create _ => inferInstanceAs (Decidable (¬ _))
  | .now | .findById _ | .update .. | .createEntry _ | .estimateGas _ | .submitTransaction _
  | .getTransactionStatus _ | .delay _ | .setTimeout .. => inferInstanceAs (Decidable True)

/-! ## What a call does to the payouts and the rows -/

variable {db db' : Db} {a : Call} {o : Oracle} {intentId : Id}

/-- Only a submitted transaction is paid. -/
theorem Effect.payouts (h : Effect db a db') :
    db'.payouts = db.payouts ∨ ∃ p, a = .submitTransaction p ∧ db'.payouts = db.payouts ++ [p] := by
  cases h with
  | paid payout => exact .inr ⟨payout, rfl, rfl⟩
  | idle | created | updated | posted | reported | scheduled => exact .inl rfl

/-- No call removes a settlement. -/
theorem Effect.hasSettlement (h : Effect db a db') (hdb : db.HasSettlement intentId) :
    db'.HasSettlement intentId := by
  obtain ⟨row, hrow, hintent⟩ := hdb
  cases h with
  | created _ _ _ hins => exact ⟨row, Table.rows_insert? hins ▸ List.mem_append_left _ hrow, hintent⟩
  | updated id params clock =>
    refine ⟨if row.id = id then params.set clock row else row, ?_, ?_⟩
    · rw [Table.mem_updateWhere]
      exact ⟨row, hrow, by simp⟩
    · split
      · exact hintent
      · exact hintent
  | idle | posted | paid | reported | scheduled => exact ⟨row, hrow, hintent⟩

/-- A settlement that was created is there, for the intent it was asked for. -/
theorem create_hasSettlement {params : CreateSettlementParams} {settlement : Settlement}
    (h : (handle (.create params) o db).1 = .ok settlement) :
    settlement.intentId = params.intentId ∧ (handle (.create params) o db).2.HasSettlement params.intentId := by
  obtain ⟨rfl, settlements, hins, hdb⟩ := create_ok h
  refine ⟨rfl, ?_⟩
  simp only [handle, hdb]
  exact ⟨_, Table.rows_insert? hins ▸ List.mem_append_right _ (List.mem_singleton_self _), rfl⟩

/-! ## Permits -/

/-- A task holds the intent it may pay, if any. Creating a settlement gives the permit, broadcasting
takes it. -/
def permits : Protocol Call Answer (Option Id) where
  ok permit
    | .submitTransaction payout => permit = some payout.intentId
    | _ => True
  rely
    | .create params, r => ∀ settlement, r = .ok settlement → settlement.intentId = params.intentId
    | _, _ => True
  next permit
    | .create params, .ok _ => some params.intentId
    | .submitTransaction _, _ => none
    | _, _ => permit

def Call.Submits : Call → Prop
  | submitTransaction _ => True
  | _ => False

/-- A program that submits nothing keeps to the permits. -/
theorem obeys_permits {α : Type} {p : Task α} (hp : p.Only (fun a => ¬ a.Submits) fun _ => True)
    (permit : Option Id) : p.Obeys permits (fun _ _ => True) permit :=
  hp.obeys (fun _ a ha => by cases a <;> first | trivial | exact absurd trivial ha) permit

theorem settleIntent_obeys (ctx : SettlementExecutionContext) :
    (settleIntent ctx).Obeys permits (fun _ _ => True) none := by
  have hfail (id : Id) (error : SettlementError) (permit : Option Id) :
      (handleSettlementFailure id error).Obeys permits (fun _ _ => True) permit :=
    obeys_permits (handleSettlementFailure_only not_false not_false (fun _ => not_false) error) permit
  refine Prog.Obeys.bind (Prog.obeys_await.2 ⟨trivial, fun r hr => ?_⟩)
  cases r with
  | error e => trivial
  | ok settlement =>
    refine Prog.Obeys.tryCatch (Prog.Obeys.bind (Prog.Obeys.bind (Prog.obeys_await.2 ⟨trivial, fun r _ => ?_⟩)))
    cases r with
    | error e => exact hfail settlement.id e _
    | ok _ =>
      -- the permit that the insertion gave is for the intent of this settlement
      refine Prog.obeys_await.2 ⟨congrArg some (hr settlement rfl).symm, fun r _ => ?_⟩
      cases r with
      | error e => exact hfail settlement.id e _
      | ok txHash =>
        refine (obeys_permits ?_ none).mono fun permit out _ => ?_
        · exact (confirm_only not_false not_false not_false not_false not_false).bind fun _ =>
            Prog.Only.bind (Prog.Only.await not_false) fun now =>
              (updateSettlement_only not_false not_false).bind fun completed =>
                record_only (fun _ => not_false) ctx _ completed
        · cases out with
          | ok _ => trivial
          | error e => exact hfail settlement.id e permit

theorem retrySettlement_obeys (settlementId : Id) :
    (retrySettlement settlementId).Obeys permits (fun _ _ => True) none := by
  have hfind : ¬ (Call.findById settlementId).Submits := not_false
  refine obeys_permits (Prog.Only.bind (Prog.Only.await hfind) fun settlement => ?_) none
  cases settlement with
  | none => exact Prog.Only.throw trivial
  | some settlement =>
    dsimp only
    split
    · exact Prog.Only.throw trivial
    · exact updateSettlement_only not_false not_false

theorem op_obeys (op : Op) : op.task.Obeys permits (fun _ _ => True) none := by
  cases op with
  | settleIntent ctx =>
    exact Prog.Obeys.bind ((settleIntent_obeys ctx).mono fun _ out _ => by cases out <;> trivial)
  | retrySettlement settlementId =>
    exact Prog.Obeys.bind ((retrySettlement_obeys settlementId).mono fun _ out _ => by cases out <;> trivial)

/-! ## The invariant -/

/-- How often an intent was or may still be paid. -/
def due (db : Db) (permits : List (Option Id)) (intentId : Id) : Nat :=
  db.paid intentId + permits.count (some intentId)

/-- At most once, and only with a settlement. -/
def AtMostOnce (db : Db) (permits : List (Option Id)) : Prop :=
  ∀ intentId, due db permits intentId ≤ if db.HasSettlement intentId then 1 else 0

/-- What is due for an intent grows at most with its first settlement. -/
theorem AtMostOnce.step {ps ps' : List (Option Id)} (h : AtMostOnce db ps) (heff : Effect db a db')
    (hdue : ∀ i, due db' ps' i ≤ due db ps i ∨
      ¬ db.HasSettlement i ∧ db'.HasSettlement i ∧ due db' ps' i ≤ due db ps i + 1) : AtMostOnce db' ps' := by
  intro i
  have hi := h i
  by_cases hrow : db.HasSettlement i
  · rw [if_pos hrow] at hi
    rw [if_pos (heff.hasSettlement hrow)]
    have := (hdue i).resolve_right fun hnew => hnew.1 hrow
    omega
  · rw [if_neg hrow] at hi
    rcases hdue i with hle | ⟨-, hrow', hle⟩
    · omega
    · rw [if_pos hrow']
      omega

theorem due_focus (db : Db) (ps₁ ps₂ : List (Option Id)) (permit : Option Id) (i : Id) :
    due db (ps₁ ++ permit :: ps₂) i =
      db.paid i + (ps₁ ++ ps₂).count (some i) + if permit = some i then 1 else 0 := by
  simp only [due, List.count_append, List.count_cons, beq_iff_eq]
  omega

theorem paid_congr (h : db'.payouts = db.payouts) (i : Id) : db'.paid i = db.paid i :=
  congrArg (List.countP _) h

theorem handle_atMostOnce (db : Db) (ps₁ : List (Option Id)) (permit : Option Id)
    (ps₂ : List (Option Id)) (a : Call)
    (o : Oracle) (h : AtMostOnce db (ps₁ ++ permit :: ps₂)) (hok : permits.ok permit a)
    (hfirst : FirstSettlement db a) :
    permits.rely a (handle a o db).1 ∧
      AtMostOnce (handle a o db).2 (ps₁ ++ permits.next permit a (handle a o db).1 :: ps₂) := by
  have heff := handle_effect a o db
  cases a with
  | create params =>
    refine ⟨fun settlement hs => (create_hasSettlement hs).1, h.step heff fun i => ?_⟩
    have hpaid := heff.payouts.resolve_right fun ⟨p, hp, _⟩ => by cases hp
    rw [due_focus, due_focus, paid_congr hpaid]
    cases hr : (handle (.create params) o db).1 with
    | error e => exact .inl (Nat.le_refl _)
    | ok settlement =>
      by_cases hi : params.intentId = i
      · subst hi
        have hgrow : (if permits.next permit (.create params) (.ok settlement) = some params.intentId
            then 1 else 0) ≤ 1 := by
          split <;> omega
        exact .inr ⟨hfirst, (create_hasSettlement hr).2, by omega⟩
      · have hother : ¬ permits.next permit (.create params) (.ok settlement) = some i := by simpa [permits]
        rw [if_neg hother]
        exact .inl (by omega)
  | submitTransaction payout =>
    obtain rfl : permit = some payout.intentId := hok
    refine ⟨trivial, h.step heff fun i => .inl ?_⟩
    have hspent : ¬ permits.next (some payout.intentId) (.submitTransaction payout)
        (handle (.submitTransaction payout) o db).1 = some i := by simp [permits]
    rw [due_focus, due_focus, if_neg hspent]
    rcases heff.payouts with hpaid | ⟨p, hp, hpaid⟩
    · rw [paid_congr hpaid]
      omega
    · cases hp
      simp only [Db.paid, hpaid, List.countP_append, List.countP_singleton, decide_eq_true_eq,
        Option.some.injEq]
      omega
  | now | findById | update | createEntry | estimateGas | getTransactionStatus | delay | setTimeout =>
    have hpaid := heff.payouts.resolve_right fun ⟨p, hp, _⟩ => by cases hp
    refine ⟨trivial, h.step heff fun i => .inl ?_⟩
    rw [due_focus, due_focus, paid_congr hpaid]
    exact Nat.le_refl _

/-- **An intent is paid at most once**, in every run of the service in which each settlement is created
for an intent that has none. -/
theorem paid_once (w : Service) (htasks : w.tasks = []) (hpayouts : w.store.payouts = [])
    (cs : List (Choice Call Answer SettlementError Unit Oracle)) (hops : ∀ p, .spawn p ∈ cs → IsOp p)
    (hcs : w.Guarded handle FirstSettlement cs) (intentId : Id) :
    (w.exec handle cs).store.paid intentId ≤ 1 := by
  have hinit : w.GhostInv permits AtMostOnce := by
    refine ⟨[], by rw [htasks]; exact .nil, fun i => ?_⟩
    simp [due, Db.paid, hpayouts]
  have hspawn (p : Task Unit) (hp : IsOp p) : ∃ permit, p.Obeys permits (fun _ _ => True) permit ∧
      ∀ db ps, AtMostOnce db ps → AtMostOnce db (ps ++ [permit]) := by
    obtain ⟨op, rfl⟩ := hp
    refine ⟨none, op_obeys op, fun db ps h i => ?_⟩
    simpa [due] using h i
  obtain ⟨ps, -, hinv⟩ := Pool.exec_inv hspawn
    (fun db ps₁ p ps₂ a o => handle_atMostOnce db ps₁ p ps₂ a o) hinit hops hcs
  have hi := hinv intentId
  unfold due at hi
  split at hi <;> omega

/-! ## Payouts of an order -/

/-- A `settleIntent` of the order as task `i`, up to its broadcast. -/
def payout (i : Nat) (uuid : Id) : List (Choice Call Answer SettlementError Unit Oracle) :=
  .spawn (Op.settleIntent context).task :: List.replicate 3 (.step i { uuid })

/-- The rule on one payout, whose row is then marked `PROCESSING` and meets a retry. -/
theorem paid_once_processing :
    (Pool.exec handle (⟨emptyDb, []⟩ : Service) (payout 0 "s1" ++ [.step 0 {}, .step 0 {},
      .spawn (Op.retrySettlement "s1").task, .step 1 {}])).store.paid "pi" = 1 ∧
    (Pool.exec handle (⟨emptyDb, []⟩ : Service) (payout 0 "s1" ++ [.step 0 {}, .step 0 {},
      .spawn (Op.retrySettlement "s1").task, .step 1 {}])).store.paid "pi" ≤ 1 := by
  refine ⟨by decide +kernel, paid_once _ rfl rfl _ (fun p hp => ?_) (by decide +kernel) "pi"⟩
  simp only [payout, List.cons_append, List.replicate, List.mem_cons, List.nil_append, Choice.spawn.injEq,
    reduceCtorEq, List.not_mem_nil, or_false, false_or] at hp
  rcases hp with rfl | rfl
  · exact ⟨_, rfl⟩
  · exact ⟨_, rfl⟩

/-- Two calls for one intent, one after the other, both pay. -/
theorem paid_twice :
    (Pool.exec handle (⟨emptyDb, []⟩ : Service) (payout 0 "s1" ++ payout 1 "s2")).store.paid "pi" = 2 := by
  decide +kernel

end NexoraGateway.Settlements
