import NexoraGateway.Async.Pool
import NexoraGateway.Intent.Deposits
import NexoraGateway.Intent.Replay

/-!
# Settlement comes after confirmation

The service under any interleaving of its operations is the pool of `Op.task`s (`Service`); operations
one after another (`serve`) are among its schedules (`serve_schedule`).

The table of valid transitions has a way around `CONFIRMING`: `DETECTED → OVERPAID → SETTLING`, and
`detectDeposit` on a `DETECTED` intent takes its first step. `settled_after_confirmed` is what remains:
while no settlement is initiated on an `OVERPAID` intent, every `SETTLEMENT_INITIATED` has an earlier
`CONFIRMATION_RECEIVED`.
-/
namespace NexoraGateway.Intent

open Async Events

abbrev Service := Pool Call Answer IntentError Unit Db

/-- The tasks that a client of the service can start. -/
def IsOp (p : Task Unit) : Prop := ∃ op : Op, p = op.task

/-- The intent whose settlement a call initiates. -/
def Call.settles? : Call → Option Id
  | transition id .settlementInitiated _ => some id
  | _ => none

/-- No settlement is initiated on an intent that is `OVERPAID` at that moment. -/
def NotOverpaid (db : Db) (a : Call) : Prop := ∀ id ∈ a.settles?, stateOf db id ≠ some .overpaid

instance (db : Db) : DecidablePred (NotOverpaid db) := fun a =>
  inferInstanceAs (Decidable (∀ id ∈ a.settles?, stateOf db id ≠ some .overpaid))

/-- The valid edges without the one from `OVERPAID` to `SETTLING`. -/
def ConfirmedEdge (source target : IntentState) : Prop :=
  Valid source target ∧ ¬ (source = .overpaid ∧ target = .settling)

instance : DecidableRel ConfirmedEdge := fun _ _ => inferInstanceAs (Decidable (_ ∧ _))

/-- The states that only a confirmed deposit reaches. -/
def Confirmed (s : IntentState) : Prop := s ∈ [IntentState.confirming, .routing, .settling]

instance : DecidablePred Confirmed := fun _ => inferInstanceAs (Decidable (_ ∈ _))

theorem confirmed_gate (source : IntentState) (e : EventType)
    (hedge : ConfirmedEdge source (getExpectedNextState e))
    (hsource : ¬ Confirmed source) (htarget : Confirmed (getExpectedNextState e)) :
    e = .confirmationReceived := by
  revert hedge hsource htarget
  cases e <;> cases source <;> decide

theorem handle_confirmed {db : Db} {a : Call} (o : Oracle) (hc : Consistent ConfirmedEdge db.toTables)
    (hguard : NotOverpaid db a) : Consistent ConfirmedEdge (handle a o db).2.toTables := by
  refine (handle_effect a o db).consistent hc fun id eventType payload row ha hrow hvalid => ⟨hvalid, ?_⟩
  rintro ⟨hover, hsettling⟩
  -- only a settlement's initiation leads to `SETTLING`
  obtain rfl : eventType = .settlementInitiated := by cases eventType <;> simp_all [getExpectedNextState]
  subst ha
  exact hguard id rfl (by simp [stateOf, hrow, hover])

/-- **No settlement before confirmation**, in every run of the service in which no settlement is
initiated on an `OVERPAID` intent. -/
theorem settled_after_confirmed (w : Service) (hempty : w.store.toTables = .empty)
    (cs : List (Choice Call Answer IntentError Unit Oracle)) (hcs : w.Guarded handle NotOverpaid cs) (id : Id) :
    Precedes (· = .confirmationReceived) (· = .settlementInitiated)
      (((w.exec handle cs).store.logOf id).map Prod.snd) := by
  have hinit : Consistent ConfirmedEdge w.store.toTables := hempty ▸ Consistent.empty
  have hc : Consistent ConfirmedEdge (w.exec handle cs).store.toTables :=
    Pool.exec_store_inv (h := handle) (I := fun db => Consistent ConfirmedEdge db.toTables)
      (fun db a o => handle_confirmed (a := a) o) hinit hcs
  cases hrow : (w.exec handle cs).store.intents.find? id with
  | none =>
    rw [logOf_eq_nil hc hrow]
    intro pre e post hlog
    simp at hlog
  | some row =>
    obtain ⟨hmem, rfl⟩ := Store.Table.find?_eq_some.1 hrow
    exact (hc.explained row hmem).precedes Confirmed (by decide) confirmed_gate (by rintro e rfl; decide)

/-- An operation that runs alone as task `i`, at time `now`. -/
def alone (i : Nat) (op : Op) (now : Time) : List (Choice Call Answer IntentError Unit Oracle) :=
  .spawn op.task :: List.replicate 6 (.step i (calm now 0))

/-- An intent from its creation to its settlement. -/
def happyPath : List (Choice Call Answer IntentError Unit Oracle) :=
  alone 0 (.createIntent ⟨"shop", "order-1", 100, "USDC", "ethereum", ["USDC"]⟩) 0 ++
  alone 1 (.generateQuote "pi" 1 "0xdeposit" "USDC" "ethereum") 1 ++ alone 2 (.awaitPayment "pi") 2 ++
  alone 3 (.detectDeposit "pi" "0xa" 100 "ethereum" "USDC") 3 ++ alone 4 (.confirmDeposit "pi" 12) 4 ++
  alone 5 (.selectRoute "pi" "route-1" "provider" 1 60) 5 ++ alone 6 (.initiateSettlement "pi" 99) 6

/-- The rule on the happy path, which does settle. -/
theorem settled_after_confirmed_happyPath :
    .settlementInitiated ∈
      ((Pool.exec handle (⟨shopDb, []⟩ : Service) happyPath).store.logOf "pi").map Prod.snd ∧
    Precedes (· = .confirmationReceived) (· = .settlementInitiated)
      (((Pool.exec handle (⟨shopDb, []⟩ : Service) happyPath).store.logOf "pi").map Prod.snd) :=
  ⟨by decide +kernel, settled_after_confirmed ⟨shopDb, []⟩ rfl happyPath (by decide +kernel) "pi"⟩

/-- A second deposit on a detected intent makes it `OVERPAID`, and from there it is settled. -/
theorem settled_without_confirmation :
    ((serve shopDb
      [(.createIntent ⟨"shop", "order-1", 100, "USDC", "ethereum", ["USDC"]⟩, calm 0),
       (.generateQuote "pi" 1 "0xdeposit" "USDC" "ethereum", calm 1), (.awaitPayment "pi", calm 2),
       (.detectDeposit "pi" "0xa" 100 "ethereum" "USDC", calm 3),
       (.detectDeposit "pi" "0xb" 150 "ethereum" "USDC", calm 4),
       (.initiateSettlement "pi" 99, calm 5)]).logOf "pi").map Prod.snd =
      [.intentCreated, .quoteGenerated, .paymentAwaited, .depositDetected, .overpaymentDetected,
       .settlementInitiated] ∧
    ¬ Precedes (· = EventType.confirmationReceived) (· = .settlementInitiated)
      [.intentCreated, .quoteGenerated, .paymentAwaited, .depositDetected, .overpaymentDetected,
       .settlementInitiated] := by
  refine ⟨by decide +kernel, fun h => ?_⟩
  obtain ⟨e, he, rfl⟩ := h [.intentCreated, .quoteGenerated, .paymentAwaited, .depositDetected,
    .overpaymentDetected] .settlementInitiated [] rfl rfl
  simp at he

/-- Operations one after another are a schedule of the service. -/
theorem serve_schedule (ops : List (Op × (Nat → Oracle))) (w : Service) :
    ∃ cs : List (Choice Call Answer IntentError Unit Oracle),
      (∀ p, .spawn p ∈ cs → IsOp p) ∧ (w.exec handle cs).store = serve w.store ops := by
  induction ops generalizing w with
  | nil => exact ⟨[], fun _ h => absurd h List.not_mem_nil, rfl⟩
  | cons op ops ih =>
    obtain ⟨steps, hsteps, hrun⟩ := Pool.exec_run (h := handle) op.2 op.1.task
      (w := w.next handle (.spawn op.1.task)) (i := w.tasks.length) (by simp [Pool.next]) 0
    obtain ⟨cs, hcs, hserve⟩ := ih ((w.next handle (.spawn op.1.task)).exec handle steps)
    refine ⟨.spawn op.1.task :: (steps ++ cs), fun p hp => ?_, ?_⟩
    · rcases List.mem_cons.1 hp with h | hp
      · cases h
        exact ⟨op.1, rfl⟩
      · rcases List.mem_append.1 hp with h | h
        · obtain ⟨o, ho⟩ := hsteps _ h
          cases ho
        · exact hcs p h
    · rw [Pool.exec_cons, Pool.exec_append, hserve, hrun]
      rfl

theorem serve_consistent (ops : List (Op × (Nat → Oracle))) {db : Db} (hc : Consistent Valid db.toTables) :
    Consistent Valid (serve db ops).toTables := by
  obtain ⟨cs, -, hserve⟩ := serve_schedule ops ⟨db, []⟩
  rw [← hserve]
  exact Pool.exec_store_inv' (I := fun db : Db => Consistent Valid db.toTables)
    (fun _ a o hc => handle_consistent a o hc) hc cs

end NexoraGateway.Intent
