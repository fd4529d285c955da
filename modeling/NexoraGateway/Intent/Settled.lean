import NexoraGateway.Intent.Lifecycle
import NexoraGateway.Intent.Operations

/-!
# An intent is settled at most once

`validTransitions` has edges that no operation of the service takes: nothing records a refund, so
`REFUNDING`, the other way into `SETTLED`, is never reached (`ServedEdge`). Along the edges that are left a
settlement is confirmed right after it was initiated, on an intent with a deposit, and nothing follows it.
-/
namespace NexoraGateway.Intent

open Async Events

/-- The valid edges that have nothing to do with a refund. -/
def ServedEdge (source target : IntentState) : Prop :=
    Valid source target ∧ source ≠ .refunding ∧ target ≠ .refunding

instance : DecidableRel ServedEdge := fun _ _ => inferInstanceAs (Decidable (_ ∧ _ ∧ _))

/-- What the service's operations can record. -/
def served : List EventType :=
  [.quoteGenerated, .paymentAwaited, .quoteExpired, .underpaymentDetected, .overpaymentDetected, .depositDetected,
   .confirmationReceived, .routeSelected, .settlementInitiated, .settlementConfirmed, .failed]

theorem op_served (op : Op) : Records served op.task :=
  (op_records op).weaken fun a ha => by
    cases a with
    | transition id eventType payload =>
      have hsub : op.events ⊆ served := by cases op <;> simp [Op.events, served]
      exact hsub ha
    | _ => trivial

theorem handle_served {db : Db} {a : Call} (o : Oracle) (ha : a.Within served)
    (hc : Consistent ServedEdge db.toTables) :
    Consistent ServedEdge (handle a o db).2.toTables := by
  refine (handle_effect a o db).consistent hc fun id eventType payload row hcall hrow hvalid => ⟨hvalid, ?_, ?_⟩
  · rcases (hc.explained row (Store.Table.find?_eq_some.1 hrow).1).reached with hcreated | ⟨source, hedge⟩
    · rw [hcreated]
      exact nofun
    · exact hedge.2.2
  subst hcall
  have hserved : eventType ∈ served := ha
  revert hserved
  cases eventType <;> decide

theorem service_served {w : Service} (htasks : w.tasks = []) (hempty : w.store.toTables = .empty)
    {cs : List (Choice Call Answer IntentError Unit Oracle)} (hops : ∀ p, .spawn p ∈ cs → IsOp p) :
    Consistent ServedEdge (w.exec handle cs).store.toTables := by
  have hstart : Consistent ServedEdge w.store.toTables := hempty ▸ Consistent.empty
  have hinit : w.GhostInv (only (Call.Within served) fun _ => True) fun db _ =>
    Consistent ServedEdge db.toTables :=
    ⟨[], by rw [htasks]; exact .nil, hstart⟩
  have hall : w.Guarded handle (fun _ _ => True) cs := Pool.guarded_of_forall (fun _ _ => trivial) w cs
  have hspawn (p : Task Unit) (hp : IsOp p) :
      ∃ g, p.Obeys (only (Call.Within served) fun _ => True) (fun _ _ => True) g ∧
      ∀ (db : Db) (gs : List Unit), Consistent ServedEdge db.toTables → Consistent ServedEdge db.toTables := by
    obtain ⟨op, rfl⟩ := hp
    exact ⟨(), (op_served op).mono fun _ _ _ => trivial, fun _ _ h => h⟩
  obtain ⟨_, -, hc⟩ := Pool.exec_inv hspawn
    (fun db _ _ _ a o hc ha _ => ⟨fun _ _ => trivial, handle_served o ha hc⟩) hinit hops hall
  exact hc

/-! ## The log of a settled intent -/

/-- The states that only a detected deposit reaches. -/
def Deposited (s : IntentState) : Prop :=
  s ∈ [IntentState.detected, .confirming, .routing, .settling, .settled, .underpaid, .overpaid, .misdirected]

instance : DecidablePred Deposited := fun _ => inferInstanceAs (Decidable (_ ∈ _))

theorem deposited_gate (source : IntentState) (e : EventType)
    (hedge : ServedEdge source (getExpectedNextState e))
    (hsource : ¬ Deposited source) (htarget : Deposited (getExpectedNextState e)) : e = .depositDetected := by
  revert hedge hsource htarget
  cases e <;> cases source <;> decide

theorem settled_final (t : IntentState) : ¬ ServedEdge .settled t := by cases t <;> decide

theorem before_settled {e : EventType} (h : ServedEdge (getExpectedNextState e) .settled) :
    e = .settlementInitiated := by
  revert h
  cases e <;> decide

theorem after_settling {t u : IntentState} (h : ServedEdge .settling t) : ¬ ServedEdge t u := by
  revert h
  cases t <;> cases u <;> decide

variable {log : List (Nat × EventType)} {s : IntentState} {v : Nat}

/-- A confirmed settlement comes right after its initiation, and both are the only ones of their kind. -/
theorem settled_log (h : Explains (machine ServedEdge) log s v)
    (hmem : .settlementConfirmed ∈ log.map Prod.snd) :
    ∃ pre, log.map Prod.snd = pre ++ [.settlementInitiated, .settlementConfirmed] ∧ .settlementConfirmed ∉ pre ∧
      .settlementInitiated ∉ pre ∧ .depositDetected ∈ pre := by
  obtain ⟨x, hx, hconfirmed⟩ := List.mem_map.1 hmem
  obtain ⟨pre', post, hlog⟩ := List.mem_iff_append.1 hx
  have htarget : (machine ServedEdge).target x.2 = .settled := by rw [hconfirmed]; rfl
  obtain rfl : post = [] := h.final hlog fun t => htarget ▸ settled_final t
  obtain ⟨pre, y, rfl, hedge⟩ := h.previous hlog (by rw [hconfirmed]; exact nofun)
  have hinitiated : y.2 = .settlementInitiated := before_settled (htarget ▸ hedge)
  have hlog' : log = pre ++ y :: [x] := by rw [hlog, List.append_assoc]; rfl
  refine ⟨pre.map Prod.snd, ?_, fun hin => ?_, fun hin => ?_, ?_⟩
  · rw [hlog', List.map_append, List.map_cons, List.map_cons, List.map_nil, hinitiated, hconfirmed]
  · -- nothing follows a confirmed settlement
    obtain ⟨z, hz, hconf⟩ := List.mem_map.1 hin
    obtain ⟨before, after, rfl⟩ := List.mem_iff_append.1 hz
    rw [List.append_assoc, List.cons_append] at hlog'
    have hnil := h.final hlog' fun t => by rw [hconf]; exact settled_final t
    simp at hnil
  · -- what follows an initiated settlement is the last event
    obtain ⟨z, hz, hinit⟩ := List.mem_map.1 hin
    obtain ⟨before, after, rfl⟩ := List.mem_iff_append.1 hz
    obtain ⟨u, rest, hrest⟩ := List.exists_cons_of_ne_nil (l := after ++ [y]) (by simp)
    have hnext : log = before ++ z :: u :: (rest ++ [x]) := by
      rw [hlog', ← List.cons_append, ← hrest]
      simp
    have hlast : log = (before ++ [z]) ++ u :: (rest ++ [x]) := by simp [hnext]
    have hedge' := h.edge hnext
    rw [hinit] at hedge'
    have hnil := h.final hlast fun t => after_settling hedge'
    simp at hnil
  · have hpaid : Deposited ((machine ServedEdge).target y.2) := by
      rw [hinitiated]
      decide
    rcases h.gate Deposited (by decide) deposited_gate hlog' hpaid with ⟨z, hz, hgate⟩ | hgate
    · exact hgate ▸ List.mem_map_of_mem hz
    · rw [hinitiated] at hgate
      cases hgate

/-- **An intent is settled at most once, and on a deposit**: in every run of the service a log with
`SETTLEMENT_CONFIRMED` ends in `SETTLEMENT_INITIATED` and `SETTLEMENT_CONFIRMED`, has each of them once, and has
`DEPOSIT_DETECTED` before them. -/
theorem settled_once (w : Service) (htasks : w.tasks = []) (hempty : w.store.toTables = .empty)
    (cs : List (Choice Call Answer IntentError Unit Oracle)) (hops : ∀ p, .spawn p ∈ cs → IsOp p) (id : Id)
    (hmem : .settlementConfirmed ∈ ((w.exec handle cs).store.logOf id).map Prod.snd) :
    ∃ pre, ((w.exec handle cs).store.logOf id).map Prod.snd = pre ++ [.settlementInitiated, .settlementConfirmed] ∧
      .settlementConfirmed ∉ pre ∧ .settlementInitiated ∉ pre ∧ .depositDetected ∈ pre := by
  have hc := service_served htasks hempty hops
  cases hrow : (w.exec handle cs).store.intents.find? id with
  | none =>
    rw [logOf_eq_nil hc hrow] at hmem
    exact absurd hmem List.not_mem_nil
  | some row =>
    obtain ⟨hin, rfl⟩ := Store.Table.find?_eq_some.1 hrow
    exact settled_log (hc.explained row hin) hmem

/-- The rule on the happy path and its settlement's confirmation. -/
theorem settled_once_happyPath :
    ∃ pre, ((Pool.exec handle (⟨shopDb, []⟩ : Service)
      (happyPath ++ alone 7 (.confirmSettlement "pi" "0xsettled") 7)).store.logOf "pi").map Prod.snd =
        pre ++ [.settlementInitiated, .settlementConfirmed] ∧
      .settlementConfirmed ∉ pre ∧ .settlementInitiated ∉ pre ∧ .depositDetected ∈ pre := by
  refine settled_once ⟨shopDb, []⟩ rfl rfl _ (fun p hp => ?_) "pi" (by decide +kernel)
  simp only [happyPath, alone, List.mem_append, List.mem_cons, List.mem_replicate, Choice.spawn.injEq,
    reduceCtorEq, and_false, or_false] at hp
  rcases hp with ((((((rfl | rfl) | rfl) | rfl) | rfl) | rfl) | rfl) | rfl
  all_goals exact ⟨_, rfl⟩

end NexoraGateway.Intent
