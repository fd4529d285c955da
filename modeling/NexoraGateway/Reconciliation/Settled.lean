import NexoraGateway.Intent.Replay
import NexoraGateway.Reconciliation.Findings

/-!
# Settled intents without a settlement (`checkMissingSettlements`, reconciliation.service.ts:177)

The check looks at the state of an intent, at its `updated_at` and at whether there is a settlement of any status. In a
history of creations and transitions `SETTLED` is final, so that `updated_at` is the time of the event that settled the
intent (`Stamped`); that event is `SETTLEMENT_CONFIRMED` or `REFUND_CONFIRMED`.
-/
namespace NexoraGateway.Reconciliation

open Async Store
open Settlements (Settlement)
open Intent (Tables Effect Consistent Valid EventType IntentEvent PaymentIntent MerchantConfig WebhookDelivery
  getExpectedNextState execCalls)

/-- An `updateQuote`. -/
def requotes : Intent.Call → Bool
  | .updateQuote .. => true
  | _ => false

/-- The event settles the intent at the time. -/
def SettledBy (t : Tables) (intentId : Id) (time : Time) (event : IntentEvent) : Prop :=
  event ∈ t.events ∧ event.intentId = intentId ∧ getExpectedNextState event.eventType = .settled ∧
    event.createdAt = time

/-- A row that is `SETTLED` was last written by the event that settled it. -/
def Stamped (t : Tables) : Prop :=
  ∀ row ∈ t.intents.rows, ∀ time, (row.state = .settled ∧ row.updatedAt = time) ↔ ∃ event, SettledBy t row.id time event

theorem settled_iff {eventType : EventType} : getExpectedNextState eventType = .settled ↔
    eventType = .settlementConfirmed ∨ eventType = .refundConfirmed := by
  cases eventType <;> simp [getExpectedNextState]

theorem not_valid_settled {state : Intent.IntentState} : ¬ Valid .settled state := by
  cases state <;> decide

section
variable {t t' : Tables} {a : Intent.Call} {intents : Table PaymentIntent.id} {event : IntentEvent} {id : Id}
  {time : Time}

/-- An event of another intent, or one that does not settle, settles nothing. -/
theorem settledBy_append (h : ¬ (event.intentId = id ∧ getExpectedNextState event.eventType = .settled)) :
    (∃ e, SettledBy ⟨intents, t.events ++ [event]⟩ id time e) ↔ ∃ e, SettledBy t id time e := by
  refine exists_congr fun e => ⟨?_, fun ⟨hmem, hrest⟩ => ⟨List.mem_append_left _ hmem, hrest⟩⟩
  rintro ⟨hmem, hid, hsettled, htime⟩
  rcases List.mem_append.1 hmem with hmem | hmem
  · exact ⟨hmem, hid, hsettled, htime⟩
  · cases List.mem_singleton.1 hmem
    exact absurd ⟨hid, hsettled⟩ h

theorem Stamped.create (hs : Stamped t) (hc : Consistent Valid t) {row : PaymentIntent} {payload : Payload} {now : Time}
    (hstate : row.state = .created) (hins : t.intents.insert? row = some intents) :
    Stamped ⟨intents, t.events ++ [⟨row.id, .intentCreated, payload, 1, now⟩]⟩ := by
  intro u hu time
  rw [settledBy_append fun h => absurd h.2 (by simp [getExpectedNextState])]
  rcases List.mem_append.1 (Table.rows_insert? hins ▸ hu) with hu | hu
  · exact hs u hu time
  · cases List.mem_singleton.1 hu
    have hfresh : t.intents.find? row.id = none := Table.insert?_isSome.1 (hins ▸ rfl)
    refine iff_of_false (fun h => absurd (hstate.symm.trans h.1) (by decide)) ?_
    rintro ⟨e, hmem, hid, -⟩
    obtain ⟨v, hv, hvid⟩ := hc.owned e hmem
    exact Table.find?_eq_none.1 hfresh v hv (hvid.trans hid)

theorem Stamped.transition (hs : Stamped t) (o : Intent.Oracle) {row : PaymentIntent} {eventType : EventType}
    {payload : Payload} (hmem : row ∈ t.intents.rows) (hedge : Valid row.state (getExpectedNextState eventType)) :
    Stamped (t.record o row eventType payload) := by
  have hunsettled : ∀ time, ¬ ∃ e, SettledBy t row.id time e := fun time h =>
    not_valid_settled (((hs row hmem time).2 h).1 ▸ hedge)
  intro u hu time
  obtain ⟨v, hv, rfl⟩ := Tables.mem_record.1 hu
  by_cases hid : v.id = row.id
  · obtain rfl := Table.eq_of_key hv hmem hid
    simp only [and_self, if_true, Intent.advance_id, Intent.advance_state]
    by_cases hsettles : getExpectedNextState eventType = .settled
    · constructor
      · rintro ⟨-, rfl⟩
        exact ⟨_, List.mem_append_right _ (List.mem_singleton_self _), rfl, hsettles, rfl⟩
      · rintro ⟨e, hmem, hrest⟩
        rcases List.mem_append.1 hmem with hmem | hmem
        · exact absurd ⟨e, hmem, hrest⟩ (hunsettled time)
        · cases List.mem_singleton.1 hmem
          exact hrest.2
    · rw [Tables.record, settledBy_append fun h => hsettles h.2]
      exact iff_of_false (fun h => hsettles h.1) (hunsettled time)
  · rw [if_neg fun h => hid h.1]
    rw [Tables.record, settledBy_append fun h => hid h.1.symm]
    exact hs v hv time

/-- A call that does not requote keeps the stamps. -/
theorem stamped_effect (h : Effect t a t') (ha : requotes a = false) (hc : Consistent Valid t) (hs : Stamped t) :
    Stamped t' := by
  cases h with
  | unchanged => exact hs
  | created hstate _ hins => exact hs.create hc hstate hins
  | transitioned o hrow hedge => exact hs.transition o (Table.find?_eq_some.1 hrow).1 hedge
  | requoted => cases ha

/-- A row of a history without requotes carries the time of the event that settled it. -/
theorem execCalls_stamped (merchants : Table MerchantConfig.id) (deliveries : Table WebhookDelivery.key)
    {calls : List (Intent.Call × Intent.Oracle)} (hcalls : ∀ c ∈ calls, requotes c.1 = false) :
    Stamped (execCalls { Tables.empty with merchants, deliveries } calls).toTables := by
  have hkept (calls : List (Intent.Call × Intent.Oracle)) (hcalls : ∀ c ∈ calls, requotes c.1 = false) (db : Intent.Db)
      (hc : Consistent Valid db.toTables) (hs : Stamped db.toTables) : Stamped (execCalls db calls).toTables := by
    induction calls generalizing db with
    | nil => exact hs
    | cons c calls ih =>
      obtain ⟨hfirst, hrest⟩ := List.forall_mem_cons.1 hcalls
      have hstamped := stamped_effect (Intent.handle_effect c.1 c.2 db) hfirst hc hs
      exact ih hrest _ (Intent.handle_consistent c.1 c.2 hc) hstamped
  exact hkept calls hcalls _ Consistent.empty fun _ h => absurd h List.not_mem_nil

end

section
variable {ω : Nat → Oracle} {n m : Nat} {db db' : Db} {period : ReconciliationPeriod} {startDate endDate : Time}
  {result : ReconciliationCheckResult}

/-- **Which intents are reported as settled without a settlement**: those that an event settled in the period, be it a
settlement or a refund, and of which there is no settlement at all, not even one that failed. -/
theorem missing_reported_iff (merchants : Table MerchantConfig.id) (deliveries : Table WebhookDelivery.key)
    (calls : List (Intent.Call × Intent.Oracle)) (hcalls : ∀ c ∈ calls, requotes c.1 = false)
    (hintents : db.books.intents = (execCalls { Tables.empty with merchants, deliveries } calls).intents)
    (h : (runReconciliation period startDate endDate).run handle ω n db = (.ok result, m, db')) (intentId : Id) :
    Reported result .missingSettlement intentId ↔
      (∃ event ∈ (execCalls { Tables.empty with merchants, deliveries } calls).events, event.intentId = intentId ∧
        (event.eventType = .settlementConfirmed ∨ event.eventType = .refundConfirmed) ∧
        between startDate endDate event.createdAt = true) ∧
      ∀ settlement ∈ db.books.settlements.rows, settlement.intentId ≠ intentId := by
  have hs := execCalls_stamped merchants deliveries hcalls
  have hc : Consistent Valid (execCalls { Tables.empty with merchants, deliveries } calls).toTables :=
    Intent.execCalls_consistent calls Consistent.empty
  rw [(runReconciliation_ok h).1.reported_missing_iff, mem_missingSettlements, hintents]
  constructor
  · rintro ⟨intent, hmem, rfl, hstate, hnone, hin⟩
    obtain ⟨event, hevent, hid, hsettles, htime⟩ := (hs intent hmem intent.updatedAt).1 ⟨hstate, rfl⟩
    exact ⟨⟨event, hevent, hid, settled_iff.1 hsettles, htime ▸ hin⟩, hnone⟩
  · rintro ⟨⟨event, hevent, rfl, hsettles, hin⟩, hnone⟩
    obtain ⟨intent, hmem, hid⟩ := hc.owned event hevent
    obtain ⟨hstate, htime⟩ :=
      (hs intent hmem event.createdAt).2 ⟨event, hevent, hid.symm, settled_iff.2 hsettles, rfl⟩
    exact ⟨intent, hmem, hid, hstate, hid ▸ hnone, htime ▸ hin⟩

end

/-! ## An order that was settled, and one that was refunded -/

/-- The shop, and no intents. -/
def shopTables : Intent.Db :=
  { Tables.empty with merchants := ⟨[Settlements.shop], List.nodup_singleton _⟩, deliveries := .empty }

/-- The order is created at 0, and each event happens a moment after the other. -/
def historyOf (events : List EventType) : List (Intent.Call × Intent.Oracle) :=
  (.create ⟨"shop", "order-1", 100, "USDC", "ethereum", ["USDC"]⟩, { now := 0, uuid := "pi" }) ::
    events.mapIdx fun i eventType => (.transition "pi" eventType [], { now := i + 1 })

def settledHistory : List (Intent.Call × Intent.Oracle) :=
  historyOf [.quoteGenerated, .paymentAwaited, .depositDetected, .confirmationReceived, .routeSelected,
    .settlementInitiated, .settlementConfirmed]

def refundedHistory : List (Intent.Call × Intent.Oracle) :=
  historyOf [.quoteGenerated, .paymentAwaited, .depositDetected, .underpaymentDetected, .refundInitiated,
    .refundConfirmed]

/-- A payout of the order that failed. -/
def failedPayout : Settlement := { payout "s1" 6 6 with status := .failed, txHash := none, completedAt := none }

/-- The settled order, whose only payout failed. -/
def settledBooks : Books where
  merchants := shopTables.merchants
  intents := (execCalls shopTables settledHistory).intents
  settlements := ⟨[failedPayout], List.nodup_singleton _⟩
  ledger := []
  merchantOfIntent := by decide +kernel
  intentOfSettlement := by decide +kernel
  merchantOfSettlement := by decide +kernel

/-- The refunded order. -/
def refundedBooks : Books where
  merchants := shopTables.merchants
  intents := (execCalls shopTables refundedHistory).intents
  settlements := .empty
  ledger := []
  merchantOfIntent := by decide +kernel
  intentOfSettlement := by decide +kernel
  merchantOfSettlement := by decide +kernel

theorem missing_reported_iff_refund : ∃ result m db',
    (runReconciliation .daily 0 10).run handle (fun _ => {}) 0 (dbOf refundedBooks) = (.ok result, m, db') ∧
    (Reported result .missingSettlement "pi" ↔
      (∃ event ∈ (execCalls shopTables refundedHistory).events, event.intentId = "pi" ∧
        (event.eventType = .settlementConfirmed ∨ event.eventType = .refundConfirmed) ∧
        between 0 10 event.createdAt = true) ∧
      ∀ settlement ∈ refundedBooks.settlements.rows, settlement.intentId ≠ "pi") := by
  obtain ⟨result, m, db', hrun⟩ := exists_run refundedBooks .daily 0 10
  exact ⟨result, m, db', hrun,
    missing_reported_iff shopTables.merchants .empty refundedHistory (by decide) rfl hrun "pi"⟩

/-- The order that was settled and has no completed settlement is not reported; the refunded one is. -/
theorem refund_reported :
    (∃ result m db',
      (runReconciliation .daily 0 10).run handle (fun _ => {}) 0 (dbOf settledBooks) = (.ok result, m, db') ∧
      (∃ event ∈ (execCalls shopTables settledHistory).events, event.intentId = "pi" ∧
        event.eventType = .settlementConfirmed ∧ between 0 10 event.createdAt = true) ∧
      (∀ settlement ∈ settledBooks.settlements.rows, settlement.status ≠ .completed) ∧
      ¬ Reported result .missingSettlement "pi") ∧
    ∃ result m db',
      (runReconciliation .daily 0 10).run handle (fun _ => {}) 0 (dbOf refundedBooks) = (.ok result, m, db') ∧
      (∀ event ∈ (execCalls shopTables refundedHistory).events, event.eventType ≠ .settlementConfirmed) ∧
      Reported result .missingSettlement "pi" := by
  constructor
  · obtain ⟨result, m, db', hrun⟩ := exists_run settledBooks .daily 0 10
    refine ⟨result, m, db', hrun, by decide +kernel, by decide +kernel, fun h => ?_⟩
    exact absurd ((runReconciliation_ok hrun).1.reported_missing_iff.1 h) (by decide +kernel)
  · obtain ⟨result, m, db', hrun⟩ := exists_run refundedBooks .daily 0 10
    refine ⟨result, m, db', hrun, by decide +kernel, ?_⟩
    exact (runReconciliation_ok hrun).1.reported_missing_iff.2 (by decide +kernel)

end NexoraGateway.Reconciliation
