import NexoraGateway.Intent.Service

/-!
# What an operation can record

`Op.events` lists the events that an operation of the service can record; `op_only` says that it records
no others, whatever its calls answer. `MISDIRECTED_PAYMENT`, `REFUND_INITIATED` and `REFUND_CONFIRMED` are
recorded by none.
-/
namespace NexoraGateway.Intent

open Async

/-- A transition is by one of `events`. -/
def Call.Within (events : List EventType) : Call → Prop
  | transition _ eventType _ => eventType ∈ events
  | _ => True

/-- The events that an operation can record besides `INTENT_CREATED`. -/
def Op.events : Op → List EventType
  | createIntent _ => []
  | generateQuote .. => [.quoteGenerated]
  | awaitPayment _ => [.paymentAwaited]
  | recordDeposit .. =>
    [.paymentAwaited, .quoteExpired, .underpaymentDetected, .overpaymentDetected, .depositDetected]
  | detectDeposit .. => [.quoteExpired, .underpaymentDetected, .overpaymentDetected, .depositDetected]
  | confirmDeposit .. => [.confirmationReceived]
  | selectRoute .. => [.routeSelected]
  | initiateSettlement .. => [.settlementInitiated]
  | confirmSettlement .. => [.settlementConfirmed]
  | failIntent .. => [.failed]
  | processExpiredQuotes => [.quoteExpired]

variable {events : List EventType} {α : Type}

/-- `p` records only `events`. -/
abbrev Records (events : List EventType) (p : Task α) : Prop := p.Only (Call.Within events) fun _ => True

theorem deliverWebhook_records (intent : PaymentIntent) (eventType : EventType) (data : Payload) :
    Records events (deliverWebhook intent eventType data) :=
  (deliverWebhook_only (fun _ => trivial) intent eventType data).weaken fun a ha => by
    cases a with
    | transition => exact ha.elim
    | _ => trivial

theorem transitionAndNotify_records {eventType : EventType} (h : eventType ∈ events) (intentId : Id)
    (payload data : Payload) : Records events (transitionAndNotify intentId eventType payload data) :=
  Prog.Only.bind (Prog.Only.await h) fun updated =>
    Prog.Only.bind (deliverWebhook_records updated eventType data) fun _ => Prog.Only.ret _

theorem createIntent_records (data : NewPaymentIntent) : Records events (createIntent data) := by
  refine Prog.Only.bind (Prog.Only.await trivial) fun merchant => ?_
  cases merchant with
  | none => exact Prog.Only.throw trivial
  | some merchant =>
    dsimp only
    split
    · exact Prog.Only.throw trivial
    · split
      · exact Prog.Only.throw trivial
      · split
        · exact Prog.Only.throw trivial
        · split
          · exact Prog.Only.throw trivial
          · exact Prog.Only.bind (Prog.Only.await trivial) fun intent =>
              Prog.Only.bind (deliverWebhook_records intent _ _) fun _ => Prog.Only.ret _

theorem generateQuote_records (h : .quoteGenerated ∈ events) (intentId : Id) (rate : ℚ)
    (depositAddress depositAsset depositChain : String) :
    Records events (generateQuote intentId rate depositAddress depositAsset depositChain) := by
  refine Prog.Only.bind (Prog.Only.await trivial) fun intent => ?_
  cases intent with
  | none => exact Prog.Only.throw trivial
  | some intent =>
    dsimp only
    split
    · exact Prog.Only.throw trivial
    · refine Prog.Only.bind (Prog.Only.await trivial) fun merchant =>
        Prog.Only.bind (Prog.Only.await trivial) fun now => ?_
      refine Prog.Only.bind (Prog.Only.await trivial) fun _ => Prog.Only.bind (Prog.Only.await h)
        fun transitioned => ?_
      exact Prog.Only.bind (deliverWebhook_records transitioned _ _) fun _ => Prog.Only.ret _

theorem awaitPayment_records (h : .paymentAwaited ∈ events) (intentId : Id) :
    Records events (awaitPayment intentId) := by
  refine Prog.Only.bind (Prog.Only.await trivial) fun intent => ?_
  cases intent with
  | none => exact Prog.Only.throw trivial
  | some intent =>
    dsimp only
    split
    · exact Prog.Only.throw trivial
    · exact Prog.Only.bind (Prog.Only.await trivial) fun _ => Prog.Only.await h

section
variable (hexpired : .quoteExpired ∈ events) (hunder : .underpaymentDetected ∈ events)
  (hover : .overpaymentDetected ∈ events) (hdetected : .depositDetected ∈ events)
  (intentId : Id) (txHash : String) (amount : ℚ) (sourceChain sourceAsset : String)
include hunder hover hdetected

theorem classifyDeposit_records (intent : PaymentIntent) :
    Records events (classifyDeposit intent intentId txHash amount sourceChain sourceAsset) := by
  unfold classifyDeposit
  dsimp only
  split
  · exact transitionAndNotify_records hunder _ _ _
  · split
    · exact transitionAndNotify_records hover _ _ _
    · exact Prog.Only.bind (Prog.Only.await trivial) fun _ => transitionAndNotify_records hdetected _ _ _

include hexpired

theorem detectDeposit_records :
    Records events (detectDeposit intentId txHash amount sourceChain sourceAsset) := by
  refine Prog.Only.bind (Prog.Only.await trivial) fun intent => ?_
  cases intent with
  | none => exact Prog.Only.throw trivial
  | some intent =>
    dsimp only
    split
    · exact classifyDeposit_records hunder hover hdetected ..
    · refine Prog.Only.bind (Prog.Only.await trivial) fun now => ?_
      split
      · refine Prog.Only.bind (Prog.Only.await trivial) fun _ =>
          Prog.Only.bind (Prog.Only.await hexpired) fun _ => ?_
        exact Prog.Only.throw trivial
      · exact classifyDeposit_records hunder hover hdetected ..

theorem recordDeposit_records (hawaited : .paymentAwaited ∈ events) :
    Records events (recordDeposit intentId txHash amount sourceChain sourceAsset) := by
  have hrecover (e : IntentError) : Records events (recoverExpired intentId e) := by
    cases e with
    | quoteExpired id =>
      refine Prog.Only.bind (Prog.Only.await trivial) fun expired => ?_
      cases expired with
      | none => exact Prog.Only.throw trivial
      | some expired => exact Prog.Only.ret _
    | _ => exact Prog.Only.throw trivial
  have hdetect : Records events
      ((detectDeposit intentId txHash amount sourceChain sourceAsset).tryCatch (recoverExpired intentId)) :=
    Prog.Only.tryCatch (detectDeposit_records hexpired hunder hover hdetected ..) fun e _ => hrecover e
  refine Prog.Only.bind (Prog.Only.await trivial) fun intent => ?_
  cases intent with
  | none => exact Prog.Only.throw trivial
  | some intent =>
    dsimp only
    split
    · exact Prog.Only.ret _
    · split
      · exact Prog.Only.bind (awaitPayment_records hawaited intentId) fun _ => hdetect
      · exact hdetect

end

theorem advanceIntent_records {eventType : EventType} (h : eventType ∈ events) (intentId : Id) (data : Payload)
    (stamp : String) : Records events (advanceIntent intentId eventType data stamp) := by
  refine Prog.Only.bind (Prog.Only.await trivial) fun intent => ?_
  cases intent with
  | none => exact Prog.Only.throw trivial
  | some intent => exact Prog.Only.bind (Prog.Only.await trivial) fun _ => transitionAndNotify_records h _ _ _

theorem processExpiredQuotes_records (h : .quoteExpired ∈ events) : Records events processExpiredQuotes := by
  refine Prog.Only.bind (Prog.Only.await trivial) fun expired => ?_
  refine Prog.Only.bind (Prog.Only.forM (fun intent => ?_) expired) fun _ => Prog.Only.ret _
  refine Prog.Only.tryCatch ?_ fun _ _ => Prog.Only.ret _
  exact Prog.Only.bind (Prog.Only.await trivial) fun _ => Prog.Only.bind (Prog.Only.await h) fun _ =>
    deliverWebhook_records intent _ _

/-- An operation records only its events. -/
theorem op_records (op : Op) : Records op.events op.task := by
  cases op with
  | createIntent data => exact Prog.Only.bind (createIntent_records data) fun _ => Prog.Only.ret _
  | generateQuote =>
    exact Prog.Only.bind (generateQuote_records (by simp [Op.events]) ..) fun _ => Prog.Only.ret _
  | awaitPayment => exact Prog.Only.bind (awaitPayment_records (by simp [Op.events]) _) fun _ => Prog.Only.ret _
  | recordDeposit =>
    refine Prog.Only.bind (recordDeposit_records ?_ ?_ ?_ ?_ _ _ _ _ _ ?_) fun _ => Prog.Only.ret _
    all_goals simp [Op.events]
  | detectDeposit =>
    refine Prog.Only.bind (detectDeposit_records ?_ ?_ ?_ ?_ ..) fun _ => Prog.Only.ret _
    all_goals simp [Op.events]
  | confirmDeposit | selectRoute | initiateSettlement | confirmSettlement | failIntent =>
    exact Prog.Only.bind (advanceIntent_records (by simp [Op.events]) ..) fun _ => Prog.Only.ret _
  | processExpiredQuotes =>
    exact Prog.Only.bind (processExpiredQuotes_records (by simp [Op.events])) fun _ => Prog.Only.ret _

end NexoraGateway.Intent
