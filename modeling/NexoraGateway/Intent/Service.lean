import NexoraGateway.Doubles
import NexoraGateway.Intent.Webhook

/-!
# The payment intent service (`payment-intent/src/payment-intent.service.ts`)

Every public operation of `PaymentIntentService` that writes, as the program of its awaited calls.
Reading the clock (`new Date()`) is a call too. A rational amount stands for the double nearest to it; where an amount
is computed with, the result is rounded as the code rounds it.

* `detectDeposit` — classifies a deposit against the target amount with a 1% tolerance (:230).
* `recordDeposit` — the deposit watcher's entry point (:188).
* `advanceIntent` — what `confirmDeposit` … `failIntent` share: look up, transition, notify (:316).
* `Op` — one operation with its arguments; `Op.task` runs it.
-/
namespace NexoraGateway.Intent

open Async
open Ecma (Double)

/-- `createIntent` (service.ts:40). -/
def createIntent (data : NewPaymentIntent) : Task PaymentIntent := do
  match ← Task.getById data.merchantId with
  | none => throw (.validation "Merchant not found" [("merchant_id", .str data.merchantId)])
  | some merchant =>
    if !merchant.acceptedAssets.contains data.targetAsset then
      throw (.validation "Target asset not accepted by merchant"
        [("target_asset", .str data.targetAsset),
         ("accepted_assets", .arr (merchant.acceptedAssets.map .str))])
    else if !merchant.acceptedChains.contains data.targetChain then
      throw (.validation "Target chain not accepted by merchant"
        [("target_chain", .str data.targetChain),
         ("accepted_chains", .arr (merchant.acceptedChains.map .str))])
    else if data.targetAmount ≤ 0 then
      throw (.validation "Target amount must be positive" [("target_amount", .num data.targetAmount)])
    else if data.targetAmount > 1000000 then
      throw (.validation "Target amount exceeds maximum" [("target_amount", .num data.targetAmount)])
    else
      let intent ← Task.create data
      deliverWebhook intent .intentCreated
        [("merchant_id", .str intent.merchantId), ("order_ref", .str intent.orderRef),
         ("target_amount", .num intent.targetAmount), ("target_asset", .str intent.targetAsset),
         ("target_chain", .str intent.targetChain)]
      return intent

/-- `merchant?.quote_ttl_seconds || 300`. -/
def quoteTtl : Option MerchantConfig → Int
  | some merchant => if merchant.quoteTtlSeconds = 0 then 300 else merchant.quoteTtlSeconds
  | none => 300

/-- `generateQuote` (service.ts:95). -/
def generateQuote (intentId : Id) (rate : ℚ) (depositAddress depositAsset depositChain : String) :
    Task (PaymentIntent × Quote) := do
  match ← Task.findById intentId with
  | none => throw (.intentNotFound intentId)
  | some intent =>
    if !isValidTransition validTransitions intent.state .quoted then
      throw (.validation ("Cannot generate quote in state: " ++ intent.state.name) [])
    else
      let merchant ← Task.getById intent.merchantId
      let now ← Task.now
      let expiresAt := now + quoteTtl merchant * 1000
      let _ ← Task.updateQuote intentId rate expiresAt (some ⟨depositAddress, depositAsset, depositChain⟩)
      let transitionedIntent ← Task.transition intentId .quoteGenerated
        [("rate", .num rate), ("deposit_address", .str depositAddress), ("deposit_asset", .str depositAsset),
         ("deposit_chain", .str depositChain), ("expires_at", .date expiresAt)]
      let quote : Quote := { rate, expiresAt, depositAddress, depositAsset, depositChain }
      deliverWebhook transitionedIntent .quoteGenerated
        [("quote", .obj [("rate", .num rate), ("expires_at", .date expiresAt),
          ("deposit_address", .str depositAddress), ("deposit_asset", .str depositAsset),
          ("deposit_chain", .str depositChain)])]
      return (transitionedIntent, quote)

/-- `awaitPayment` (service.ts:154). -/
def awaitPayment (intentId : Id) : Task PaymentIntent := do
  match ← Task.findById intentId with
  | none => throw (.intentNotFound intentId)
  | some intent =>
    if !isValidTransition validTransitions intent.state .awaitingPayment then
      throw (.validation ("Cannot await payment in state: " ++ intent.state.name) [])
    else
      let now ← Task.now
      Task.transition intentId .paymentAwaited
        [("deposit_address", .ofOption .str intent.depositAddress),
         ("deposit_asset", .ofOption .str intent.depositAsset),
         ("deposit_chain", .ofOption .str intent.depositChain),
         ("quote_expires_at", .ofOption .date intent.quoteExpiresAt), ("awaited_at", .date now)]

/-- `repository.transition` followed by `deliverWebhook` for the updated intent. -/
def transitionAndNotify (intentId : Id) (eventType : EventType) (payload data : Payload) :
    Task PaymentIntent := do
  let updated ← Task.transition intentId eventType payload
  deliverWebhook updated eventType data
  return updated

/-- `0.01`. -/
def tolerance : Double := .ofRat (1 / 100)

/-- `detectDeposit` (service.ts:230) once the quote is known not to be expired. -/
def classifyDeposit (intent : PaymentIntent) (intentId : Id) (txHash : String) (amount : ℚ)
    (sourceChain sourceAsset : String) : Task PaymentIntent := do
  let expectedAmount := Double.ofRat intent.targetAmount
  let received := Double.ofRat amount
  if received < expectedAmount * (1 - tolerance) then
    let data : Payload :=
      [("expected", .num intent.targetAmount), ("received", .num amount),
       ("shortfall", .num (expectedAmount - received).value), ("tx_hash", .str txHash)]
    transitionAndNotify intentId .underpaymentDetected
      (data ++ [("source_chain", .str sourceChain), ("source_asset", .str sourceAsset)]) data
  else if received > expectedAmount * (1 + tolerance) then
    let data : Payload :=
      [("expected", .num intent.targetAmount), ("received", .num amount),
       ("excess", .num (received - expectedAmount).value), ("tx_hash", .str txHash)]
    transitionAndNotify intentId .overpaymentDetected
      (data ++ [("source_chain", .str sourceChain), ("source_asset", .str sourceAsset)]) data
  else
    let data : Payload :=
      [("tx_hash", .str txHash), ("amount", .num amount), ("source_chain", .str sourceChain),
       ("source_asset", .str sourceAsset)]
    let now ← Task.now
    transitionAndNotify intentId .depositDetected (data ++ [("detected_at", .date now)]) data

/-- `detectDeposit` (service.ts:230). The clock is read only when there is a quote to expire. -/
def detectDeposit (intentId : Id) (txHash : String) (amount : ℚ) (sourceChain sourceAsset : String) :
    Task PaymentIntent := do
  match ← Task.findById intentId with
  | none => throw (.intentNotFound intentId)
  | some intent =>
    match intent.quoteExpiresAt with
    | none => classifyDeposit intent intentId txHash amount sourceChain sourceAsset
    | some quoteExpiresAt =>
      let now ← Task.now
      if quoteExpiresAt < now then
        let expiredAt ← Task.now
        let _ ← Task.transition intentId .quoteExpired [("expired_at", .date expiredAt)]
        throw (.quoteExpired intentId)
      else
        classifyDeposit intent intentId txHash amount sourceChain sourceAsset

/-- The `catch` of `recordDeposit`: `detectDeposit` has already moved the intent to `EXPIRED`. -/
def recoverExpired (intentId : Id) : IntentError → Task PaymentIntent
  | .quoteExpired id => do
    match ← Task.findById intentId with
    | some expired => return expired
    | none => throw (.quoteExpired id)
  | error => throw error

def acceptsDeposit : List IntentState := [.quoted, .awaitingPayment, .underpaid]

/-- `recordDeposit` (service.ts:188). -/
def recordDeposit (intentId : Id) (txHash : String) (amount : ℚ) (sourceChain sourceAsset : String) :
    Task PaymentIntent := do
  match ← Task.findById intentId with
  | none => throw (.intentNotFound intentId)
  | some intent =>
    if !acceptsDeposit.contains intent.state then
      return intent
    else
      if intent.state = .quoted then
        let _ ← awaitPayment intentId
      tryCatch (detectDeposit intentId txHash amount sourceChain sourceAsset) (recoverExpired intentId)

/-- The shape of `confirmDeposit`, `selectRoute`, `initiateSettlement`, `confirmSettlement` and
`failIntent`: `stamp` names the time at the end of the event's payload. -/
def advanceIntent (intentId : Id) (eventType : EventType) (data : Payload) (stamp : String) :
    Task PaymentIntent := do
  match ← Task.findById intentId with
  | none => throw (.intentNotFound intentId)
  | some _ =>
    let now ← Task.now
    transitionAndNotify intentId eventType (data ++ [(stamp, .date now)]) data

/-- service.ts:316. -/
def confirmDeposit (intentId : Id) (confirmationCount : ℚ) : Task PaymentIntent :=
  advanceIntent intentId .confirmationReceived [("confirmation_count", .num confirmationCount)] "confirmed_at"

/-- service.ts:337. -/
def selectRoute (intentId routeId : Id) (provider : String) (estimatedFee estimatedTime : ℚ) :
    Task PaymentIntent :=
  advanceIntent intentId .routeSelected
    [("route_id", .str routeId), ("provider", .str provider), ("estimated_fee", .num estimatedFee),
     ("estimated_time", .num estimatedTime)] "selected_at"

/-- service.ts:370. -/
def initiateSettlement (intentId : Id) (settlementAmount : ℚ) : Task PaymentIntent :=
  advanceIntent intentId .settlementInitiated [("settlement_amount", .num settlementAmount)] "initiated_at"

/-- service.ts:391. -/
def confirmSettlement (intentId : Id) (txHash : String) : Task PaymentIntent :=
  advanceIntent intentId .settlementConfirmed [("settlement_tx_hash", .str txHash)] "settled_at"

/-- service.ts:412: an `error` that is not given is absent from the payload. -/
def failIntent (intentId : Id) (reason : String) (error : Option String) : Task PaymentIntent :=
  advanceIntent intentId .failed
    (("reason", .str reason) :: (error.map fun e => ("error", Json.str e)).toList) "failed_at"

/-- `processExpiredQuotes` (service.ts:472): an intent that cannot be expired is logged and skipped. -/
def processExpiredQuotes : Task Nat := do
  let expired ← Task.findExpiredIntents
  expired.forM fun intent =>
    tryCatch
      (do
        let now ← Task.now
        let _ ← Task.transition intent.id .quoteExpired [("expired_at", .date now)]
        deliverWebhook intent .quoteExpired [("intent_id", .str intent.id)])
      fun _ => pure ()
  return expired.length

/-- One operation of the service. -/
inductive Op where
  | createIntent (data : NewPaymentIntent)
  | generateQuote (intentId : Id) (rate : ℚ) (depositAddress depositAsset depositChain : String)
  | awaitPayment (intentId : Id)
  | recordDeposit (intentId : Id) (txHash : String) (amount : ℚ) (sourceChain sourceAsset : String)
  | detectDeposit (intentId : Id) (txHash : String) (amount : ℚ) (sourceChain sourceAsset : String)
  | confirmDeposit (intentId : Id) (confirmationCount : ℚ)
  | selectRoute (intentId routeId : Id) (provider : String) (estimatedFee estimatedTime : ℚ)
  | initiateSettlement (intentId : Id) (settlementAmount : ℚ)
  | confirmSettlement (intentId : Id) (txHash : String)
  | failIntent (intentId : Id) (reason : String) (error : Option String)
  | processExpiredQuotes

/-- The operation as a task; its result is dropped. -/
def Op.task : Op → Task Unit
  | createIntent data => do let _ ← Intent.createIntent data
  | generateQuote intentId rate address asset chain => do
    let _ ← Intent.generateQuote intentId rate address asset chain
  | awaitPayment intentId => do let _ ← Intent.awaitPayment intentId
  | recordDeposit intentId txHash amount chain asset => do
    let _ ← Intent.recordDeposit intentId txHash amount chain asset
  | detectDeposit intentId txHash amount chain asset => do
    let _ ← Intent.detectDeposit intentId txHash amount chain asset
  | confirmDeposit intentId confirmationCount => do let _ ← Intent.confirmDeposit intentId confirmationCount
  | selectRoute intentId routeId provider fee time => do
    let _ ← Intent.selectRoute intentId routeId provider fee time
  | initiateSettlement intentId amount => do let _ ← Intent.initiateSettlement intentId amount
  | confirmSettlement intentId txHash => do let _ ← Intent.confirmSettlement intentId txHash
  | failIntent intentId reason error => do let _ ← Intent.failIntent intentId reason error
  | processExpiredQuotes => do let _ ← Intent.processExpiredQuotes

/-- Operations one after another, each with what its calls meet. -/
def serve (db : Db) (ops : List (Op × (Nat → Oracle))) : Db :=
  ops.foldl (fun db op => (op.1.task.run handle op.2 0 db).2.2) db

end NexoraGateway.Intent
