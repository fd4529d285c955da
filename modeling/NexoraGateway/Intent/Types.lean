import NexoraGateway.Events.Replay
import NexoraGateway.Json

/-!
# Payment intents (`shared/src/types/payment-intent.ts`, `shared/src/utils/index.ts`)

The state machine of an intent, its row and its events. `machine E` reads an intent's log as a
versioned event log (`Events.Explains`) whose edges are `E`; the repository allows the edges of
`validTransitions`.
-/
namespace NexoraGateway.Intent

inductive IntentState where
  | created | quoted | awaitingPayment | detected | confirming | routing | settling | settled
  | underpaid | overpaid | misdirected | expired | refunding | failed
  deriving DecidableEq, Repr

/-- The state as the `state` column and the error texts spell it. -/
def IntentState.name : IntentState → String
  | .created => "CREATED"
  | .quoted => "QUOTED"
  | .awaitingPayment => "AWAITING_PAYMENT"
  | .detected => "DETECTED"
  | .confirming => "CONFIRMING"
  | .routing => "ROUTING"
  | .settling => "SETTLING"
  | .settled => "SETTLED"
  | .underpaid => "UNDERPAID"
  | .overpaid => "OVERPAID"
  | .misdirected => "MISDIRECTED"
  | .expired => "EXPIRED"
  | .refunding => "REFUNDING"
  | .failed => "FAILED"

/-- `VALID_TRANSITIONS` (payment-intent.ts:28). -/
def validTransitions : IntentState → List IntentState
  | .created => [.quoted, .expired, .failed]
  | .quoted => [.awaitingPayment, .expired, .failed]
  | .awaitingPayment => [.detected, .expired, .failed]
  | .detected => [.confirming, .underpaid, .overpaid, .misdirected]
  | .confirming => [.routing, .failed]
  | .routing => [.settling, .failed]
  | .settling => [.settled, .failed]
  | .settled => []
  | .underpaid => [.awaitingPayment, .refunding, .failed]
  | .overpaid => [.settling, .refunding, .failed]
  | .misdirected => [.refunding, .failed]
  | .expired => []
  | .refunding => [.settled, .failed]
  | .failed => []

/-- `isValidTransition` (utils/index.ts:16). -/
def isValidTransition (valid : IntentState → List IntentState) (source target : IntentState) : Bool :=
  (valid source).contains target

inductive EventType where
  | intentCreated | quoteGenerated | paymentAwaited | quoteExpired | depositDetected
  | confirmationReceived | routeSelected | settlementInitiated | settlementConfirmed
  | underpaymentDetected | overpaymentDetected | misdirectedPayment | refundInitiated
  | refundConfirmed | failed
  deriving DecidableEq, Repr

/-- The event as the `event_type` column spells it. -/
def EventType.name : EventType → String
  | .intentCreated => "INTENT_CREATED"
  | .quoteGenerated => "QUOTE_GENERATED"
  | .paymentAwaited => "PAYMENT_AWAITED"
  | .quoteExpired => "QUOTE_EXPIRED"
  | .depositDetected => "DEPOSIT_DETECTED"
  | .confirmationReceived => "CONFIRMATION_RECEIVED"
  | .routeSelected => "ROUTE_SELECTED"
  | .settlementInitiated => "SETTLEMENT_INITIATED"
  | .settlementConfirmed => "SETTLEMENT_CONFIRMED"
  | .underpaymentDetected => "UNDERPAYMENT_DETECTED"
  | .overpaymentDetected => "OVERPAYMENT_DETECTED"
  | .misdirectedPayment => "MISDIRECTED_PAYMENT"
  | .refundInitiated => "REFUND_INITIATED"
  | .refundConfirmed => "REFUND_CONFIRMED"
  | .failed => "FAILED"

/-- `getExpectedNextState` (payment-intent.repository.ts:355). -/
def getExpectedNextState : EventType → IntentState
  | .intentCreated => .created
  | .quoteGenerated => .quoted
  | .paymentAwaited => .awaitingPayment
  | .quoteExpired => .expired
  | .depositDetected => .detected
  | .confirmationReceived => .confirming
  | .routeSelected => .routing
  | .settlementInitiated => .settling
  | .settlementConfirmed => .settled
  | .underpaymentDetected => .underpaid
  | .overpaymentDetected => .overpaid
  | .misdirectedPayment => .misdirected
  | .refundInitiated => .refunding
  | .refundConfirmed => .settled
  | .failed => .failed

/-- An intent's log read with edges `E`. -/
def machine (E : IntentState → IntentState → Prop) : Events.Machine IntentState EventType :=
  ⟨.intentCreated, getExpectedNextState, E⟩

/-- The edges of `validTransitions`. -/
def Valid (source target : IntentState) : Prop := isValidTransition validTransitions source target = true

instance : DecidableRel Valid := fun _ _ => inferInstanceAs (Decidable (_ = true))

structure NewPaymentIntent where
  merchantId : Id
  orderRef : String
  targetAmount : ℚ
  targetAsset : String
  targetChain : String
  acceptedAssets : List String
  deriving DecidableEq

/-- `{ ...data }`. -/
def NewPaymentIntent.toPayload (data : NewPaymentIntent) : Payload :=
  [("merchant_id", .str data.merchantId), ("order_ref", .str data.orderRef),
   ("target_amount", .num data.targetAmount), ("target_asset", .str data.targetAsset),
   ("target_chain", .str data.targetChain), ("accepted_assets", .arr (data.acceptedAssets.map .str))]

/-- A `payment_intents` row. `PaymentIntent` objects have the same fields; `mapRow` is the map. -/
structure PaymentIntent where
  id : Id
  merchantId : Id
  orderRef : String
  targetAmount : ℚ
  targetAsset : String
  targetChain : String
  acceptedAssets : List String
  quotedRate : Option ℚ := none
  quoteExpiresAt : Option Time := none
  depositAddress : Option String := none
  depositAsset : Option String := none
  depositChain : Option String := none
  state : IntentState := .created
  version : Nat := 1
  createdAt : Time
  updatedAt : Time
  deriving DecidableEq

/-- `mapRow` (payment-intent.repository.ts:314): an empty deposit string reads back as `null`. -/
def mapRow (row : PaymentIntent) : PaymentIntent :=
  { row with
    depositAddress := row.depositAddress.filter (· ≠ "")
    depositAsset := row.depositAsset.filter (· ≠ "")
    depositChain := row.depositChain.filter (· ≠ "") }

@[simp] theorem mapRow_id (row : PaymentIntent) : (mapRow row).id = row.id := rfl
@[simp] theorem mapRow_state (row : PaymentIntent) : (mapRow row).state = row.state := rfl
@[simp] theorem mapRow_version (row : PaymentIntent) : (mapRow row).version = row.version := rfl

/-- An `intent_events` row; its random primary key is left out. -/
structure IntentEvent where
  intentId : Id
  eventType : EventType
  payload : Payload
  version : Nat
  createdAt : Time

/-- A `merchants` row with the column defaults of migration 001. -/
structure MerchantConfig where
  id : Id
  name : String
  settlementAsset : String
  settlementChain : String
  settlementAddress : String
  acceptedChains : List String := []
  acceptedAssets : List String := []
  feePercentage : ℚ := 0
  kycThreshold : ℚ := 10000
  quoteTtlSeconds : Int := 300
  webhookUrl : Option String := none
  complianceStatus : String := "COMPLIANT"

inductive DeliveryStatus where
  | pending | delivered | failed
  deriving DecidableEq, Repr

/-- A `webhook_deliveries` row (migration 008). -/
structure WebhookDelivery where
  id : Id
  intentId : Id
  eventType : EventType
  webhookUrl : String
  payload : Payload
  status : DeliveryStatus := .pending
  attemptCount : Nat := 0
  lastAttemptAt : Option Time := none
  lastError : Option String := none
  nextRetryAt : Option Time := none
  createdAt : Time
  updatedAt : Option Time := none
  completedAt : Option Time := none

/-- The unique key of `webhook_deliveries`. -/
def WebhookDelivery.key (d : WebhookDelivery) : Id × EventType := (d.intentId, d.eventType)

/-- What `generateQuote` hands out (payment-intent.ts:117). -/
structure Quote where
  rate : ℚ
  expiresAt : Time
  depositAddress : String
  depositAsset : String
  depositChain : String

end NexoraGateway.Intent
