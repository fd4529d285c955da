import NexoraGateway.Api.Routes
import NexoraGateway.Text.Numerals
import NexoraGateway.Worker.Calls

/-!
# The requests of a merchant (`api-gateway/src/routes/intents.ts`)

The four routes behind `authMiddleware`, with the queries that only they make. `merchant` is who has logged in; the
routes take the merchant from the body or the query first, and an intent by its id alone.

* `getIntent`, `listIntents` — intents.ts:92, :131.
* `respond` — a request of either kind.
-/
namespace NexoraGateway.Api

open Async
open Text.Numerals (parseInt)
open Intent (Db IntentError IntentEvent NewPaymentIntent Oracle PaymentIntent mapRow)

inductive RouteCall : Type where
  | route (a : Call)
  | getEvents (intentId : Id)
  | findByMerchantId (merchantId : Id) (limit offset : Option Int)

def RouteCall.Ans : RouteCall → Type
  | route a => a.Ans
  | getEvents _ => List IntentEvent
  | findByMerchantId .. => List PaymentIntent

abbrev RouteAnswer (a : RouteCall) : Type := Except IntentError a.Ans

/-- `getEvents` (payment-intent.repository.ts:187). -/
def getEvents (o : Oracle) (intentId : Id) : Db → Except IntentError (List IntentEvent) × Db :=
  Intent.query o fun db => return (Worker.getEvents intentId db, db)

/-- A `LIMIT` or an `OFFSET`: a `bigint` that is not negative. `none` is `NaN`. -/
def bigint? (n : Option Int) : Option Nat := (n.filter fun n => 0 ≤ n && n < 2 ^ 63).map Int.toNat

/-- The rows that `ORDER BY created_at DESC LIMIT OFFSET` answers. -/
def page (limit offset : Nat) (rows : List PaymentIntent) : List PaymentIntent :=
  (((rows.insertionSort fun a b => b.createdAt ≤ a.createdAt).drop offset).take limit).map mapRow

/-- `findByMerchantId` (payment-intent.repository.ts:130). -/
def findByMerchantId (o : Oracle) (merchantId : Id) (limit offset : Option Int) :
    Db → Except IntentError (List PaymentIntent) × Db :=
  Intent.query o fun db =>
    match bigint? limit, bigint? offset with
    | some limit, some offset =>
      return (page limit offset (db.intents.rows.filter fun row => row.merchantId = merchantId), db)
    | _, _ => throw (.database .query)

def handleRoute : Handler RouteCall RouteAnswer Oracle Db
  | .route a, o => handle a o
  | .getEvents intentId, o => getEvents o intentId
  | .findByMerchantId merchantId limit offset, o => findByMerchantId o merchantId limit offset

abbrev RouteTask (α : Type) := Prog RouteCall RouteAnswer IntentError α

/-- A route that makes none of these queries. -/
def lift {α : Type} : Task α → RouteTask α
  | .ret x => .ret x
  | .throw e => .throw e
  | .call a k => .call (RouteCall.route a) fun r => lift (k r)

theorem lift_run {α : Type} (p : Task α) (ω : Nat → Oracle) (n : Nat) (db : Db) :
    (lift p).run handleRoute ω n db = p.run handle ω n db := by
  induction p generalizing n db with
  | ret x => rfl
  | throw e => rfl
  | call a k ih => exact ih (handle a (ω n) db).1 (n + 1) (handle a (ω n) db).2

/-- `getIntentWithEvents` (payment-intent.service.ts:442). -/
def getIntentWithEvents (id : Id) : RouteTask (Option (PaymentIntent × List IntentEvent)) := do
  match ← Prog.await (RouteCall.route (.service (.findById id))) with
  | none => return none
  | some intent =>
    let events ← Prog.await (RouteCall.getEvents id)
    return some (intent, events)

def eventBody (e : IntentEvent) : Json :=
  .obj [("event_type", .str e.eventType.name), ("payload", .obj e.payload), ("created_at", .date e.createdAt)]

def intentReply (intent : PaymentIntent) (events : List IntentEvent) : Reply :=
  ⟨200, [("intent_id", .str intent.id), ("merchant_id", .str intent.merchantId), ("order_ref", .str intent.orderRef),
    ("state", .str intent.state.name), ("target_amount", .num intent.targetAmount),
    ("target_asset", .str intent.targetAsset), ("target_chain", .str intent.targetChain),
    ("quoted_rate", .ofOption .num intent.quotedRate), ("quote_expires_at", .ofOption .date intent.quoteExpiresAt),
    ("created_at", .date intent.createdAt), ("updated_at", .date intent.updatedAt),
    ("events", .arr (events.map eventBody))]⟩

def notFoundReply (id : Id) : Reply := errorReply 404 "INTENT_NOT_FOUND" ("Payment intent not found: " ++ id)

/-- intents.ts:92. -/
def getIntent (id : Id) : RouteTask Reply := do
  match ← getIntentWithEvents id with
  | none => return notFoundReply id
  | some (intent, events) => return intentReply intent events

structure ListQuery where
  merchantId : Option String := none
  limit : Option String := none
  offset : Option String := none

/-- `limit ? parseInt(limit, 10) : 20`. -/
def parseOr (fallback : Int) (s : Option String) : Option Int :=
  match given s with
  | some s => parseInt s
  | none => some fallback

def summary (i : PaymentIntent) : Json :=
  .obj [("intent_id", .str i.id), ("order_ref", .str i.orderRef), ("state", .str i.state.name),
    ("target_amount", .num i.targetAmount), ("target_asset", .str i.targetAsset), ("created_at", .date i.createdAt)]

/-- intents.ts:131. -/
def listIntents (merchant : Option Id) (query : ListQuery) : RouteTask Reply := do
  match given ((given query.merchantId).or merchant) with
  | none => return badRequest "merchant_id is required"
  | some merchantId =>
    let intents ← Prog.await (RouteCall.findByMerchantId merchantId (parseOr 20 query.limit) (parseOr 0 query.offset))
    return ⟨200, [("intents", .arr (intents.map summary))]⟩

inductive Request where
  | create (body : IntentBody)
  | get (id : Id)
  | list (query : ListQuery)
  | quote (id : Id) (body : QuoteBody)

/-- A request that `authMiddleware` lets through. -/
def respond (merchant : Option Id) : Request → RouteTask Reply
  | .create body => lift (postIntent merchant body)
  | .get id => getIntent id
  | .list query => listIntents merchant query
  | .quote id body => lift (postQuote id body)

end NexoraGateway.Api
