import Mathlib.Data.List.Sort
import NexoraGateway.Intent.Service

/-!
# The routes that create and quote intents (`api-gateway/src/routes`)

A body is what the client sent: a field may be missing, and JavaScript's `!` and `||` treat `""` and `0` as
missing too. An error that a route does not answer itself is thrown on to the error handler of the app.

* `postPublicIntent` — public-intents.ts:48: anyone may create an intent, which is quoted at once.
* `postIntent`, `postQuote` — intents.ts:40, :170: the same two steps for a merchant that has logged in.
-/
namespace NexoraGateway.Api

open Async
open Intent (Db IntentError MerchantConfig NewPaymentIntent Oracle PaymentIntent Quote)

inductive Call : Type where
  | service (a : Intent.Call)
  | getAll

def Call.Ans : Call → Type
  | service a => a.Ans
  | getAll => List MerchantConfig

abbrev Answer (a : Call) : Type := Except IntentError a.Ans

/-- `getAll` (merchant-config.service.ts:36). -/
def getAll (o : Oracle) : Db → Except IntentError (List MerchantConfig) × Db :=
  Intent.query o fun db =>
    let compliant := db.merchants.rows.filter fun row => row.complianceStatus = "COMPLIANT"
    return (compliant.insertionSort fun a b => a.name ≤ b.name, db)

def handle : Handler Call Answer Oracle Db
  | .service a, o => Intent.handle a o
  | .getAll, o => getAll o

abbrev Task (α : Type) := Prog Call Answer IntentError α

/-- An operation of the service, called from a route. -/
def service {α : Type} : Intent.Task α → Task α
  | .ret x => .ret x
  | .throw e => .throw e
  | .call a k => .call (Call.service a) fun r => service (k r)

/-- Calling an operation is running it. -/
theorem service_run {α : Type} (p : Intent.Task α) (ω : Nat → Oracle) (n : Nat) (db : Db) :
    (service p).run handle ω n db = p.run Intent.handle ω n db := by
  induction p generalizing n db with
  | ret x => rfl
  | throw e => rfl
  | call a k ih => exact ih (Intent.handle a (ω n) db).1 (n + 1) (Intent.handle a (ω n) db).2

structure Reply where
  status : Nat
  body : Payload

/-- `{ error: { code, message, details } }`. -/
def errorReply (status : Nat) (code message : String) (details : Payload := []) : Reply :=
  let fields : Payload := [("code", .str code), ("message", .str message)]
  ⟨status, [("error", .obj (fields ++ if details.isEmpty then [] else [("details", .obj details)]))]⟩

def badRequest (message : String) : Reply := errorReply 400 "VALIDATION_ERROR" message

/-- A string that is there and not empty. -/
def given (s : Option String) : Option String := s.filter (· ≠ "")

def createdReply (intent : PaymentIntent) : Reply :=
  ⟨201, [("intent_id", .str intent.id), ("state", .str intent.state.name), ("created_at", .date intent.createdAt)]⟩

def quoteBody (quote : Quote) : Json :=
  .obj [("rate", .num quote.rate), ("deposit_address", .str quote.depositAddress),
    ("deposit_asset", .str quote.depositAsset), ("deposit_chain", .str quote.depositChain),
    ("expires_at", .date quote.expiresAt)]

/-- A `ValidationError` is answered, with its details, and any other error thrown on. -/
def answerValidation : IntentError → Task Reply
  | .validation message details => return errorReply 400 "VALIDATION_ERROR" message details
  | error => throw error

/-! ## Without an account -/

structure PublicIntentBody where
  orderRef : Option String := none
  targetAmount : Option ℚ
  targetAsset : Option String
  targetChain : Option String
  acceptedAssets : Option (List String) := none

/-- The merchant that the query names, else the first active one. -/
def resolveMerchant (merchantId : Option String) : Task (Option Id) := do
  match given merchantId with
  | some merchantId => return some merchantId
  | none =>
    let merchants ← Prog.await Call.getAll
    let active := merchants.find? fun m => m.complianceStatus = "COMPLIANT" || m.complianceStatus = "PENDING"
    return active.map MerchantConfig.id

/-- `body.order_ref || ...`: the number is the time. -/
def orderRefOf (orderRef : Option String) : Task String := do
  match given orderRef with
  | some orderRef => return orderRef
  | none =>
    let now ← service Intent.Task.now
    return "ORDER-" ++ toString now

def zeroAddress : String := "0x0000000000000000000000000000000000000000"

/-- `merchant?.settlement_address || '0x0…'`. -/
def settlementAddress (merchant : Option MerchantConfig) : String :=
  (given (merchant.map MerchantConfig.settlementAddress)).getD zeroAddress

/-- public-intents.ts:94: the address of the quote is the merchant's. -/
def createAndQuote (data : NewPaymentIntent) : Task Reply := do
  let intent ← service (Intent.createIntent data)
  let merchant ← service (Intent.Task.getById data.merchantId)
  let depositAddress := settlementAddress merchant
  let quoted ← service (Intent.generateQuote intent.id 1 depositAddress data.targetAsset data.targetChain)
  return ⟨201, [("intent_id", .str quoted.1.id), ("state", .str quoted.1.state.name),
    ("quote", quoteBody quoted.2), ("created_at", .date intent.createdAt)]⟩

/-- public-intents.ts:48. -/
def postPublicIntent (merchantId : Option String) (body : PublicIntentBody) : Task Reply := do
  match ← resolveMerchant merchantId with
  | none => return errorReply 400 "NO_MERCHANTS" "No active merchants available"
  | some merchantId =>
    match body.targetAmount.filter (· ≠ 0), given body.targetAsset, given body.targetChain with
    | some targetAmount, some targetAsset, some targetChain =>
      if targetAmount ≤ 0 then return badRequest "target_amount must be greater than 0"
      else
        tryCatch
          (do
            let orderRef ← orderRefOf body.orderRef
            createAndQuote
              { merchantId, orderRef, targetAmount, targetAsset, targetChain
                acceptedAssets := body.acceptedAssets.getD [targetAsset] })
          answerValidation
    | _, _, _ => return badRequest "Missing required fields: target_amount, target_asset, target_chain"

/-! ## With an account -/

structure IntentBody where
  merchantId : Option String := none
  orderRef : Option String
  targetAmount : Option ℚ
  targetAsset : Option String
  targetChain : Option String
  acceptedAssets : Option (List String)

/-- intents.ts:40; `merchant` is who has logged in. -/
def postIntent (merchant : Option Id) (body : IntentBody) : Task Reply := do
  match given ((given body.merchantId).or merchant), given body.orderRef, body.targetAmount.filter (· ≠ 0),
    given body.targetAsset, given body.targetChain with
  | some merchantId, some orderRef, some targetAmount, some targetAsset, some targetChain =>
    match body.acceptedAssets.filter (· ≠ []) with
    | none => return badRequest "accepted_assets must be a non-empty array"
    | some acceptedAssets =>
      tryCatch
        (do
          let intent ← service (Intent.createIntent
            { merchantId, orderRef, targetAmount, targetAsset, targetChain, acceptedAssets })
          return createdReply intent)
        answerValidation
  | _, _, _, _, _ =>
    return badRequest "Missing required fields: merchant_id, order_ref, target_amount, target_asset, target_chain"

structure QuoteBody where
  rate : Option ℚ
  depositAddress : Option String
  depositAsset : Option String
  depositChain : Option String

/-- What the route of quotes makes of an error. -/
def answerQuoteError : IntentError → Task Reply
  | .intentNotFound id => return errorReply 404 "INTENT_NOT_FOUND" (IntentError.intentNotFound id).message
  | .validation message _ => return badRequest message
  | error => throw error

/-- intents.ts:170: the client supplies the address. -/
def postQuote (id : Id) (body : QuoteBody) : Task Reply := do
  match body.rate.filter (· ≠ 0), given body.depositAddress, given body.depositAsset,
    given body.depositChain with
  | some rate, some depositAddress, some depositAsset, some depositChain =>
    tryCatch
      (do
        let result ← service (Intent.generateQuote id rate depositAddress depositAsset depositChain)
        return ⟨200, [("intent_id", .str result.1.id), ("state", .str result.1.state.name),
          ("quote", quoteBody result.2)]⟩)
      answerQuoteError
  | _, _, _, _ =>
    return badRequest "Missing required fields: rate, deposit_address, deposit_asset, deposit_chain"

end NexoraGateway.Api
