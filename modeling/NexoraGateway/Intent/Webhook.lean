import NexoraGateway.Intent.Calls

/-!
# Webhook delivery (`payment-intent/src/webhook-delivery.service.ts`)

A delivery is recorded under `(intent_id, event_type)` and tried at once; later tries are only
scheduled, for `processRetries` to pick up. The delivery's own failures are recorded, not thrown;
what can be thrown is a rejected query. The HMAC of a payload is kept symbolic.

`deliverWebhook_only` says that a delivery does not write an intent.
-/
namespace NexoraGateway.Intent

open Async

/-- An `async` function of the package. -/
abbrev Task (α : Type) := Prog Call Answer IntentError α

namespace Task

def now : Task Time := Prog.await Call.now
def findById (id : Id) : Task (Option PaymentIntent) := Prog.await (Call.findById id)
def create (data : NewPaymentIntent) : Task PaymentIntent := Prog.await (Call.create data)
def transition (id : Id) (eventType : EventType) (payload : Payload) : Task PaymentIntent :=
  Prog.await (Call.transition id eventType payload)
def updateQuote (id : Id) (quotedRate : ℚ) (quoteExpiresAt : Time) (deposit : Option Deposit) :
    Task PaymentIntent := Prog.await (Call.updateQuote id quotedRate quoteExpiresAt deposit)
def findExpiredIntents : Task (List PaymentIntent) := Prog.await Call.findExpiredIntents
def getById (id : Id) : Task (Option MerchantConfig) := Prog.await (Call.getById id)
def upsertDelivery (intentId : Id) (eventType : EventType) (url : String) (payload : Payload) : Task Id :=
  Prog.await (Call.upsertDelivery intentId eventType url payload)
def getDelivery (id : Id) : Task (Option WebhookDelivery) := Prog.await (Call.getDelivery id)
def updateDeliveryStatus (id : Id) (status : DeliveryStatus) (attemptCount : Nat)
    (nextRetryAt : Option Time) (lastError : Option String) : Task Unit :=
  Prog.await (Call.updateDeliveryStatus id status attemptCount nextRetryAt lastError)
def pendingRetries : Task (List Id) := Prog.await Call.pendingRetries
def fetch (url : String) (headers : List (String × Json)) (body : Payload) : Task (Nat × String) :=
  Prog.await (Call.fetch url headers body)

end Task

def retryDelaysMs : List Int := [0, 1000, 5000, 30000, 300000]

/-- `RETRY_DELAYS_MS[i] ?? RETRY_DELAYS_MS[RETRY_DELAYS_MS.length - 1] ?? 0`. -/
def retryDelay (i : Nat) : Int := (retryDelaysMs[i]?.or retryDelaysMs.getLast?).getD 0

/-- `generateSignature` (webhook-delivery.service.ts:70): the text that is signed stands for its MAC. -/
def generateSignature (intentId : Id) (eventType : EventType) (data : Payload) : Json :=
  .obj [("intent_id", .str intentId), ("event_type", .str eventType.name), ("data", .obj data)]

/-- `attemptDelivery` (webhook-delivery.service.ts:106). -/
def attemptDelivery (deliveryId : Id) : Task Unit := do
  match ← Task.getDelivery deliveryId with
  | none => return
  | some delivery =>
    let attempt := delivery.attemptCount + 1
    let delayMs := retryDelay (attempt - 1)
    if attempt > 1 then
      let now ← Task.now
      Task.updateDeliveryStatus deliveryId .pending attempt (some (now + delayMs)) none
    else
      tryCatch
        (do
          let headers :=
            [("Content-Type", .str "application/json"),
             ("X-Webhook-Signature", (delivery.payload.get? "signature").getD (.str "")),
             ("X-Webhook-Event", .str delivery.eventType.name), ("X-Webhook-Delivery-Id", .str deliveryId)]
          let (status, statusText) ← Task.fetch delivery.webhookUrl headers delivery.payload
          if 200 ≤ status ∧ status ≤ 299 then
            Task.updateDeliveryStatus deliveryId .delivered attempt none none
          else
            throw (.http ("HTTP " ++ toString status ++ ": " ++ statusText)))
        fun error => do
          if attempt ≥ maxAttempts then
            Task.updateDeliveryStatus deliveryId .failed attempt none (some error.message)
          else
            let now ← Task.now
            let nextRetryAt := now + retryDelay attempt
            Task.updateDeliveryStatus deliveryId .pending attempt (some nextRetryAt) (some error.message)

/-- `deliverWebhook` (webhook-delivery.service.ts:35). -/
def deliverWebhook (intent : PaymentIntent) (eventType : EventType) (data : Payload) : Task Unit := do
  let merchant ← Task.getById intent.merchantId
  match merchant.bind MerchantConfig.webhookUrl with
  | none => return
  | some webhookUrl =>
    let signature := generateSignature intent.id eventType data
    let timestamp ← Task.now
    let deliveryId ← Task.upsertDelivery intent.id eventType webhookUrl
      [("intent_id", .str intent.id), ("event_type", .str eventType.name), ("state", .str intent.state.name),
       ("timestamp", .date timestamp), ("data", .obj data), ("signature", signature)]
    attemptDelivery deliveryId

/-- `processRetries` (webhook-delivery.service.ts:155). -/
def processRetries : Task Nat := do
  let rows ← Task.pendingRetries
  rows.forM attemptDelivery
  return rows.length

/-! ## Webhooks do not write intents -/

/-- The calls that cannot write the intent tables. -/
def Call.KeepsIntents : Call → Prop
  | create _ | transition .. | updateQuote .. => False
  | _ => True

/-- The calls of one try at a delivery. -/
def Call.Tries : Call → Prop
  | now | getDelivery _ | updateDeliveryStatus .. | fetch .. => True
  | _ => False

theorem Call.Tries.keepsIntents {a : Call} (h : a.Tries) : a.KeepsIntents := by
  cases a with
  | create | transition | updateQuote => exact h.elim
  | _ => trivial

/-- The errors that come from outside the intent's own rules: a rejected query or request. -/
def IntentError.External : IntentError → Prop
  | database _ | deliveryNotCreated | http _ => True
  | _ => False

theorem Effect.keepsIntents {t t' : Tables} {a : Call} (h : Effect t a t') (ha : a.KeepsIntents) : t' = t := by
  cases h with
  | unchanged => rfl
  | _ => exact ha.elim

section
variable {E : IntentError → Prop}

/-- An attempt is about its delivery, which its request names in a header. -/
theorem attemptDelivery_calls {ok : Call → Prop} {deliveryId : Id} (hnow : ok .now)
    (hget : ok (.getDelivery deliveryId))
    (hfetch : ∀ url headers body, headers.lookup "X-Webhook-Delivery-Id" = some (.str deliveryId) →
      ok (.fetch url headers body))
    (hupdate : ∀ status attemptCount nextRetryAt lastError,
      ok (.updateDeliveryStatus deliveryId status attemptCount nextRetryAt lastError))
    (hhttp : ∀ message, E (.http message)) : (attemptDelivery deliveryId).Only ok E := by
  refine Prog.Only.bind (Prog.Only.await hget) fun delivery => ?_
  cases delivery with
  | none => exact Prog.Only.ret _
  | some delivery =>
    dsimp only
    split
    · exact Prog.Only.bind (Prog.Only.await hnow) fun _ => Prog.Only.await (hupdate ..)
    · refine Prog.Only.tryCatch (Prog.Only.bind (Prog.Only.await (hfetch _ _ _ rfl)) fun r => ?_) fun error _ => ?_
      · obtain ⟨status, statusText⟩ := r
        dsimp only
        split
        · exact Prog.Only.await (hupdate ..)
        · exact Prog.Only.throw (hhttp _)
      · split
        · exact Prog.Only.await (hupdate ..)
        · exact Prog.Only.bind (Prog.Only.await hnow) fun _ => Prog.Only.await (hupdate ..)

theorem attemptDelivery_only {ok : Call → Prop} (hok : ∀ a : Call, a.Tries → ok a)
    (hhttp : ∀ message, E (.http message)) (deliveryId : Id) : (attemptDelivery deliveryId).Only ok E :=
  attemptDelivery_calls (hok _ trivial) (hok _ trivial) (fun _ _ _ _ => hok _ trivial) (fun _ _ _ _ => hok _ trivial)
    hhttp

theorem deliverWebhook_only (hhttp : ∀ message, E (.http message)) (intent : PaymentIntent)
    (eventType : EventType)
    (data : Payload) : (deliverWebhook intent eventType data).Only Call.KeepsIntents E := by
  refine Prog.Only.bind (Prog.Only.await trivial) fun merchant => ?_
  dsimp only
  split
  · exact Prog.Only.ret _
  · refine Prog.Only.bind (Prog.Only.await trivial) fun _ => ?_
    exact Prog.Only.bind (Prog.Only.await trivial)
      (attemptDelivery_only (fun _ => Call.Tries.keepsIntents) hhttp)

end

theorem query_error {α : Type} {o : Oracle} {db : Db} {fn : Db → Except IntentError (α × Db)} {e : IntentError}
    (h : (query o fn db).1 = .error e) (hfn : ∀ e, fn db = .error e → e.External) : e.External := by
  rcases query_rejected h with ⟨-, rfl⟩ | hbody
  · trivial
  · exact hfn e hbody

theorem handle_external {a : Call} {o : Oracle} {db : Db} {e : IntentError} (ha : a.KeepsIntents)
    (h : (handle a o db).1 = .error e) : e.External := by
  cases a with
  | now => cases h
  | create | transition | updateQuote => exact ha.elim
  | fetch url headers body =>
    simp only [handle] at h
    split at h <;> cases h
    trivial
  | upsertDelivery intentId eventType url payload =>
    refine query_error h fun e he => ?_
    dsimp only at he
    split at he
    · cases he
    · split at he
      · cases he
      · cases he; trivial
  | _ => exact query_error h fun e he => by cases he

/-- Running webhook code alone leaves the intent tables as they are, and fails only from outside. -/
theorem run_keepsIntents {α : Type} {p : Task α} (hp : p.Only Call.KeepsIntents IntentError.External)
    (ω : Nat → Oracle) (n : Nat) (db : Db) :
    (∀ e, (p.run handle ω n db).1 = .error e → e.External) ∧
      (p.run handle ω n db).2.2.toTables = db.toTables := by
  obtain ⟨⟨_, hout⟩, htables⟩ := hp.run (r := fun db db' : Db => db'.toTables = db.toTables)
    (fun _ => rfl) (fun _ _ _ h h' => h'.trans h)
    (fun _ a o db ha => ⟨fun _ => handle_external ha, (handle_effect a o db).keepsIntents ha⟩) n db
  exact ⟨hout, htables⟩

end NexoraGateway.Intent
