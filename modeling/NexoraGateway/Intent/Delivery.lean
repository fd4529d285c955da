import NexoraGateway.Intent.Repository

/-!
# The queries behind webhooks (`payment-intent/src/webhook-delivery.service.ts`, `merchant-config.service.ts`)

Merchants are read and webhook deliveries written here. Nothing in this module touches the intent
tables: `query_frame` and the lemmas after it.
-/
namespace NexoraGateway.Intent

open Store

/-- `getById` (merchant-config.service.ts:12): an empty webhook URL reads back as `null`. -/
def getById (o : Oracle) (id : Id) : Db → Except IntentError (Option MerchantConfig) × Db :=
  query o fun db =>
    return ((db.merchants.find? id).map fun row => { row with webhookUrl := row.webhookUrl.filter (· ≠ "") }, db)

/-- `upsertDelivery` (webhook-delivery.service.ts:83), `ON CONFLICT (intent_id, event_type)`. -/
def upsertDelivery (o : Oracle) (intentId : Id) (eventType : EventType) (webhookUrl : String)
    (payload : Payload) : Db → Except IntentError Id × Db :=
  query o fun db => do
    let conflict := fun d : WebhookDelivery => decide (d.key = (intentId, eventType))
    let excluded := fun d : WebhookDelivery => { d with payload, webhookUrl, updatedAt := some o.now }
    match db.deliveries.insert? { id := o.uuid, intentId, eventType, webhookUrl, payload, createdAt := o.now } with
    | some deliveries => return (o.uuid, { db with deliveries })
    | none =>
      let some row := (db.deliveries.returning conflict excluded).head? | throw .deliveryNotCreated
      return (row.id, { db with deliveries := db.deliveries.updateWhere conflict excluded fun _ => rfl })

/-- `getDelivery` (webhook-delivery.service.ts:178). -/
def getDelivery (o : Oracle) (id : Id) : Db → Except IntentError (Option WebhookDelivery) × Db :=
  query o fun db => return (db.deliveries.rows.find? fun d => d.id = id, db)

/-- `updateDeliveryStatus` (webhook-delivery.service.ts:195). -/
def updateDeliveryStatus (o : Oracle) (id : Id) (status : DeliveryStatus) (attemptCount : Nat)
    (nextRetryAt : Option Time) (lastError : Option String) : Db → Except IntentError Unit × Db :=
  query o fun db =>
    let set := fun d : WebhookDelivery =>
      { d with
        status, attemptCount, nextRetryAt
        lastAttemptAt := some o.now
        lastError := lastError.filter (· ≠ "")
        completedAt := if status = .pending then d.completedAt else some o.now }
    return ((), { db with deliveries := db.deliveries.updateWhere (fun d => d.id = id) set fun _ => rfl })

def maxAttempts : Nat := 5

/-- The `SELECT` of `processRetries` (webhook-delivery.service.ts:155). -/
def pendingRetries (o : Oracle) : Db → Except IntentError (List Id) × Db :=
  query o fun db =>
    let due := db.deliveries.rows.filter fun d =>
      d.status = .pending && d.attemptCount < maxAttempts && d.nextRetryAt.all (· ≤ o.now)
    let ordered := due.mergeSort fun d e => d.createdAt ≤ e.createdAt
    return ((ordered.take 100).map WebhookDelivery.id, db)

/-! ## The intent tables are not touched -/

variable {o : Oracle} {db : Db}

/-- A query whose body keeps the intent tables keeps them, whatever its outcome. -/
theorem query_frame {α : Type} {fn : Db → Except IntentError (α × Db)}
    (hfn : ∀ x db', fn db = .ok (x, db') → db'.toTables = db.toTables) :
    (query o fn db).2.toTables = db.toTables :=
  atomically_cases (fun db' : Db => db'.toTables = db.toTables) rfl fun x t h => by
    obtain ⟨_, -, hr⟩ := bind_eq_ok.1 h
    exact hfn x t hr

theorem upsertDelivery_frame (intentId : Id) (eventType : EventType) (url : String) (payload : Payload) :
    (upsertDelivery o intentId eventType url payload db).2.toTables = db.toTables :=
  query_frame fun x db' h => by
    dsimp only at h
    split at h
    · cases h; rfl
    · split at h
      · cases h; rfl
      · cases h

/-- **The inversion of an upsert that is answered**: the row is new, or the one with its key is written over. -/
theorem upsertDelivery_answered {intentId : Id} {eventType : EventType} {url : String} {payload : Payload} {id : Id}
    (h : (upsertDelivery o intentId eventType url payload db).1 = .ok id) :
    (∃ deliveries, id = o.uuid ∧
      db.deliveries.insert?
        { id := o.uuid, intentId, eventType, webhookUrl := url, payload, createdAt := o.now } = some deliveries ∧
      (upsertDelivery o intentId eventType url payload db).2 = { db with deliveries }) ∨
    ∃ d, db.deliveries.find? (intentId, eventType) = some d ∧ id = d.id ∧
      (upsertDelivery o intentId eventType url payload db).2 =
        { db with
          deliveries := db.deliveries.updateWhere (fun d => d.key = (intentId, eventType))
            (fun d => { d with payload, webhookUrl := url, updatedAt := some o.now }) fun _ => rfl } := by
  obtain ⟨db', hdb, hbody⟩ := query_ok h
  have hquery : (upsertDelivery o intentId eventType url payload db).2 = db' := hdb
  rw [hquery]
  dsimp only at hbody
  split at hbody
  · rename_i deliveries hinsert
    cases hbody
    exact .inl ⟨deliveries, rfl, hinsert, rfl⟩
  · rename_i hinsert
    obtain ⟨d, hfind⟩ := Table.find?_of_insert?_eq_none hinsert
    change db.deliveries.find? (intentId, eventType) = some d at hfind
    simp only [Table.returning_of_find? hfind, List.head?_cons] at hbody
    cases hbody
    exact .inr ⟨d, hfind, rfl, rfl⟩

/-- The upsert itself does not fail: a refused insert has a row to update. -/
theorem upsertDelivery_error {id : Id} {eventType : EventType} {url : String} {payload : Payload}
    {e : IntentError}
    (h : (upsertDelivery o id eventType url payload db).1 = .error e) : o.fault = some .query := by
  rcases query_rejected h with ⟨hfault, -⟩ | hbody
  · exact hfault
  · dsimp only at hbody
    split at hbody
    · cases hbody
    · rename_i hins
      split at hbody
      · cases hbody
      · rename_i hnone
        obtain ⟨d, hfind⟩ := Table.find?_of_insert?_eq_none hins
        change db.deliveries.find? (id, eventType) = some d at hfind
        exact (hnone _ (by rw [Table.returning_of_find? hfind]; rfl)).elim

theorem updateDeliveryStatus_frame (id : Id) (status : DeliveryStatus) (attemptCount : Nat)
    (nextRetryAt : Option Time) (lastError : Option String) :
    (updateDeliveryStatus o id status attemptCount nextRetryAt lastError db).2.toTables = db.toTables :=
  query_frame fun x db' h => by cases h; rfl

end NexoraGateway.Intent
