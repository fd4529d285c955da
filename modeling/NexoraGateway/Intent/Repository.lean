import NexoraGateway.Intent.Types
import NexoraGateway.Store.Atomic
import NexoraGateway.Store.Table

/-!
# The intent repository (`payment-intent/src/payment-intent.repository.ts`)

The tables of the package and the queries on them. A transaction holds the row lock it takes with
`SELECT … FOR UPDATE` until it commits, so it is one atomic step (`Store.atomically`); the database
may reject any of its statements (`Oracle.fault`), which rolls it back. Column limits that make
PostgreSQL refuse a value (a `VARCHAR(20)` that is too long, a malformed UUID) are such rejections.

* `create`, `transition`, `updateQuote` — the writers (repository.ts:23, :63, :218).
* `findById`, `findExpiredIntents` — the reads that the service builds on (:119, :174).
* `logOf` — the versions and types of an intent's events, in insertion order.
-/
namespace NexoraGateway.Intent

open Store

/-- The statement a database call is at. -/
inductive Statement where
  | connect | begin | lockIntent | insertIntent | updateIntent | insertEvent | commit | query
  deriving DecidableEq

/-- How an HTTP request to a merchant's endpoint ends. -/
inductive HttpOutcome where
  | response (status : Nat) (statusText : String)
  | rejected (message : String)

/-- What one call meets outside the program: the clock, a fresh UUID, the statement the database
rejects (if any) and the remote endpoint. -/
structure Oracle where
  now : Time
  uuid : Id := ""
  fault : Option Statement := none
  http : HttpOutcome := .response 200 "OK"

/-- The errors the package throws (`shared/src/errors/index.ts` and the repository's own). -/
inductive IntentError where
  | validation (message : String) (details : Payload)
  | intentNotFound (id : Id)
  | quoteExpired (id : Id)
  | rowNotFound (id : Id)
  | invalidTransition (source target : IntentState)
  | concurrentModification (id : Id)
  | deliveryNotCreated
  | http (message : String)
  | database (s : Statement)

def IntentError.message : IntentError → String
  | validation message _ => message
  | intentNotFound id => "Payment intent not found: " ++ id
  | quoteExpired id => "Quote has expired for intent: " ++ id
  | rowNotFound id => "Intent not found: " ++ id
  | invalidTransition source target =>
    "Invalid state transition from " ++ source.name ++ " to " ++ target.name
  | concurrentModification id => "Concurrent modification detected for intent: " ++ id
  | deliveryNotCreated => "Failed to create webhook delivery"
  | http message => message
  | database _ => "database error"

/-- `payment_intents` and `intent_events`. -/
structure Tables where
  intents : Table PaymentIntent.id
  events : List IntentEvent

structure Db extends Tables where
  merchants : Table MerchantConfig.id
  deliveries : Table WebhookDelivery.key

/-- The versions and types of the events of intent `id`, oldest first. -/
def Tables.logOf (t : Tables) (id : Id) : List (Nat × EventType) :=
  (t.events.filter fun e => e.intentId = id).map fun e => (e.version, e.eventType)

def statement (o : Oracle) (s : Statement) : Except IntentError Unit :=
  if o.fault = some s then .error (.database s) else .ok ()

/-- `transaction` (connection.ts:49). -/
def transaction {α : Type} (o : Oracle) (fn : Db → Except IntentError (α × Db)) :
    Db → Except IntentError α × Db :=
  atomically fun db => do
    statement o .connect
    statement o .begin
    let result ← fn db
    statement o .commit
    return result

/-- `query` (connection.ts:41): one statement on its own. -/
def query {α : Type} (o : Oracle) (fn : Db → Except IntentError (α × Db)) :
    Db → Except IntentError α × Db :=
  atomically fun db => do
    statement o .query
    fn db

/-- `create` (repository.ts:23). A merchant that does not exist violates the foreign key, a UUID
that is taken the primary key. -/
def create (o : Oracle) (data : NewPaymentIntent) : Db → Except IntentError PaymentIntent × Db :=
  transaction o fun db => do
    statement o .insertIntent
    let row : PaymentIntent :=
      { id := o.uuid, merchantId := data.merchantId, orderRef := data.orderRef
        targetAmount := decimal8 data.targetAmount, targetAsset := data.targetAsset
        targetChain := data.targetChain, acceptedAssets := data.acceptedAssets
        state := .created, version := 1, createdAt := o.now, updatedAt := o.now }
    let some _ := db.merchants.find? data.merchantId | throw (.database .insertIntent)
    let some intents := db.intents.insert? row | throw (.database .insertIntent)
    statement o .insertEvent
    let event : IntentEvent :=
      { intentId := o.uuid, eventType := .intentCreated, payload := data.toPayload, version := 1
        createdAt := o.now }
    return (mapRow row, { db with intents, events := db.events ++ [event] })

/-- `UPDATE payment_intents SET state, version, updated_at WHERE id AND version`. -/
def advance (o : Oracle) (current : PaymentIntent) (nextState : IntentState) : PaymentIntent → PaymentIntent :=
  fun row => { row with state := nextState, version := current.version + 1, updatedAt := o.now }

section
variable (o : Oracle) (current : PaymentIntent) (nextState : IntentState) (row : PaymentIntent)
@[simp] theorem advance_id : (advance o current nextState row).id = row.id := rfl
@[simp] theorem advance_state : (advance o current nextState row).state = nextState := rfl
@[simp] theorem advance_version : (advance o current nextState row).version = current.version + 1 := rfl
end

/-- `transition` (repository.ts:63). -/
def transition (o : Oracle) (id : Id) (eventType : EventType) (payload : Payload) :
    Db → Except IntentError PaymentIntent × Db :=
  transaction o fun db => do
    statement o .lockIntent
    let some locked := db.intents.find? id | throw (.rowNotFound id)
    let current := mapRow locked
    let nextState := getExpectedNextState eventType
    if !isValidTransition validTransitions current.state nextState then
      throw (.invalidTransition current.state nextState)
    statement o .updateIntent
    let guard := fun row : PaymentIntent => decide (row.id = id ∧ row.version = current.version)
    let result := db.intents.returning guard (advance o current nextState)
    let intents := db.intents.updateWhere guard (advance o current nextState) (advance_id o current nextState)
    let some updated := result.head? | throw (.concurrentModification id)
    statement o .insertEvent
    let event : IntentEvent :=
      { intentId := id, eventType, payload, version := current.version + 1, createdAt := o.now }
    return (mapRow updated, { db with intents, events := db.events ++ [event] })

/-- `findById` (repository.ts:119). -/
def findById (o : Oracle) (id : Id) : Db → Except IntentError (Option PaymentIntent) × Db :=
  query o fun db => return ((db.intents.find? id).map mapRow, db)

/-- `findExpiredIntents` (repository.ts:174). -/
def findExpiredIntents (o : Oracle) : Db → Except IntentError (List PaymentIntent) × Db :=
  query o fun db =>
    let expired := db.intents.rows.filter fun row =>
      [.quoted, .awaitingPayment].contains row.state && row.quoteExpiresAt.any (· < o.now)
    return (expired.map mapRow, db)

structure Deposit where
  address : String
  asset : String
  chain : String

/-- `SET quoted_rate, quote_expires_at, deposit_* = COALESCE(…)`. -/
def requote (o : Oracle) (quotedRate : ℚ) (quoteExpiresAt : Time) (deposit : Option Deposit) :
    PaymentIntent → PaymentIntent := fun row =>
  { row with
    quotedRate := some (decimal8 quotedRate)
    quoteExpiresAt := some quoteExpiresAt
    depositAddress := (deposit.map Deposit.address).or row.depositAddress
    depositAsset := (deposit.map Deposit.asset).or row.depositAsset
    depositChain := (deposit.map Deposit.chain).or row.depositChain
    updatedAt := o.now }

section
variable (o : Oracle) (quotedRate : ℚ) (quoteExpiresAt : Time) (deposit : Option Deposit) (row : PaymentIntent)
@[simp] theorem requote_id : (requote o quotedRate quoteExpiresAt deposit row).id = row.id := rfl
@[simp] theorem requote_state : (requote o quotedRate quoteExpiresAt deposit row).state = row.state := rfl
end

/-- `updateQuote` (repository.ts:218). -/
def updateQuote (o : Oracle) (id : Id) (quotedRate : ℚ) (quoteExpiresAt : Time)
    (deposit : Option Deposit) : Db → Except IntentError PaymentIntent × Db :=
  query o fun db => do
    let set := requote o quotedRate quoteExpiresAt deposit
    let result := db.intents.returning (fun row => row.id = id) set
    let some updated := result.head? | throw (.rowNotFound id)
    return (mapRow updated, { db with
      intents := db.intents.updateWhere (fun row => row.id = id) set
        (requote_id o quotedRate quoteExpiresAt deposit) })

/-! ## What the queries do -/

variable {o : Oracle} {db : Db} {id : Id}

theorem transaction_ok {α : Type} {fn : Db → Except IntentError (α × Db)} {x : α}
    (h : (transaction o fn db).1 = .ok x) : ∃ db', (transaction o fn db).2 = db' ∧ fn db = .ok (x, db') := by
  obtain ⟨db', hdb', hb⟩ := atomically_ok h
  simp only [bind_eq_ok] at hb
  obtain ⟨_, -, _, -, r, hr, _, -, he⟩ := hb
  cases he
  exact ⟨db', hdb', hr⟩

theorem query_ok {α : Type} {fn : Db → Except IntentError (α × Db)} {x : α}
    (h : (query o fn db).1 = .ok x) : ∃ db', (query o fn db).2 = db' ∧ fn db = .ok (x, db') := by
  obtain ⟨db', hdb', hb⟩ := atomically_ok h
  obtain ⟨_, -, hr⟩ := bind_eq_ok.1 hb
  exact ⟨db', hdb', hr⟩

theorem statement_error {s : Statement} {e : IntentError} (h : statement o s = .error e) :
    o.fault = some s ∧ e = .database s := by
  unfold statement at h
  split at h
  · rename_i hs
    cases h
    exact ⟨hs, rfl⟩
  · cases h

/-- A transaction fails by a rejected statement or by what its body throws. -/
theorem transaction_error {α : Type} {fn : Db → Except IntentError (α × Db)} {e : IntentError}
    (h : (transaction o fn db).1 = .error e) :
    (∃ s, o.fault = some s ∧ e = .database s) ∨ fn db = .error e := by
  have hb := error_of_atomically h
  simp only [bind_eq_error] at hb
  rcases hb with hb | ⟨_, -, hb | ⟨_, -, hb | ⟨r, -, hb | ⟨_, -, hb⟩⟩⟩⟩
  · exact .inl ⟨_, statement_error hb⟩
  · exact .inl ⟨_, statement_error hb⟩
  · exact .inr hb
  · exact .inl ⟨_, statement_error hb⟩
  · cases hb

theorem query_rejected {α : Type} {fn : Db → Except IntentError (α × Db)} {e : IntentError}
    (h : (query o fn db).1 = .error e) : (o.fault = some .query ∧ e = .database .query) ∨ fn db = .error e := by
  rcases bind_eq_error.1 (error_of_atomically h) with hs | ⟨_, -, hbody⟩
  · exact .inl (statement_error hs)
  · exact .inr hbody

/-- A query whose body cannot fail answers, unless it is rejected. -/
theorem query_return {α : Type} (f : Db → α × Db) :
    query o (fun db => return f db) db =
      if o.fault = some .query then (.error (.database .query), db) else (.ok (f db).1, (f db).2) := by
  unfold query atomically statement
  by_cases h : o.fault = some .query <;> simp [h, bind, Except.bind, pure, Except.pure]

theorem query_pure {α : Type} (f : Db → α) :
    query o (fun db => return (f db, db)) db =
      if o.fault = some .query then (.error (.database .query), db) else (.ok (f db), db) :=
  query_return fun db => (f db, db)

/-- A query that only reads leaves the database alone. -/
theorem query_read {α : Type} (f : Db → α) : (query o (fun db => return (f db, db)) db).2 = db := by
  rw [query_pure]
  split <;> rfl

end NexoraGateway.Intent
