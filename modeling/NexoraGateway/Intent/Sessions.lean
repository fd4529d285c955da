import NexoraGateway.Async.Atomicity
import NexoraGateway.Intent.Notifications

/-!
# The statements of a transaction (db/src/connection.ts:32-63, payment-intent.repository.ts:23-116)

A transaction is run statement by statement over a connection that it has for itself, and other tasks run in
between. `serve` is the database with its connections: what a transaction has written is its own until it commits,
a row that it has locked or written is locked until it ends (`Unblocked`: a statement on such a row waits), and a
rejected statement leaves it aborted. `create` and `transition` are the code of the repository over that, and
`transactions_serial` is why they are one step each everywhere else.

Which client `pool.connect` hands out is up to the pool, apart from those that are out. Its size is left out: a task
that waits for a client is one that is not chosen. A `COMMIT` that is rejected has not committed.
-/
namespace NexoraGateway.Intent.Sessions

open Async Store

abbrev Client := Nat

inductive Sql : Type where
  | begin | commit | rollback
  | insertIntent (row : PaymentIntent)
  | lockIntent (id : Id)
  | updateIntent (id : Id) (version : Nat) (state : IntentState) (newVersion : Nat) (now : Time)
  | insertEvent (event : IntentEvent)

namespace Sql

def Rows : Sql → Type
  | insertIntent _ | lockIntent _ | updateIntent .. => List PaymentIntent
  | _ => Unit

/-- What the rejection of a statement is told as: that of a `ROLLBACK` as the loss of the connection. -/
def statement : Sql → Statement
  | begin => .begin
  | commit => .commit
  | rollback => .connect
  | insertIntent _ => .insertIntent
  | lockIntent _ => .lockIntent
  | updateIntent .. => .updateIntent
  | insertEvent _ => .insertEvent

/-- `SET state = $1, version = $2, updated_at = $3`. -/
def set (state : IntentState) (newVersion : Nat) (now : Time) : PaymentIntent → PaymentIntent := fun row =>
  { row with state, version := newVersion, updatedAt := now }

theorem set_id (state : IntentState) (newVersion : Nat) (now : Time) (row : PaymentIntent) :
    (set state newVersion now row).id = row.id := rfl

/-- What a statement answers and writes, or `none` when a constraint refuses it. -/
def run : (q : Sql) → Db → Option (q.Rows × Db)
  | insertIntent row, db => do
    let _ ← db.merchants.find? row.merchantId
    let intents ← db.intents.insert? row
    return ([row], { db with intents })
  | lockIntent id, db => some ((db.intents.find? id).toList, db)
  | updateIntent id version state newVersion now, db =>
    let guard := fun row : PaymentIntent => decide (row.id = id ∧ row.version = version)
    let set := set state newVersion now
    some (db.intents.returning guard set,
      { db with intents := db.intents.updateWhere guard set (set_id state newVersion now) })
  | insertEvent event, db => do
    let _ ← db.intents.find? event.intentId
    return ((), { db with events := db.events ++ [event] })
  | begin, db | commit, db | rollback, db => some ((), db)

def inserts : Sql → Bool
  | insertIntent _ => true
  | _ => false

/-- The intent whose row a statement locks or writes. -/
def touches : Sql → Option Id
  | insertIntent row => some row.id
  | lockIntent id | updateIntent id .. => some id
  | _ => none

end Sql

/-- A transaction in progress: the intents whose rows it has locked, and its statements. -/
inductive Session where
  | active (locks : List Id) (done : List Sql)
  | aborted

def Session.locks : Session → List Id
  | active locks _ => locks
  | aborted => []

/-- The database as a transaction sees it after its statements. -/
def replay (done : List Sql) (db : Db) : Db := done.foldl (fun db q => (q.run db).elim db Prod.snd) db

/-- The database, the clients that are out, and their transactions. -/
structure Server where
  committed : Db
  clients : List Client
  sessions : Client → Option Session

namespace Server

def setSession (s : Server) (client : Client) (session : Option Session) : Server :=
  { s with sessions := Function.update s.sessions client session }

/-- The transaction of `client` has locked the row of intent `id`. -/
def Holds (s : Server) (client : Client) (id : Id) : Prop := ∃ session ∈ s.sessions client, id ∈ session.locks

instance (s : Server) (client : Client) (id : Id) : Decidable (s.Holds client id) :=
  inferInstanceAs (Decidable (∃ session ∈ s.sessions client, id ∈ session.locks))

/-- A rejected statement aborts the transaction, and a rejected end of it ends it. -/
def reject (s : Server) (client : Client) : Sql → Server
  | .begin => s
  | .commit | .rollback => s.setSession client none
  | _ => s.setSession client ((s.sessions client).map fun _ => .aborted)

/-- `client.query`. A `COMMIT` of an aborted transaction is answered as well, and rolls it back. -/
def answer (s : Server) (client : Client) : (q : Sql) → Except IntentError q.Rows × Server
  | .begin => (.ok (), s.setSession client (some ((s.sessions client).getD (.active [] []))))
  | .commit => match s.sessions client with
    | some (.active _ done) => (.ok (), { s.setSession client none with committed := replay done s.committed })
    | _ => (.ok (), s.setSession client none)
  | .rollback => (.ok (), s.setSession client none)
  | q => match s.sessions client with
    | none => match q.run s.committed with
      | none => (.error (.database q.statement), s)
      | some (rows, db) => (.ok rows, { s with committed := db })
    | some .aborted => (.error (.database q.statement), s)
    | some (.active locks done) => match q.run (replay done s.committed) with
      | none => (.error (.database q.statement), s.setSession client (some .aborted))
      | some (rows, db) =>
        let locked := q.touches.filter fun id => (db.intents.find? id).isSome
        (.ok rows, s.setSession client (some (.active (locks ++ locked.toList) (done ++ [q]))))

end Server

/-! ## The code over the statements -/

inductive Step : Type where
  | direct (a : Call)
  | generateId
  | clock
  | connect
  | query (client : Client) (q : Sql)
  | release (client : Client)

def Step.Ans : Step → Type
  | direct a => a.Ans
  | generateId => Id
  | clock => Time
  | connect => Client
  | query _ q => q.Rows
  | release _ => Unit

abbrev Reply (b : Step) : Type := Except IntentError b.Ans

/-- What one step meets: whether it is rejected, and the client that the pool hands out. -/
structure Turn extends Oracle where
  rejects : Bool := false
  client : Client := 0

def serve : Handler Step Reply Turn Server
  | .direct a, o, s =>
    ((handle a o.toOracle s.committed).1, { s with committed := (handle a o.toOracle s.committed).2 })
  | .generateId, o, s => (.ok o.uuid, s)
  | .clock, o, s => (.ok o.now, s)
  | .connect, o, s =>
    if o.rejects then (.error (.database .connect), s) else (.ok o.client, { s with clients := o.client :: s.clients })
  | .query client q, o, s =>
    if o.rejects then (.error (.database q.statement), s.reject client q) else s.answer client q
  | .release client, _, s => (.ok (), { s with clients := s.clients.erase client })

/-- The intent that a call on its own writes the quote of. -/
def quoted : Call → Option Id
  | .updateQuote id .. => some id
  | _ => none

/-- A statement on a row that another transaction has locked waits. A row that is not yet committed is not seen by
others, except that its key cannot be inserted a second time. -/
def Unblocked (s : Server) : Step → Turn → Prop
  | .direct a, o => o.fault ≠ some .query → ∀ id ∈ quoted a, (s.committed.intents.find? id).isSome = true →
    ∀ client ∈ s.clients, ¬ s.Holds client id
  | .connect, o => o.rejects = false → o.client ∉ s.clients
  | .query client q, o => o.rejects = false → ∀ id ∈ q.touches,
    (s.committed.intents.find? id).isSome = !q.inserts → ∀ other ∈ s.clients, s.Holds other id → other = client
  | _, _ => True

instance instDecidableUnblocked (s : Server) : (b : Step) → (o : Turn) → Decidable (Unblocked s b o)
  | .direct a, o => inferInstanceAs (Decidable (o.fault ≠ some .query → ∀ id ∈ quoted a,
      (s.committed.intents.find? id).isSome = true → ∀ client ∈ s.clients, ¬ s.Holds client id))
  | .connect, o => inferInstanceAs (Decidable (o.rejects = false → o.client ∉ s.clients))
  | .query client q, o => inferInstanceAs (Decidable (o.rejects = false → ∀ id ∈ q.touches,
      (s.committed.intents.find? id).isSome = !q.inserts → ∀ other ∈ s.clients, s.Holds other id → other = client))
  | .generateId, _ | .clock, _ | .release _, _ => inferInstanceAs (Decidable True)

abbrev Work := Prog Step Reply IntentError

def generateId : Work Id := Prog.await Step.generateId

/-- `new Date()`. -/
def clock : Work Time := Prog.await Step.clock

/-- `getClient` (connection.ts:32). -/
def getClient : Work Client := Prog.await Step.connect

def query (client : Client) (q : Sql) : Work q.Rows := Prog.await (Step.query client q)

def release (client : Client) : Work Unit := Prog.await (Step.release client)

/-- `transaction` (connection.ts:49). -/
def transaction {α : Type} (fn : Client → Work α) : Work α := do
  let client ← getClient
  let attempt : Work α := do
    query client .begin
    let result ← fn client
    query client .commit
    return result
  (attempt.tryCatch fun error => do
    query client .rollback
    throw error).tryFinally (release client)

/-- The `VALUES` of `create`. -/
def newRow (id : Id) (now : Time) (data : NewPaymentIntent) : PaymentIntent :=
  { id, merchantId := data.merchantId, orderRef := data.orderRef, targetAmount := decimal8 data.targetAmount
    targetAsset := data.targetAsset, targetChain := data.targetChain, acceptedAssets := data.acceptedAssets
    state := .created, version := 1, createdAt := now, updatedAt := now }

/-- `create` (payment-intent.repository.ts:23). Without a row, `mapRow` throws. -/
def create (data : NewPaymentIntent) : Work PaymentIntent := do
  let id ← generateId
  let now ← clock
  transaction fun client => do
    let result ← query client (.insertIntent (newRow id now data))
    let some row := List.head? result | throw (.database .insertIntent)
    query client (.insertEvent ⟨id, .intentCreated, data.toPayload, 1, now⟩)
    return mapRow row

/-- `transition` (payment-intent.repository.ts:63). -/
def transition (id : Id) (eventType : EventType) (payload : Payload) : Work PaymentIntent :=
  transaction fun client => do
    let locked ← query client (.lockIntent id)
    let some row := List.head? locked | throw (.rowNotFound id)
    let current := mapRow row
    let nextState := getExpectedNextState eventType
    if !isValidTransition validTransitions current.state nextState then
      throw (.invalidTransition current.state nextState)
    let newVersion := current.version + 1
    let now ← clock
    let result ← query client (.updateIntent id current.version nextState newVersion now)
    let some updated := List.head? result | throw (.concurrentModification id)
    query client (.insertEvent ⟨id, eventType, payload, newVersion, now⟩)
    return mapRow updated

/-- How a call is carried out. -/
def expand : (a : Call) → Work a.Ans
  | .create data => create data
  | .transition id eventType payload => transition id eventType payload
  | a => Prog.await (Step.direct a)

end NexoraGateway.Intent.Sessions
