import Mathlib.Data.Nat.Basic
import NexoraGateway.Evm.Cursor
import NexoraGateway.Worker.Confirmed
import NexoraGateway.Worker.Producers
import NexoraGateway.Worker.Watcher

/-!
# A transfer and its job (deposit-watcher.ts:111-235, evm-chain-client.ts:326-464)

A transfer is in memory only from its block's poll to its job: in the call of a listener, and in the `onDeposit`
that it starts, whose rejection is logged and forgotten. The cursor does not wait for it, and a start takes the
head of the chain for the cursor.

* `System` — a worker's watcher, its chain clients and its callbacks, on the database that it shares.
* `Heeds` — the condition on one step.
* `Sound` — the invariant: a transfer that the cursor has passed is recorded or being handled.
-/
namespace NexoraGateway.Worker

open Async Store
open Intent (PaymentIntent)

/-! ## The system -/

/-- `ORDER BY created_at ASC` (payment-intent.repository.ts:277). -/
def findAwaitingDeposits (db : Intent.Db) : List PaymentIntent :=
  let rows := db.intents.rows.filter fun row => row.depositAddress.isSome ∧ row.state ∈ Intent.acceptsDeposit
  (rows.insertionSort fun a b => a.createdAt ≤ b.createdAt).map Intent.mapRow

/-- What `onDeposit` reads of an event. -/
def observed (event : Evm.DepositEvent) : DepositEvent where
  txHash := event.txHash
  blockNumber := event.blockNumber
  «to» := event.to
  asset := ⟨event.asset.address, event.asset.symbol, event.asset.decimals⟩
  amount := event.amount

/-- A call of `onDeposit`: what it is called with, and the rest of it. -/
structure Callback where
  chainId : String
  event : DepositEvent
  rest : Task Unit

/-- The watcher, the clients by the chains, the database, the calls of `onDeposit`, and what else runs on the
database. -/
structure System where
  watcher : Watcher.Runtime := {}
  clients : String → Evm.Runtime Nat := Evm.fresh Nat
  db : Jobs.Db worker
  callbacks : List Callback := []
  others : List (Task Unit) := []

namespace System

/-- A call of the watcher on a client. -/
def call (clients : String → Evm.Runtime Nat) : Watcher.ClientCall → String → Evm.Runtime Nat
  | .watchDeposits chainId address id =>
    Function.update clients chainId (Evm.step (clients chainId) (.watchDeposits address id))
  | .unsubscribe chainId address id =>
    Function.update clients chainId (Evm.step (clients chainId) (.unsubscribe address id))

variable (config : WorkerConfig)

/-- A step of the watcher, whose calls the clients are told. -/
def watch (s : System) (x : Watcher.Step) : System :=
  let watcher := Watcher.step config.chains s.watcher x
  { s with watcher, clients := (watcher.calls.drop s.watcher.calls.length).foldl call s.clients }

/-- `onDeposit` is called, and its rejection logged. -/
def callback (chainId : String) (event : DepositEvent) : Callback :=
  ⟨chainId, event, logged (onDeposit (queueOptions config) chainId event)⟩

/-- A step of one chain's client, whose listeners are those of the watcher. -/
def advance (s : System) (chainId : String) (x : Evm.Step Nat) : System :=
  let client := Evm.step (s.clients chainId) x
  let told := client.delivered.drop (s.clients chainId).delivered.length
  { s with
    clients := Function.update s.clients chainId client
    callbacks := s.callbacks ++ told.map fun d => callback config chainId (observed d.event) }

/-- Callback `i` makes the call that it waits on. -/
def resume (s : System) (i : Nat) (o : Jobs.Oracle worker) : System :=
  match s.callbacks[i]? with
  | some ⟨chainId, event, .call a k⟩ =>
    { s with
      db := (Jobs.handle a o s.db).2
      callbacks := s.callbacks.set i ⟨chainId, event, k (Jobs.handle a o s.db).1⟩ }
  | _ => s

/-- Something else goes on. -/
def beside (s : System) (c : Choice (Jobs.Call worker) Jobs.Answer Jobs.JsError Unit (Jobs.Oracle worker)) : System :=
  let w : Jobs.Queue worker := Pool.next Jobs.handle ⟨s.db, s.others⟩ c
  { s with db := w.store, others := w.tasks }

/-- The worker's process ends, and another begins. -/
def restart (s : System) : System := { db := s.db, others := s.others }

/-- The watcher is started or stopped, its interval's callback is run, or its refresh `i` is answered; a client's
start, its interval's callback, or an answer to its poll `i`; callback `i` goes on, or something else does; and a
restart. -/
inductive Step where
  | start
  | stop
  | refresh (timer : Nat)
  | refreshed (i : Nat) (rejects : Bool)
  | started (chainId : String) (head : Option Nat)
  | poll (chainId : String) (timer : Nat)
  | answered (chainId : String) (i : Nat) (answer : Evm.Answer)
  | callback (i : Nat) (o : Jobs.Oracle worker)
  | beside (c : Choice (Jobs.Call worker) Jobs.Answer Jobs.JsError Unit (Jobs.Oracle worker))
  | restart

def step (s : System) : Step → System
  | .start => s.watch config .start
  | .stop => s.watch config .stop
  | .refresh timer => s.watch config (.tick timer)
  | .refreshed i rejects =>
    s.watch config (.resumed i (if rejects then none else some (findAwaitingDeposits s.db.outer.intents)))
  | .started chainId head => s.advance config chainId (.started head)
  | .poll chainId timer => s.advance config chainId (.tick timer)
  | .answered chainId i answer => s.advance config chainId (.answered i answer)
  | .callback i o => s.resume i o
  | .beside c => s.beside c
  | .restart => s.restart

end System

/-- What else runs on the database: queue loops and sweeps of any worker, callbacks of other workers, and anything
that makes no statement of the queue. Amounts are base units, in decimal. -/
inductive Beside : Task Unit → Prop
  | loop (options : Jobs.JobQueueOptions) (queueName : String) (n : Nat) :
      Beside (logged (Jobs.run options jobHandlers queueName n))
  | deposit (options : Jobs.JobQueueOptions) (chainId : String) (event : DepositEvent) (amount : Nat)
    (hamount : event.amount = toString amount) : Beside (logged (onDeposit options chainId event))
  | sweep (options : Jobs.JobQueueOptions) (chains : List ChainClient) (batchSize : Option Nat) :
      Beside (logged (do let _ ← sweep options chains batchSize))
  | other (p : Routine Unit) : Beside (Jobs.within none p)

/-! ## The keys -/

section
variable {chainId : String} {event : DepositEvent}

theorem depositIdempotencyKey_eq :
    ∃ start : String, depositIdempotencyKey chainId event = "deposit:" ++ (start ++ event.amount) := by
  refine ⟨chainId ++ ":" ++ event.txHash.toLower ++ ":" ++ event.to.toLower ++ ":" ++
    event.asset.address.toLower ++ ":", ?_⟩
  simp only [depositIdempotencyKey, String.intercalate_cons_cons, String.intercalate_singleton, String.append_assoc]
  rfl

theorem toString_last (amount : Nat) : ∃ c, (toString amount).toList.getLast? = some c ∧ c.isDigit = true := by
  have hdigits : (toString amount).toList = Nat.toDigits 10 amount := by simp [Nat.toString_eq_repr]
  have hne : Nat.toDigits 10 amount ≠ [] := by simp
  rw [hdigits]
  refine ⟨_, List.getLast?_eq_some_getLast hne, ?_⟩
  exact Nat.isDigit_of_mem_toDigits (by decide) (by decide) (List.getLast_mem hne)

/-- The key of a transfer ends in a digit. -/
theorem depositIdempotencyKey_ne {amount : Nat} (hamount : event.amount = toString amount) (key : String) :
    depositIdempotencyKey chainId event ≠ key ++ ":unattributed" := by
  intro h
  obtain ⟨start, hstart⟩ := @depositIdempotencyKey_eq chainId event
  obtain ⟨c, hlast, hdigit⟩ := toString_last amount
  rw [hstart, hamount] at h
  have hsame := congrArg (fun s : String => s.toList.getLast?) h
  have hend : ":unattributed".toList.getLast? = some 'd' := by decide
  simp only [String.toList_append, List.getLast?_append, hlast, hend] at hsame
  obtain rfl : c = 'd' := Option.some.inj hsame
  exact absurd hdigit (by decide)

theorem confirmKey_ne (chainId' txHash suffix : String) :
    "confirm:" ++ chainId' ++ ":" ++ txHash ≠ depositIdempotencyKey chainId event ++ suffix := by
  intro h
  obtain ⟨start, hstart⟩ := @depositIdempotencyKey_eq chainId event
  rw [hstart] at h
  have hsame := congrArg (fun s : String => s.toList.head?) h
  have hdeposit : "deposit:".toList.head? = some 'd' := by decide
  have hconfirm : "confirm:".toList.head? = some 'c' := by decide
  simp only [String.toList_append, List.head?_append, hdeposit, hconfirm] at hsame
  exact absurd (Option.some.inj hsame) (by decide)

end

/-- A job under the key of a transfer, or under that of its other job, is of the type that goes with it. -/
def Paired (key jobType key' : String) : Prop :=
  (key' = key → jobType = jobDepositRecord) ∧ (key' = key ++ ":unattributed" → jobType = jobDepositUnattributed)

/-- The key is that of a transfer of some base units. -/
def IsKey (key : String) : Prop :=
  ∃ (chainId : String) (event : DepositEvent) (amount : Nat),
    event.amount = toString amount ∧ key = depositIdempotencyKey chainId event

section
variable {key : String} (hkey : IsKey key)
include hkey

theorem deposit_paired {chainId : String} {event : DepositEvent} {amount : Nat}
    (hamount : event.amount = toString amount) (intent : Option PaymentIntent) :
    Paired key (depositJob chainId event intent).1 (depositJob chainId event intent).2 := by
  obtain ⟨chainId', event', amount', hamount', rfl⟩ := hkey
  cases intent with
  | none => exact ⟨fun h => absurd h.symm (depositIdempotencyKey_ne hamount' _), fun _ => rfl⟩
  | some intent => exact ⟨fun _ => rfl, fun h => absurd h (depositIdempotencyKey_ne hamount _)⟩

theorem beside_paired {p : Task Unit} (hp : Beside p) : EnqueuesOnly (Paired key) p := by
  cases hp with
  | loop options queueName n => exact logged_enqueues (loop_enqueues options jobHandlers queueName n)
  | deposit options chainId event amount hamount =>
    exact logged_enqueues (onDeposit_enqueues options (deposit_paired hkey hamount))
  | sweep options chains batchSize =>
    obtain ⟨chainId, event, amount, -, rfl⟩ := hkey
    refine logged_enqueues (Prog.Only.bind (sweep_enqueues options chains batchSize fun chainId' txHash => ?_) fun _ =>
      Prog.Only.ret _)
    refine ⟨fun h => ?_, fun h => absurd h (confirmKey_ne chainId' txHash _)⟩
    have hempty : depositIdempotencyKey chainId event = depositIdempotencyKey chainId event ++ "" := by simp
    exact absurd (h.trans hempty) (confirmKey_ne chainId' txHash "")
  | other p => exact within_enqueues none p

end

/-! ## What handles a transfer -/

/-- The callback waits for the answer to a call. -/
def Callback.Waits (c : Callback) : Prop :=
  match c.rest with
  | .call .. => True
  | _ => False

instance : DecidablePred Callback.Waits
  | ⟨_, _, .call ..⟩ => isTrue trivial
  | ⟨_, _, .ret _⟩ | ⟨_, _, .throw _⟩ => isFalse id

section
variable (key : String)

/-- The callback is for the transfer and has not ended. -/
def Handles (c : Callback) : Prop := depositIdempotencyKey c.chainId c.event = key ∧ c.Waits

instance : DecidablePred (Handles key) := fun _ => inferInstanceAs (Decidable (_ ∧ _))

def Recorded (db : Jobs.Db worker) : Prop := ∃ row ∈ db.jobs.rows, OfTransfer key row

instance : DecidablePred (Recorded key) := fun _ => inferInstanceAs (Decidable (∃ row ∈ _, _))

/-- The transfer has its job, or a callback is on the way to it. -/
def Handled (s : System) : Prop := Recorded key s.db ∨ ∃ c ∈ s.callbacks, Handles key c

instance : DecidablePred (Handled key) := fun _ => inferInstanceAs (Decidable (_ ∨ ∃ c ∈ _, _))

end

/-- The call that the callback waits on is answered with an error, and nothing is inserted. -/
def Fails (c : Callback) (o : Jobs.Oracle worker) (db : Jobs.Db worker) : Prop :=
  match c.rest with
  | .call a _ => (Jobs.handle a o db).1.isOk = false ∧
      (Jobs.handle a o db).2.jobs.rows.map Jobs.Job.id = db.jobs.rows.map Jobs.Job.id
  | _ => False

instance : (c : Callback) → (o : Jobs.Oracle worker) → (db : Jobs.Db worker) → Decidable (Fails c o db)
  | ⟨_, _, .call a _⟩, o, db => inferInstanceAs (Decidable ((Jobs.handle a o db).1.isOk = false ∧
      (Jobs.handle a o db).2.jobs.rows.map Jobs.Job.id = db.jobs.rows.map Jobs.Job.id))
  | ⟨_, _, .ret _⟩, _, _ | ⟨_, _, .throw _⟩, _, _ => isFalse id

/-- Somebody listens for the address. -/
def Heard (watched : Dict String (List Nat)) (address : String) : Prop :=
  ∃ entry ∈ watched.rows, entry.1 = address ∧ entry.2 ≠ []

instance (watched : Dict String (List Nat)) (address : String) : Decidable (Heard watched address) :=
  inferInstanceAs (Decidable (∃ entry ∈ _, _))

/-- What is paid in block `n` of a chain: the key that the event has when it is told. -/
def paymentKey (chainId : String) (n : Nat) (entry : Evm.Transaction × Evm.Receipt) (address : String)
    (payment : Evm.Payment) : String :=
  depositIdempotencyKey chainId (observed (payment.event chainId n n entry address))

section
variable (chain : Evm.Chain) (chainId address : String) (n : Nat) (key : String)

/-- A step at which a transfer to the address in block `n`, under the key, is not lost, if it has not been handled
before. A poll is answered honestly, and somebody listens while it is at the block; a start takes no head at or
beyond the block; and no callback of the transfer fails but with its job there or another callback under way. -/
def Heeds (s : System) : System.Step → Prop
  | .answered chainId' i answer => chainId' = chainId → Handled key s ∨
      ∀ poll ∈ (s.clients chainId).polls[i]?, Evm.Honest chain address poll answer ∧
        (poll.blockNum? = some n → Heard (s.clients chainId).watchedAddresses address)
  | .started chainId' (some head) => chainId' = chainId → (s.clients chainId).starting ≠ 0 → n ≤ head → Handled key s
  | .callback i o => ∀ c ∈ s.callbacks[i]?, Handles key c → Fails c o s.db →
      Recorded key s.db ∨ ∃ c' ∈ s.callbacks.eraseIdx i, Handles key c'
  | _ => True

instance (s : System) : (x : System.Step) → Decidable (Heeds chain chainId address n key s x)
  | .answered chainId' i answer => inferInstanceAs (Decidable (chainId' = chainId → Handled key s ∨
      ∀ poll ∈ (s.clients chainId).polls[i]?, Evm.Honest chain address poll answer ∧
        (poll.blockNum? = some n → Heard (s.clients chainId).watchedAddresses address)))
  | .started chainId' (some head) => inferInstanceAs (Decidable
      (chainId' = chainId → (s.clients chainId).starting ≠ 0 → n ≤ head → Handled key s))
  | .callback i o => inferInstanceAs (Decidable (∀ c ∈ s.callbacks[i]?, Handles key c → Fails c o s.db →
      Recorded key s.db ∨ ∃ c' ∈ s.callbacks.eraseIdx i, Handles key c'))
  | .start | .stop | .refresh _ | .refreshed .. | .started _ none | .poll .. | .beside _ | .restart =>
    inferInstanceAs (Decidable True)

end

/-! ## One step -/

/-- An `INSERT` fails without effect, or a row has its key afterwards. -/
theorem enqueue_fails_or (queue jobType : String) (payload : Payload) (key : String) (maxAttempts delayMs : Int)
    (o : Jobs.Oracle worker) (db : Jobs.Db worker) :
    let r := Jobs.handle (Jobs.Call.enqueue queue jobType payload key maxAttempts delayMs) o db
    r.1.isOk = false ∧ r.2.jobs.rows.map Jobs.Job.id = db.jobs.rows.map Jobs.Job.id ∨
      ∃ row ∈ r.2.jobs.rows, row.idempotencyKey = key := by
  simp only [Jobs.handle, Jobs.execute, Jobs.enqueue]
  split
  · rename_i htaken
    have hrow : ∃ row ∈ db.jobs.rows, row.idempotencyKey = key := by simpa using htaken
    exact .inr (request_rule (P := fun t : Jobs.Db worker => ∃ row ∈ (t.tick o).jobs.rows, row.idempotencyKey = key)
      hrow hrow)
  · split
    · exact .inl ⟨rfl, rfl⟩
    · rename_i jobs hins
      have hrow : ∃ row ∈ jobs.rows, row.idempotencyKey = key := by
        rw [Table.rows_insert? hins]
        exact ⟨_, List.mem_append_right _ (List.mem_singleton_self _), rfl⟩
      cases hrejects : o.rejects with
      | none => exact .inr hrow
      | some e =>
        cases hlost : o.lost with
        | false => exact .inl ⟨rfl, rfl⟩
        | true => exact .inr hrow

section
variable (options : Jobs.JobQueueOptions)

/-- Where a call of `onDeposit` can be. -/
inductive Handling (chainId : String) (event : DepositEvent) : Task Unit → Prop
  | delivered : Handling chainId event (logged (onDeposit options chainId event))
  | lookedUp (intent : Option PaymentIntent) :
      Handling chainId event (logged (enqueueDeposit options chainId event intent))
  | ended : Handling chainId event (.ret ())

variable {options} {chainId : String} {event : DepositEvent}

/-- **One call of a callback**: it is on its way still, or the call has failed, or the job is there. -/
theorem Handling.call {a : Jobs.Call worker} {k : Jobs.Answer a → Task Unit}
    (h : Handling options chainId event (.call a k)) (o : Jobs.Oracle worker) (db : Jobs.Db worker) :
    let r := Jobs.handle a o db
    Handling options chainId event (k r.1) ∧
      (Callback.Waits ⟨chainId, event, k r.1⟩ ∨ Fails ⟨chainId, event, .call a k⟩ o db ∨
        ∃ row ∈ r.2.jobs.rows, row.idempotencyKey = depositIdempotencyKey chainId event ∨
          row.idempotencyKey = depositIdempotencyKey chainId event ++ ":unattributed") := by
  intro r
  generalize hp : Prog.call a k = p at h
  cases h with
  | delivered =>
    cases hp
    cases hr : r.1 with
    | error e =>
      refine ⟨.ended, .inr (.inl ⟨?_, rfl⟩)⟩
      change r.1.isOk = false
      rw [hr]
      rfl
    | ok intent =>
      refine ⟨.lookedUp intent, .inl ?_⟩
      cases intent <;> trivial
  | lookedUp intent =>
    have hended (r : Jobs.Answer a) : k r = .ret () := by
      cases intent <;> cases hp <;> cases r <;> rfl
    rw [hended]
    refine ⟨.ended, .inr ?_⟩
    cases intent with
    | none =>
      cases hp
      rcases enqueue_fails_or _ _ _ _ _ _ o db with hfails | ⟨row, hrow, hkey⟩
      · exact .inl hfails
      · exact .inr ⟨row, hrow, .inr hkey⟩
    | some intent =>
      cases hp
      rcases enqueue_fails_or _ _ _ _ _ _ o db with hfails | ⟨row, hrow, hkey⟩
      · exact .inl hfails
      · exact .inr ⟨row, hrow, .inl hkey⟩
  | ended => cases hp

end

section
variable (config : WorkerConfig) (chainId address : String) (n : Nat) (entry : Evm.Transaction × Evm.Receipt)
  (payment : Evm.Payment)

/-- A transfer that the cursor or a poll has passed is handled. -/
structure Sound (s : System) : Prop where
  covers : Evm.Covers n entry.1.hash payment (Handled (paymentKey chainId n entry address payment) s)
    (s.clients chainId)
  chainId_eq : (s.clients chainId).chainId = chainId
  jobs : ∀ row ∈ s.db.jobs.rows, Paired (paymentKey chainId n entry address payment) row.jobType row.idempotencyKey
  callbacks : ∀ c ∈ s.callbacks, (∃ amount : Nat, c.event.amount = toString amount) ∧
    Handling (queueOptions config) c.chainId c.event c.rest
  others : ∀ p ∈ s.others, EnqueuesOnly (Paired (paymentKey chainId n entry address payment)) p

end

/-- A client's events have amounts in decimal. -/
theorem resume_amount {L : Type} {client : Evm.EVMChainClient L} {poll : Evm.Poll} {answer : Evm.Answer}
    {d : Evm.Delivery L} (hd : d ∈ (Evm.resume client poll answer).2) :
    ∃ amount : Nat, d.event.amount = toString amount := by
  have hlogs {current blockNum : Nat} {txHash : String} {logs : List Evm.Log}
      (h : d ∈ (Evm.tellLogs client.watchedAddresses current blockNum txHash logs).1) :
      ∃ amount : Nat, d.event.amount = toString amount := by
    obtain ⟨-, -, log, -, sender, amount, -, -, -, -, hevent⟩ := Evm.tellLogs_sound h
    exact ⟨amount, by rw [hevent]; rfl⟩
  unfold Evm.resume at hd
  split at hd
  · split at hd <;> exact absurd hd List.not_mem_nil
  · exact absurd hd List.not_mem_nil
  · exact absurd hd List.not_mem_nil
  · exact absurd hd List.not_mem_nil
  · rename_i tx
    obtain ⟨-, -, hevent⟩ := Evm.mem_tell.1 hd
    exact ⟨tx.value, by rw [hevent]; rfl⟩
  · exact absurd hd List.not_mem_nil
  · split at hd
    · rename_i told htold
      exact hlogs (by rw [htold]; exact hd)
    · rename_i told htold
      exact hlogs (by rw [htold]; exact hd)
  · exact absurd hd List.not_mem_nil
  · exact absurd hd List.not_mem_nil

/-- What a client's step adds to the calls of its listeners. -/
theorem step_told (r : Evm.Runtime Nat) (x : Evm.Step Nat) : ∃ told,
    (Evm.step r x).delivered = r.delivered ++ told ∧
      ∀ d ∈ told, ∃ amount : Nat, d.event.amount = toString amount := by
  have hnone (hx : ∀ i answer, x ≠ .answered i answer) : ∃ told, (Evm.step r x).delivered = r.delivered ++ told ∧
      ∀ d ∈ told, ∃ amount : Nat, d.event.amount = toString amount :=
    ⟨[], by rw [Evm.step_delivered r hx, List.append_nil], fun _ h => absurd h List.not_mem_nil⟩
  cases x with
  | answered i answer =>
    have hresumed := Evm.answered_resumed i answer r
    change ∃ told, (Evm.answered i answer r).delivered = r.delivered ++ told ∧ _
    generalize Evm.answered i answer r = r' at hresumed
    cases hresumed with
    | idle => exact ⟨[], (List.append_nil _).symm, fun _ h => absurd h List.not_mem_nil⟩
    | waits hi hresume | polled hi hresume | ended hi hresume =>
      exact ⟨_, rfl, fun d hd => resume_amount (by rw [hresume]; exact hd)⟩
  | watchDeposits | unsubscribe | destroy | started | tick => exact hnone fun _ _ => nofun

section
variable {key : String} {s s' : System}

theorem Handled.mono (h : Handled key s) (hdb : Recorded key s.db → Recorded key s'.db)
    (hcallbacks : ∀ c ∈ s.callbacks, Handles key c → Handled key s') : Handled key s' := by
  rcases h with h | ⟨c, hc, hhandles⟩
  · exact .inl (hdb h)
  · exact hcallbacks c hc hhandles

/-- A job stays. -/
theorem Recorded.handle {db : Jobs.Db worker} (h : Recorded key db) (a : Jobs.Call worker) (o : Jobs.Oracle worker) :
    Recorded key (Jobs.handle a o db).2 := by
  obtain ⟨row, hrow, hof⟩ := h
  obtain ⟨row', hrow', heff⟩ := (Jobs.handle_effect a o db).row hrow
  obtain ⟨-, -, htype, -, hkey, -⟩ := heff.kept
  refine ⟨row', hrow', ?_⟩
  rw [OfTransfer, htype, hkey]
  exact hof

end

section
variable {config : WorkerConfig} {chain : Evm.Chain} {chainId address : String} {n : Nat}
  {entry : Evm.Transaction × Evm.Receipt} {payment : Evm.Payment} {s : System}

theorem payment_amount (hpays : Evm.Pays address entry payment) (current : Nat) :
    ∃ amount : Nat, (observed (payment.event chainId current n entry address)).amount = toString amount := by
  cases payment with
  | ether => exact ⟨entry.1.value, rfl⟩
  | token log sender amount => exact ⟨amount, rfl⟩

theorem paymentKey_isKey (hpays : Evm.Pays address entry payment) :
    IsKey (paymentKey chainId n entry address payment) := by
  obtain ⟨amount, hamount⟩ := @payment_amount chainId address n entry payment hpays n
  exact ⟨chainId, _, amount, hamount, rfl⟩

/-- The head that a poll is on its way to is not in the key. -/
theorem key_current (current : Nat) :
    depositIdempotencyKey chainId (observed (payment.event chainId current n entry address)) =
      paymentKey chainId n entry address payment := by
  cases payment <;> rfl

theorem callback_handles (config : WorkerConfig) (current : Nat) :
    Handles (paymentKey chainId n entry address payment)
      (System.callback config chainId (observed (payment.event chainId current n entry address))) :=
  ⟨key_current current, trivial⟩

theorem Handling.paired {key : String} (hkey : IsKey key) {options : Jobs.JobQueueOptions} {event : DepositEvent}
    {amount : Nat} (hamount : event.amount = toString amount) {p : Task Unit}
    (h : Handling options chainId event p) : EnqueuesOnly (Paired key) p := by
  have hpaired (intent : Option PaymentIntent) :=
    @deposit_paired key hkey chainId event amount hamount intent
  cases h with
  | delivered => exact logged_enqueues (onDeposit_enqueues _ hpaired)
  | lookedUp intent => exact logged_enqueues (enqueueDeposit_enqueues _ (hpaired intent))
  | ended => exact Prog.Only.ret ()

/-- The watcher only adds and deletes listeners. -/
theorem watch_sound (h : Sound config chainId address n entry payment s) (x : Watcher.Step) :
    Sound config chainId address n entry payment (s.watch config x) := by
  have hcall (clients : String → Evm.Runtime Nat) (y : Watcher.ClientCall)
      (hclients : Evm.Covers n entry.1.hash payment (Handled (paymentKey chainId n entry address payment) s)
        (clients chainId) ∧ (clients chainId).chainId = chainId) :
      Evm.Covers n entry.1.hash payment (Handled (paymentKey chainId n entry address payment) s)
        (System.call clients y chainId) ∧ (System.call clients y chainId).chainId = chainId := by
    have hupdate (chainId' : String) (z : Evm.Step Nat) (hz : ∀ i answer, z ≠ .answered i answer)
        (hstart : ∀ head, z ≠ .started (some head)) :
        Evm.Covers n entry.1.hash payment (Handled (paymentKey chainId n entry address payment) s)
          (Function.update clients chainId' (Evm.step (clients chainId') z) chainId) ∧
        (Function.update clients chainId' (Evm.step (clients chainId') z) chainId).chainId = chainId := by
      by_cases hchain : chainId' = chainId
      · subst hchain
        rw [Function.update_self]
        exact ⟨Evm.step_covers hclients.1 hz fun head hhead => absurd hhead (hstart head),
          (Evm.step_chainId _ z).trans hclients.2⟩
      · rw [Function.update_of_ne (Ne.symm hchain)]
        exact hclients
    cases y with
    | watchDeposits chainId' address' id => exact hupdate chainId' _ (fun _ _ => nofun) fun _ => nofun
    | unsubscribe chainId' address' id => exact hupdate chainId' _ (fun _ _ => nofun) fun _ => nofun
  have hclients := Runs.exec_inv' hcall ⟨h.covers, h.chainId_eq⟩
    ((Watcher.step config.chains s.watcher x).calls.drop s.watcher.calls.length)
  exact ⟨hclients.1, hclients.2, h.jobs, h.callbacks, h.others⟩

theorem exists_listener {r : Evm.Runtime Nat} {i : Nat}
    (h : ∀ poll ∈ r.polls[i]?, poll.blockNum? = some n → Heard r.watchedAddresses address) :
    ∃ listener, ∀ poll ∈ r.polls[i]?, poll.blockNum? = some n → Evm.Listens r.watchedAddresses address listener := by
  by_cases hheard : Heard r.watchedAddresses address
  · obtain ⟨⟨_, listeners⟩, hentry, rfl, hne⟩ := hheard
    obtain ⟨listener, hlistener⟩ := List.exists_mem_of_ne_nil listeners hne
    exact ⟨listener, fun _ _ _ => ⟨listeners, hentry, hlistener⟩⟩
  · exact ⟨0, fun poll hpoll hn => absurd (h poll hpoll hn) hheard⟩

/-- A client's step starts a callback for each call of a listener. -/
theorem advance_callbacks (config : WorkerConfig) (s : System) (chainId : String) (x : Evm.Step Nat) : ∃ told,
    (Evm.step (s.clients chainId) x).delivered = (s.clients chainId).delivered ++ told ∧
      (∀ d ∈ told, ∃ amount : Nat, d.event.amount = toString amount) ∧
      (s.advance config chainId x).callbacks =
        s.callbacks ++ told.map fun d => System.callback config chainId (observed d.event) := by
  obtain ⟨told, htold, hamounts⟩ := step_told (s.clients chainId) x
  refine ⟨told, htold, hamounts, ?_⟩
  simp only [System.advance, htold, List.drop_left]

theorem Handled.advance {key : String} (h : Handled key s) (config : WorkerConfig) (chainId : String)
    (x : Evm.Step Nat) : Handled key (s.advance config chainId x) := by
  obtain ⟨told, -, -, hcallbacks⟩ := advance_callbacks config s chainId x
  refine h.mono id fun c hc hhandles => .inr ⟨c, ?_, hhandles⟩
  rw [hcallbacks]
  exact List.mem_append_left _ hc

/-- What a client tells is handled from then on. -/
theorem step_handled (h : Sound config chainId address n entry payment s) (hentry : entry ∈ (chain n).rows)
    (hpays : Evm.Pays address entry payment) {x : Evm.Step Nat}
    (hanswered : ∀ i answer, x = .answered i answer → Handled (paymentKey chainId n entry address payment) s ∨
      ∀ poll ∈ (s.clients chainId).polls[i]?, Evm.Honest chain address poll answer ∧
        (poll.blockNum? = some n → Heard (s.clients chainId).watchedAddresses address))
    (hstart : ∀ head, x = .started (some head) → (s.clients chainId).starting ≠ 0 → n ≤ head →
      Handled (paymentKey chainId n entry address payment) s) :
    Evm.Covers n entry.1.hash payment
      (Handled (paymentKey chainId n entry address payment) (s.advance config chainId x))
      (Evm.step (s.clients chainId) x) := by
  have hmono (hhandled : Handled (paymentKey chainId n entry address payment) s) := hhandled.advance config chainId x
  by_cases hhandled : Handled (paymentKey chainId n entry address payment) s
  · exact ⟨fun _ => hmono hhandled, fun _ _ _ => hmono hhandled⟩
  · cases x with
    | answered i answer =>
      have hheeds := (hanswered i answer rfl).resolve_left hhandled
      obtain ⟨listener, hlistens⟩ := exists_listener fun poll hpoll => (hheeds poll hpoll).2
      obtain ⟨told, htold, -, hcallbacks⟩ := advance_callbacks config s chainId (.answered i answer)
      obtain ⟨told', htold', hcovers⟩ :=
        Evm.answered_covers h.covers hentry hpays (fun poll hpoll => (hheeds poll hpoll).1) hlistens
      obtain rfl : told = told' := List.append_cancel_left (htold.symm.trans htold')
      refine hcovers.imp fun hor => ?_
      rcases hor with hhandled | ⟨current, hmem⟩
      · exact hmono hhandled
      · rw [h.chainId_eq] at hmem
        have hnew : System.callback config chainId (observed (payment.event chainId current n entry address)) ∈
            told.map fun d => System.callback config chainId (observed d.event) :=
          List.mem_map.2 ⟨_, hmem, rfl⟩
        refine .inr ⟨_, ?_, callback_handles config current⟩
        rw [hcallbacks]
        exact List.mem_append_right _ hnew
    | started head =>
      by_cases hzero : (s.clients chainId).starting = 0
      · have hidle : Evm.step (s.clients chainId) (.started head) = s.clients chainId := if_pos hzero
        rw [hidle]
        exact h.covers.imp hmono
      · refine (Evm.step_covers h.covers ?_ ?_).imp hmono
        · exact fun _ _ => nofun
        · exact fun head' hhead hle => hstart head' hhead hzero hle
    | watchDeposits | unsubscribe | destroy | tick =>
      refine (Evm.step_covers h.covers ?_ ?_).imp hmono
      · exact fun _ _ => nofun
      · exact fun _ => nofun

/-- A client's step. -/
theorem advance_sound (h : Sound config chainId address n entry payment s) (hentry : entry ∈ (chain n).rows)
    (hpays : Evm.Pays address entry payment) (chainId' : String) {x : Evm.Step Nat}
    (hanswered : ∀ i answer, x = .answered i answer → chainId' = chainId →
      Handled (paymentKey chainId n entry address payment) s ∨
        ∀ poll ∈ (s.clients chainId).polls[i]?, Evm.Honest chain address poll answer ∧
          (poll.blockNum? = some n → Heard (s.clients chainId).watchedAddresses address))
    (hstart : ∀ head, x = .started (some head) → chainId' = chainId → (s.clients chainId).starting ≠ 0 → n ≤ head →
      Handled (paymentKey chainId n entry address payment) s) :
    Sound config chainId address n entry payment (s.advance config chainId' x) := by
  have hclient : Evm.Covers n entry.1.hash payment
      (Handled (paymentKey chainId n entry address payment) (s.advance config chainId' x))
      ((s.advance config chainId' x).clients chainId) ∧
      ((s.advance config chainId' x).clients chainId).chainId = chainId := by
    by_cases hchain : chainId' = chainId
    · subst hchain
      have hself : (s.advance config chainId' x).clients chainId' = Evm.step (s.clients chainId') x :=
        Function.update_self ..
      rw [hself]
      exact ⟨step_handled h hentry hpays (fun i answer hx => hanswered i answer hx rfl)
        fun head hx => hstart head hx rfl, (Evm.step_chainId _ x).trans h.chainId_eq⟩
    · have hother : (s.advance config chainId' x).clients chainId = s.clients chainId :=
        Function.update_of_ne (Ne.symm hchain) ..
      rw [hother]
      exact ⟨h.covers.imp fun hhandled => hhandled.advance config chainId' x, h.chainId_eq⟩
  refine ⟨hclient.1, hclient.2, h.jobs, fun c hc => ?_, h.others⟩
  obtain ⟨told, -, hamounts, hcallbacks⟩ := advance_callbacks config s chainId' x
  rw [hcallbacks] at hc
  rcases List.mem_append.1 hc with hc | hc
  · exact h.callbacks c hc
  · obtain ⟨d, hd, rfl⟩ := List.mem_map.1 hc
    exact ⟨hamounts d hd, .delivered⟩

theorem mem_eraseIdx_or {X : Type} {xs : List X} {i : Nat} {x y : X} (hi : xs[i]? = some x) (hy : y ∈ xs) :
    y = x ∨ y ∈ xs.eraseIdx i := by
  obtain ⟨j, hj⟩ := List.mem_iff_getElem?.1 hy
  by_cases hij : j = i
  · subst hij
    exact .inl (Option.some.inj (hj.symm.trans hi))
  · exact .inr (List.mem_eraseIdx_iff_getElem?.2 ⟨j, hij, hj⟩)

theorem mem_set_of_mem_eraseIdx {X : Type} {xs : List X} {i : Nat} (x : X) {y : X} (hy : y ∈ xs.eraseIdx i) :
    y ∈ xs.set i x := by
  obtain ⟨j, hij, hj⟩ := List.mem_eraseIdx_iff_getElem?.1 hy
  exact List.mem_iff_getElem?.2 ⟨j, by rw [List.getElem?_set_ne (Ne.symm hij), hj]⟩

/-- A call of a callback: the transfer is recorded, or on its way, or another callback has it. -/
theorem resume_sound (h : Sound config chainId address n entry payment s) (hpays : Evm.Pays address entry payment)
    {i : Nat} {o : Jobs.Oracle worker}
    (hheeds : ∀ c ∈ s.callbacks[i]?, Handles (paymentKey chainId n entry address payment) c → Fails c o s.db →
      Recorded (paymentKey chainId n entry address payment) s.db ∨
        ∃ c' ∈ s.callbacks.eraseIdx i, Handles (paymentKey chainId n entry address payment) c') :
    Sound config chainId address n entry payment (s.resume i o) := by
  have hkey : IsKey (paymentKey chainId n entry address payment) := paymentKey_isKey hpays
  unfold System.resume
  split
  · rename_i chainId' event a k hi
    obtain ⟨⟨amount, hamount⟩, hhandling⟩ := h.callbacks _ (List.mem_of_getElem? hi)
    have hjobs : ∀ row ∈ (Jobs.handle a o s.db).2.jobs.rows,
        Paired (paymentKey chainId n entry address payment) row.jobType row.idempotencyKey :=
      enqueued_allowed h.jobs (hhandling.paired hkey hamount).1
    obtain ⟨hnext, hcall⟩ := hhandling.call o s.db
    refine ⟨h.covers.imp fun hhandled => ?_, h.chainId_eq, hjobs, fun c hc => ?_, h.others⟩
    · rcases hhandled with hrecorded | ⟨c, hc, hhandles⟩
      · exact .inl (hrecorded.handle a o)
      · rcases mem_eraseIdx_or hi hc with rfl | hc
        · rcases hcall with hwaits | hfails | ⟨row, hrow, hrowkey⟩
          · refine .inr ⟨_, List.mem_set ?_ _, hhandles.1, hwaits⟩
            exact (List.getElem?_eq_some_iff.1 hi).1
          · rcases hheeds _ hi hhandles hfails with hrecorded | ⟨c', hc', hhandles'⟩
            · exact .inl (hrecorded.handle a o)
            · exact .inr ⟨c', mem_set_of_mem_eraseIdx _ hc', hhandles'⟩
          · refine .inl ⟨row, hrow, ?_⟩
            have hpaired := hjobs row hrow
            rw [← hhandles.1] at hpaired ⊢
            rcases hrowkey with hrowkey | hrowkey
            · exact .inl ⟨hpaired.1 hrowkey, hrowkey⟩
            · exact .inr ⟨hpaired.2 hrowkey, hrowkey⟩
        · exact .inr ⟨c, mem_set_of_mem_eraseIdx _ hc, hhandles⟩
    · rcases List.mem_or_eq_of_mem_set hc with hc | rfl
      · exact h.callbacks c hc
      · exact ⟨⟨amount, hamount⟩, hnext⟩
  · exact h

/-- What goes on beside only adds jobs. -/
theorem beside_sound (h : Sound config chainId address n entry payment s) (hpays : Evm.Pays address entry payment)
    {c : Choice (Jobs.Call worker) Jobs.Answer Jobs.JsError Unit (Jobs.Oracle worker)}
    (hc : ∀ p, c = .spawn p → Beside p) : Sound config chainId address n entry payment (s.beside c) := by
  have hkey : IsKey (paymentKey chainId n entry address payment) := paymentKey_isKey hpays
  unfold System.beside
  rcases Pool.next_cases (h := Jobs.handle) ⟨s.db, s.others⟩ c with
    ⟨p, rfl, hnext⟩ | ⟨i, o, a, k, rfl, hi, hnext⟩ | hnext
  · rw [hnext]
    refine ⟨h.covers, h.chainId_eq, h.jobs, h.callbacks, fun q hq => ?_⟩
    rcases List.mem_append.1 hq with hq | hq
    · exact h.others q hq
    · rw [List.mem_singleton.1 hq]
      exact beside_paired hkey (hc p rfl)
  · rw [hnext]
    obtain ⟨ha, hk⟩ := h.others _ (List.mem_of_getElem? hi)
    refine ⟨h.covers.imp fun hhandled => ?_, h.chainId_eq, enqueued_allowed h.jobs ha, h.callbacks, fun q hq => ?_⟩
    · exact hhandled.mono (fun hrecorded => hrecorded.handle a o) fun c hc hhandles => .inr ⟨c, hc, hhandles⟩
    · rcases List.mem_or_eq_of_mem_set hq with hq | rfl
      · exact h.others q hq
      · exact hk _ fun _ _ => trivial
  · rw [hnext]
    exact ⟨h.covers, h.chainId_eq, h.jobs, h.callbacks, h.others⟩

/-- A new process has polled nothing. -/
theorem restart_sound (h : Sound config chainId address n entry payment s) (hn : 0 < n) :
    Sound config chainId address n entry payment s.restart :=
  ⟨⟨fun hle => absurd hn (Nat.not_lt.2 hle), fun _ hpoll => absurd hpoll List.not_mem_nil⟩, rfl, h.jobs,
    fun _ hc => absurd hc List.not_mem_nil, h.others⟩

theorem step_sound (h : Sound config chainId address n entry payment s) (hentry : entry ∈ (chain n).rows)
    (hpays : Evm.Pays address entry payment) (hn : 0 < n) {x : System.Step}
    (hbeside : ∀ p, x = .beside (.spawn p) → Beside p)
    (hx : Heeds chain chainId address n (paymentKey chainId n entry address payment) s x) :
    Sound config chainId address n entry payment (System.step config s x) := by
  cases x with
  | start | stop | refresh | refreshed => exact watch_sound h _
  | started chainId' head =>
    refine advance_sound h hentry hpays chainId' (fun _ _ => nofun) fun head' hhead => ?_
    cases hhead
    exact hx
  | poll chainId' timer => exact advance_sound h hentry hpays chainId' (fun _ _ => nofun) fun _ => nofun
  | answered chainId' i answer =>
    refine advance_sound h hentry hpays chainId' (fun i' answer' hanswer => ?_) fun _ => nofun
    cases hanswer
    exact hx
  | callback i o => exact resume_sound h hpays hx
  | beside c => exact beside_sound h hpays fun p hp => hbeside p (by rw [hp])
  | restart => exact restart_sound h hn

end

/-- **A job for every transfer**: in every run of a worker that heeds a transfer, with whatever restarts, once the
cursor has passed its block and no callback of it is under way, the table has a job for it, attributed or not.
Block 0 has no transactions. -/
theorem transfers_recorded (config : WorkerConfig) (clock : Time) (intents : Intent.Db) (chain : Evm.Chain)
    (chainId address : String) (n : Nat) (hn : 0 < n) (entry : Evm.Transaction × Evm.Receipt)
    (hentry : entry ∈ (chain n).rows) (payment : Evm.Payment) (hpays : Evm.Pays address entry payment)
    (xs : List System.Step) (hbeside : ∀ p, .beside (.spawn p) ∈ xs → Beside p)
    (hxs : Runs.Along (System.step config)
      (Heeds chain chainId address n (paymentKey chainId n entry address payment))
      { db := .fresh clock { intents } } xs) :
    let s := Runs.exec (System.step config) { db := .fresh clock { intents } } xs
    n ≤ (s.clients chainId).lastBlockNumber →
      (∀ c ∈ s.callbacks, ¬ Handles (paymentKey chainId n entry address payment) c) →
        ∃ row ∈ s.db.jobs.rows, OfTransfer (paymentKey chainId n entry address payment) row := by
  intro s hpassed hdone
  have hfresh : Sound config chainId address n entry payment { db := .fresh clock { intents } } :=
    ⟨⟨fun hle => absurd hn (Nat.not_lt.2 hle), fun _ hpoll => absurd hpoll List.not_mem_nil⟩, rfl,
      fun _ hrow => absurd hrow List.not_mem_nil, fun _ hc => absurd hc List.not_mem_nil,
      fun _ hp => absurd hp List.not_mem_nil⟩
  have hspawned : Runs.Along (System.step config) (fun _ x => ∀ p, x = .beside (.spawn p) → Beside p)
      { db := .fresh clock { intents } } xs := by
    refine Runs.along_of_forall (fun x hx p hp => ?_) _
    exact hbeside p (hp ▸ hx)
  have hinv : Sound config chainId address n entry payment s :=
    Runs.exec_inv (fun s x hs hx => step_sound hs hentry hpays hn hx.1 hx.2) hfresh (hspawned.and hxs)
  rcases hinv.covers.cursor hpassed with hrecorded | ⟨c, hc, hhandles⟩
  · exact hrecorded
  · exact absurd hhandles (hdone c hc)

/-- A worker with a client of Ethereum's main network. -/
def mainnet : WorkerConfig := { config with chains := [⟨"1", 12⟩] }

/-- The intent `pi`, which is to be paid there. -/
def awaitingDb : Intent.Db := Intent.serve Intent.shopDb
  [(.createIntent ⟨"shop", "order-1", 100, "USDC", "ethereum", ["USDC"]⟩, Intent.calm 0),
   (.generateQuote "pi" 1 "0xA" "USDC" "1", Intent.calm 1)]

/-- The watcher subscribes to what is awaited, and the client polls block 11, in which it is paid. -/
def polledPast : List System.Step :=
  [.start, .refreshed 0 false, .started "1" (some 10), .poll "1" 0, .answered "1" 0 (.blockNumber 11),
    .answered "1" 0 (.block (some ⟨["0xa"]⟩)), .answered "1" 0 (.transaction (some ⟨"0xa", "0xc", some "0xA", 5⟩)),
    .answered "1" 0 (.receipt (some ⟨"0xa", true, []⟩))]

/-- What is paid there. -/
def paidEntry : Evm.Transaction × Evm.Receipt := (⟨"0xa", "0xc", some "0xA", 5⟩, ⟨"0xa", true, []⟩)

/-- The callback looks the intent up and enqueues. -/
def enqueued : List System.Step :=
  polledPast ++ [.callback 0 { outer := {} }, .callback 0 { outer := {}, uuid := "job" }]

/-- The rule in that run. -/
theorem transfers_recorded_enqueued :
    let s := Runs.exec (System.step mainnet) { db := .fresh 0 { intents := awaitingDb } } enqueued
    ∃ row ∈ s.db.jobs.rows, OfTransfer (paymentKey "1" 11 paidEntry "0xa" .ether) row := by
  refine transfers_recorded mainnet 0 awaitingDb Evm.paid "1" "0xa" 11 (by decide) paidEntry List.mem_cons_self .ether
    (show Evm.PaysNative "0xa" paidEntry by decide +kernel) enqueued ?_ ?_ ?_ ?_
  · intro p hp
    simp [enqueued, polledPast] at hp
  · refine ⟨trivial, trivial, ?_, trivial, ?_, ?_, ?_, ?_, ?_, ?_, trivial⟩
    · exact fun _ _ hle => absurd hle (by decide)
    · exact fun _ => .inr (by decide +kernel)
    · exact fun _ => .inr (by decide +kernel)
    · exact fun _ => .inr (by decide +kernel)
    · exact fun _ => .inr (by decide +kernel)
    -- neither call of the callback fails
    · exact fun c hc _ hfails => absurd hfails ((show ∀ c ∈ _, ¬ Fails c _ _ by decide +kernel) c hc)
    · exact fun c hc _ hfails => absurd hfails ((show ∀ c ∈ _, ¬ Fails c _ _ by decide +kernel) c hc)
  · decide +kernel
  · have hended : ∀ c ∈ (Runs.exec (System.step mainnet) { db := .fresh 0 { intents := awaitingDb } }
        enqueued).callbacks, ¬ c.Waits := by decide +kernel
    exact fun c hc hhandles => hended c hc hhandles.2

/-- The lookup of the callback is rejected. -/
def lookupRejected : List System.Step :=
  polledPast ++ [.callback 0 { outer := { rejects := some ⟨"error", "Connection terminated"⟩ } }]

/-- The cursor has passed the block, nothing is under way, and the transfer to the quoted intent has no job. -/
theorem transfer_forgotten :
    let s := Runs.exec (System.step mainnet) { db := .fresh 0 { intents := awaitingDb } } lookupRejected
    paidEntry ∈ (Evm.paid 11).rows ∧ Evm.Pays "0xa" paidEntry .ether ∧ paidEntry.2.succeeded = true ∧
    (findAwaitingDepositAt "1" "0xA" s.db.outer.intents).isSome ∧
    (s.clients "1").lastBlockNumber = 11 ∧ (∀ c ∈ s.callbacks, ¬ c.Waits) ∧ (s.clients "1").polls = [] ∧
    s.db.jobs.rows.length = 0 := by
  refine ⟨List.mem_cons_self, show Evm.PaysNative "0xa" paidEntry by decide +kernel, rfl, ?_⟩
  decide +kernel

end NexoraGateway.Worker
