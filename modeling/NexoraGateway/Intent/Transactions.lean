import NexoraGateway.Intent.Sessions

/-!
# A transaction is one step

The ghost state of a task is the client it has and what its transaction has done; `Next` is the next statement of a
call's transaction. What a transaction knows of the row that it has locked (`Txn.Knows`) goes on holding because no
other task can commit a change of it, so that its `COMMIT` writes what the call, made in one step at that moment,
does: `transactions_serial`. A refusal is found out at the `SELECT … FOR UPDATE`, long before the `ROLLBACK`.
-/
namespace NexoraGateway.Intent.Sessions

open Async Store

/-- What a transaction has done. -/
inductive Txn where
  | begun
  | locked (row : PaymentIntent)
  | advanced (row : PaymentIntent) (state : IntentState) (now : Time)
  | recorded (row : PaymentIntent) (state : IntentState) (now : Time) (event : IntentEvent)
  | inserted (row : PaymentIntent)
  | announced (row : PaymentIntent) (event : IntentEvent)

namespace Txn

def done : Txn → List Sql
  | begun => []
  | locked row => [.lockIntent row.id]
  | advanced row state now => [.lockIntent row.id, .updateIntent row.id row.version state (row.version + 1) now]
  | recorded row state now event =>
    [.lockIntent row.id, .updateIntent row.id row.version state (row.version + 1) now, .insertEvent event]
  | inserted row => [.insertIntent row]
  | announced row event => [.insertIntent row, .insertEvent event]

def locks (t : Txn) : List Id := t.done.filterMap Sql.touches

/-- What holds of the committed rows while the transaction has its lock. -/
def Knows (db : Db) : Txn → Prop
  | begun => True
  | locked row | advanced row .. | recorded row .. => db.intents.find? row.id = some row
  | inserted row | announced row _ =>
    db.intents.find? row.id = none ∧ (db.merchants.find? row.merchantId).isSome = true

end Txn

def Transactional : Call → Prop
  | .create _ | .transition .. => True
  | _ => False

/-- The transaction of the call has done all it has to do, and will answer this intent. -/
inductive Completes : (a : Call) → Txn → a.Ans → Prop where
  | created (data : NewPaymentIntent) (id : Id) (now : Time) :
    Completes (.create data) (.announced (newRow id now data) ⟨id, .intentCreated, data.toPayload, 1, now⟩)
      (mapRow (newRow id now data))
  | transitioned (row : PaymentIntent) (eventType : EventType) (payload : Payload) (now : Time)
      (hedge : Valid row.state (getExpectedNextState eventType)) :
    Completes (.transition row.id eventType payload)
      (.recorded row (getExpectedNextState eventType) now ⟨row.id, eventType, payload, row.version + 1, now⟩)
      (mapRow (Sql.set (getExpectedNextState eventType) (row.version + 1) now row))

/-- The next statement of the call's transaction, when nothing goes wrong. -/
inductive Next : Call → Txn → Sql → Prop where
  | insert (data : NewPaymentIntent) (id : Id) (now : Time) :
      Next (.create data) .begun (.insertIntent (newRow id now data))
  | announce (data : NewPaymentIntent) (id : Id) (now : Time) : Next (.create data) (.inserted (newRow id now data))
      (.insertEvent ⟨id, .intentCreated, data.toPayload, 1, now⟩)
  | lock (id : Id) (eventType : EventType) (payload : Payload) :
    Next (.transition id eventType payload) .begun (.lockIntent id)
  | update (row : PaymentIntent) (eventType : EventType) (payload : Payload) (now : Time)
      (hedge : Valid row.state (getExpectedNextState eventType)) :
    Next (.transition row.id eventType payload) (.locked row)
      (.updateIntent row.id row.version (getExpectedNextState eventType) (row.version + 1) now)
  | record (row : PaymentIntent) (eventType : EventType) (payload : Payload) (now : Time)
      (hedge : Valid row.state (getExpectedNextState eventType)) :
    Next (.transition row.id eventType payload) (.advanced row (getExpectedNextState eventType) now)
      (.insertEvent ⟨row.id, eventType, payload, row.version + 1, now⟩)
  | commit {a : Call} {t : Txn} {x : a.Ans} (h : Completes a t x) : Next a t .commit

/-- What a task has: no client, one without a transaction, one with a transaction, one whose transaction is to be
rolled back, or one that is to be released. -/
inductive Ghost where
  | rest
  | holding (client : Client)
  | within (client : Client) (t : Txn)
  | failing (client : Client)
  | leaving (client : Client)

def Ghost.client : Ghost → Option Client
  | rest => none
  | holding client | within client _ | failing client | leaving client => some client

/-- What the transaction has done after an answered statement. -/
def Txn.next (client : Client) : Txn → (q : Sql) → q.Rows → Ghost
  | begun, .lockIntent _, rows => (List.head? rows).elim (.failing client) fun row => .within client (locked row)
  | begun, .insertIntent row, _ => .within client (inserted row)
  | locked row, .updateIntent _ _ state _ now, _ => .within client (advanced row state now)
  | advanced row state now, .insertEvent event, _ => .within client (recorded row state now event)
  | inserted row, .insertEvent event, _ => .within client (announced row event)
  | _, _, _ => .leaving client

def Ghost.next : Ghost → (b : Step) → Reply b → Ghost
  | rest, .connect, .ok client => holding client
  | holding client, .query _ _, .ok _ => within client .begun
  | holding client, .query _ _, .error _ => failing client
  | within client t, .query _ q, .ok rows => t.next client q rows
  | within client _, .query _ .rollback, .error _ => leaving client
  | within client _, .query _ _, .error _ => failing client
  | failing client, .query _ _, _ => leaving client
  | leaving _, .release _, _ => rest
  | g, _, _ => g

def Ghost.Ok : Ghost → Step → Prop
  | rest, .direct a => ¬ Transactional a
  | rest, .generateId | rest, .clock | rest, .connect | within _ _, .clock => True
  | holding client, .query client' .begin | failing client, .query client' .rollback => client' = client
  | within client t, .query client' q => client' = client ∧ (q = .rollback ∨ ∃ a, Next a t q)
  | leaving client, .release client' => client' = client
  | _, _ => False

/-- What the answers say. -/
inductive Ghost.Relies : Ghost → (b : Step) → Reply b → Prop where
  | direct (g : Ghost) (a : Call) (r : Answer a) : Relies g (.direct a) r
  | generateId (g : Ghost) (id : Id) : Relies g .generateId (.ok id)
  | clock (g : Ghost) (now : Time) : Relies g .clock (.ok now)
  | connected (g : Ghost) (client : Client) : Relies g .connect (.ok client)
  | unconnected (g : Ghost) : Relies g .connect (.error (.database .connect))
  | released (g : Ghost) (client : Client) : Relies g (.release client) (.ok ())
  | rejected (g : Ghost) (client : Client) (q : Sql) : Relies g (.query client q) (.error (.database q.statement))
  | inserted (g : Ghost) (client : Client) (row : PaymentIntent) :
      Relies g (.query client (.insertIntent row)) (.ok [row])
  | missing (g : Ghost) (client : Client) (id : Id) : Relies g (.query client (.lockIntent id)) (.ok [])
  | locked (g : Ghost) (client : Client) (row : PaymentIntent) :
    Relies g (.query client (.lockIntent row.id)) (.ok [row])
  | updated (client : Client) (row : PaymentIntent) (id : Id) (version newVersion : Nat)
      (state : IntentState) (now : Time) :
    Relies (.within client (.locked row)) (.query client (.updateIntent id version state newVersion now))
      (.ok [Sql.set state newVersion now row])
  | recorded (g : Ghost) (client : Client) (event : IntentEvent) :
      Relies g (.query client (.insertEvent event)) (.ok ())
  | begun (g : Ghost) (client : Client) : Relies g (.query client .begin) (.ok ())
  | committed (g : Ghost) (client : Client) : Relies g (.query client .commit) (.ok ())
  | rolledBack (g : Ghost) (client : Client) : Relies g (.query client .rollback) (.ok ())

/-- How a step moves the call on. -/
inductive Moves : (a : Call) → Ghost → (b : Step) → Reply b →
    Stage IntentError a.Ans → Stage IntentError a.Ans → Prop where
  | direct (a : Call) (r : Answer a) : Moves a .rest (.direct a) r .waiting (.settled r)
  | generateId (a : Call) (id : Id) : Moves a .rest .generateId (.ok id) .waiting .waiting
  | clock (a : Call) (g : Ghost) (now : Time) : Moves a g .clock (.ok now) .waiting .waiting
  | connected (a : Call) (client : Client) : Moves a .rest .connect (.ok client) .waiting .waiting
  | unconnected {a : Call} (ha : Transactional a) :
    Moves a .rest .connect (.error (.database .connect)) .waiting (.settled (.error (.database .connect)))
  | begun (a : Call) (client : Client) : Moves a (.holding client) (.query client .begin) (.ok ()) .waiting .waiting
  | unbegun {a : Call} (ha : Transactional a) (client : Client) :
    Moves a (.holding client) (.query client .begin) (.error (.database .begin)) .waiting (.refused (.database .begin))
  | rejected {a : Call} {t : Txn} {q : Sql} (hq : Next a t q) (client : Client) :
    Moves a (.within client t) (.query client q) (.error (.database q.statement)) .waiting
      (.refused (.database q.statement))
  | missing (client : Client) (id : Id) (eventType : EventType) (payload : Payload) :
    Moves (.transition id eventType payload) (.within client .begun) (.query client (.lockIntent id)) (.ok []) .waiting
      (.refused (.rowNotFound id))
  | invalid (client : Client) (row : PaymentIntent) (eventType : EventType) (payload : Payload)
      (hedge : ¬ Valid row.state (getExpectedNextState eventType)) :
    Moves (.transition row.id eventType payload) (.within client .begun) (.query client (.lockIntent row.id))
      (.ok [row]) .waiting (.refused (.invalidTransition row.state (getExpectedNextState eventType)))
  | executed {a : Call} {t : Txn} {q : Sql} (hq : Next a t q) (hcommit : q ≠ .commit)
      (client : Client) (rows : q.Rows) :
    Moves a (.within client t) (.query client q) (.ok rows) .waiting .waiting
  | committed {a : Call} {t : Txn} {x : a.Ans} (h : Completes a t x) (client : Client) :
    Moves a (.within client t) (.query client .commit) (.ok ()) .waiting (.settled (.ok x))
  | rolledBack (a : Call) (g : Ghost) (client : Client) (e : IntentError) :
    Moves a g (.query client .rollback) (.ok ()) (.refused e) (.settled (.error e))
  | lost {a : Call} (ha : Transactional a) (g : Ghost) (client : Client) (e : IntentError) :
    Moves a g (.query client .rollback) (.error (.database .connect)) (.refused e)
      (.settled (.error (.database .connect)))
  | released (a : Call) (client : Client) (st : Stage IntentError a.Ans) :
    Moves a (.leaving client) (.release client) (.ok ()) st st

def conduct : Conduct Call Call.Ans Step Reply IntentError Ghost where
  rest := .rest
  ok := Ghost.Ok
  rely := Ghost.Relies
  next := Ghost.next
  moves := Moves

/-! ## The programs -/

section
variable {a : Call} {client : Client}

/-- What the function that a transaction is given ends in: done, or refused. -/
def BodyPost (a : Call) (client : Client) (g : Ghost) (st : Stage IntentError a.Ans) : Except IntentError a.Ans → Prop
  | .ok x => ∃ t, g = .within client t ∧ st = .waiting ∧ Completes a t x
  | .error e => st = .refused e ∧ (g = .failing client ∨ ∃ t, g = .within client t)

/-- What an attempt ends in, before the client is released. -/
def AttemptPost (a : Call) (client : Client) (g : Ghost) (st : Stage IntentError a.Ans) :
    Except IntentError a.Ans → Prop
  | .ok x => g = .leaving client ∧ st = .settled (.ok x)
  | .error e => st = .refused e ∧ (g = .failing client ∨ ∃ t, g = .within client t)

/-- `finally { client.release() }`. -/
theorem release_part (out : Except IntentError a.Ans) :
    conduct.Part a (fun g st out => g = conduct.rest ∧ st = .settled out) (.leaving client) (.settled out)
      ((release client).bind fun _ => Prog.ofExcept out) := by
  refine Conduct.Part.await_bind rfl (fun _ hrely => ?_) fun e hrely => nomatch hrely
  cases hrely
  refine ⟨_, .released a client _, ?_⟩
  cases out with
  | ok x => exact ⟨rfl, rfl⟩
  | error e => exact ⟨rfl, rfl⟩

/-- `catch (error) { ROLLBACK; throw error }`. -/
theorem rollback_part (ha : Transactional a) {g : Ghost} {e : IntentError}
    (hg : g = .failing client ∨ ∃ t, g = .within client t) :
    conduct.Part a (fun g st out => g = .leaving client ∧ st = .settled out) g (.refused e)
      ((query client .rollback).bind fun _ => Prog.throw e) := by
  have hok : g.Ok (.query client .rollback) := by
    rcases hg with rfl | ⟨t, rfl⟩
    · exact rfl
    · exact ⟨rfl, .inl rfl⟩
  have hnext (r : Reply (.query client .rollback)) : g.next (.query client .rollback) r = .leaving client := by
    rcases hg with rfl | ⟨t, rfl⟩
    · cases r <;> rfl
    · cases r with
      | error e => rfl
      | ok x => cases t <;> rfl
  refine Conduct.Part.await_bind hok (fun _ hrely => ?_) fun e' hrely => ?_
  · cases hrely
    exact ⟨_, .rolledBack a g client e, hnext _, rfl⟩
  · cases hrely
    exact ⟨_, .lost ha g client e, hnext _, rfl⟩

variable {fn : Client → Work a.Ans}

/-- `BEGIN`, the function, and `COMMIT`. -/
theorem attempt_part (ha : Transactional a)
    (hfn : conduct.Part a (BodyPost a client) (.within client .begun) .waiting (fn client)) :
    conduct.Part a (AttemptPost a client) (.holding client) .waiting
      ((query client .begin).bind fun _ => (fn client).bind fun result =>
        (query client .commit).bind fun _ => Prog.ret result) := by
  refine Conduct.Part.await_bind rfl (fun _ hrely => ?_) fun e hrely => ?_
  · cases hrely
    refine ⟨_, .begun a client, ?_⟩
    rw [Conduct.bind_eq_andThen]
    refine Conduct.Part.andThen (hfn.mono fun g st out hpost => ?_)
    cases out with
    | error e => exact hpost
    | ok x =>
      obtain ⟨t, rfl, rfl, hdone⟩ := hpost
      refine Conduct.Part.await_bind ⟨rfl, .inr ⟨a, .commit hdone⟩⟩ (fun _ hrely => ?_) fun e hrely => ?_
      · cases hrely
        refine ⟨_, .committed hdone client, ?_, rfl⟩
        cases t <;> rfl
      · cases hrely
        exact ⟨_, .rejected (.commit hdone) client, rfl, .inl rfl⟩
  · cases hrely
    exact ⟨_, .unbegun ha client, rfl, .inl rfl⟩

/-- **The client is released whatever happens**, and the call has then been answered. -/
theorem transaction_part (ha : Transactional a)
    (hfn : ∀ client, conduct.Part a (BodyPost a client) (.within client .begun) .waiting (fn client)) :
    conduct.Carries a .rest .waiting (transaction fn) := by
  refine Conduct.Part.await_bind trivial (fun client _ => ⟨_, .connected a client, ?_⟩) fun e hrely => ?_
  · change conduct.Part a _ (.holding client) .waiting (Prog.andThen (Prog.tryCatch _ _) _)
    rw [Conduct.tryCatch_eq_andThen]
    refine Conduct.Part.andThen (Conduct.Part.andThen ((attempt_part ha (hfn client)).mono fun g st out hpost => ?_))
    cases out with
    | ok x =>
      obtain ⟨rfl, rfl⟩ := hpost
      exact release_part (.ok x)
    | error e =>
      obtain ⟨rfl, hg⟩ := hpost
      refine (rollback_part ha hg).mono fun g st out hpost => ?_
      obtain ⟨rfl, rfl⟩ := hpost
      exact release_part out
  · cases hrely
    exact ⟨_, .unconnected ha, rfl, rfl⟩

end

theorem create_part (data : NewPaymentIntent) : conduct.Carries (.create data) .rest .waiting (create data) := by
  refine Conduct.Part.await_bind trivial (fun id _ => ⟨_, .generateId _ id, ?_⟩) fun e hrely => nomatch hrely
  refine Conduct.Part.await_bind trivial (fun now _ => ⟨_, .clock _ _ now, ?_⟩) fun e hrely => nomatch hrely
  refine transaction_part trivial fun client => ?_
  have hinsert : Next (.create data) .begun (.insertIntent (newRow id now data)) := .insert data id now
  have hannounce := Next.announce data id now
  refine Conduct.Part.await_bind ⟨rfl, .inr ⟨_, hinsert⟩⟩ (fun rows hrely => ?_) fun e hrely => ?_
  · cases hrely
    refine ⟨_, .executed hinsert nofun client _, ?_⟩
    refine Conduct.Part.await_bind ⟨rfl, .inr ⟨_, hannounce⟩⟩ (fun _ hrely => ?_) fun e hrely => ?_
    · exact ⟨_, .executed hannounce nofun client _, _, rfl, rfl, .created data id now⟩
    · cases hrely
      exact ⟨_, .rejected hannounce client, rfl, .inl rfl⟩
  · cases hrely
    exact ⟨_, .rejected hinsert client, rfl, .inl rfl⟩

theorem transition_part (id : Id) (eventType : EventType) (payload : Payload) :
    conduct.Carries (.transition id eventType payload) .rest .waiting (transition id eventType payload) := by
  refine transaction_part trivial fun client => ?_
  have hlock := Next.lock id eventType payload
  refine Conduct.Part.await_bind ⟨rfl, .inr ⟨_, hlock⟩⟩ (fun rows hrely => ?_) fun e hrely => ?_
  · cases hrely with
    | missing => exact ⟨_, .missing client id eventType payload, rfl, .inl rfl⟩
    | locked _ _ row =>
      by_cases hedge : Valid row.state (getExpectedNextState eventType)
      · refine ⟨_, .executed hlock nofun client _, ?_⟩
        have hallowed : ¬ (!isValidTransition validTransitions (mapRow row).state
            (getExpectedNextState eventType)) := by
          rw [mapRow_state, show isValidTransition validTransitions row.state _ = true from hedge]
          decide
        simp only [List.head?_cons]
        rw [if_neg hallowed]
        refine Conduct.Part.await_bind trivial (fun now _ => ⟨_, .clock _ _ now, ?_⟩) fun e hrely => nomatch hrely
        have hupdate := Next.update row eventType payload now hedge
        have hrecord := Next.record row eventType payload now hedge
        refine Conduct.Part.await_bind ⟨rfl, .inr ⟨_, hupdate⟩⟩ (fun rows hrely => ?_) fun e hrely => ?_
        · cases hrely
          refine ⟨_, .executed hupdate nofun client _, ?_⟩
          refine Conduct.Part.await_bind ⟨rfl, .inr ⟨_, hrecord⟩⟩ (fun _ hrely => ?_) fun e hrely => ?_
          · exact ⟨_, .executed hrecord nofun client _, _, rfl, rfl, .transitioned row eventType payload now hedge⟩
          · cases hrely
            exact ⟨_, .rejected hrecord client, rfl, .inl rfl⟩
        · cases hrely
          exact ⟨_, .rejected hupdate client, rfl, .inl rfl⟩
      · refine ⟨_, .invalid client row eventType payload hedge, ?_⟩
        simp only [List.head?_cons]
        rw [if_pos (by simpa [Valid] using hedge)]
        exact ⟨rfl, .inr ⟨_, rfl⟩⟩
  · cases hrely
    exact ⟨_, .rejected hlock client, rfl, .inl rfl⟩

/-- **Each call is carried out by the rules.** -/
theorem expand_part (a : Call) : conduct.Carries a conduct.rest .waiting (expand a) := by
  have hdirect (a : Call) (ha : ¬ Transactional a) :
      conduct.Carries a .rest .waiting (Prog.await (Step.direct a) : Work a.Ans) := by
    refine ⟨ha, fun r _ => ⟨_, .direct a r, ?_⟩⟩
    cases r with
    | ok x => exact ⟨rfl, rfl⟩
    | error e => exact ⟨rfl, rfl⟩
  cases a with
  | create data => exact create_part data
  | transition id eventType payload => exact transition_part id eventType payload
  | _ => exact hdirect _ id

end NexoraGateway.Intent.Sessions
