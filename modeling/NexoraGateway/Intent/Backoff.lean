import NexoraGateway.Intent.Attempts
import NexoraGateway.Intent.Notifications

/-!
# The retries of a webhook (webhook-delivery.service.ts:10-20, :106-173)

`RETRY_DELAYS_MS` describes five attempts with a growing delay, but `attemptDelivery` sends a request only at the first
one: at every later one it writes when the next one is due and returns. `onSchedule_iff` says which webhooks are
delivered as the table says nevertheless: those whose first request succeeds.

* `observing` — the service with the requests of one delivery, which the endpoint answers one after the other, and what
  is recorded of them.
* `retried` — `deliverWebhook`, and then `processRetries` as often as wanted.
-/
namespace NexoraGateway.Intent

open Async Store

/-- A request of the delivery is sent, or an outcome of it recorded. -/
inductive Happening where
  | sent (moment : Time)
  | recorded (moment : Time)
  deriving DecidableEq

def Happening.sent? : Happening → Option Time
  | sent moment => some moment
  | recorded _ => none

def Happening.recorded? : Happening → Option Time
  | sent _ => none
  | recorded moment => some moment

structure Traffic where
  db : Db
  log : List Happening

/-- How many requests were sent. -/
def requests (log : List Happening) : Nat := (log.filterMap Happening.sent?).length

/-- A request names its delivery in a header. -/
def Call.isRequestOf (id : Id) : Call → Bool
  | fetch _ headers _ => match headers.lookup "X-Webhook-Delivery-Id" with
    | some (.str deliveryId) => deliveryId = id
    | _ => false
  | _ => false

/-- What is seen of delivery `id` in a call and its answer. -/
def seen (id : Id) (now : Time) : (a : Call) → Answer a → List Happening
  | .fetch url headers body, _ => if (Call.fetch url headers body).isRequestOf id then [.sent now] else []
  | .updateDeliveryStatus deliveryId .., .ok _ => if deliveryId = id then [.recorded now] else []
  | _, _ => []

/-- The calls of the service; request number `k` of delivery `id` is answered `answers k`. -/
def observing (id : Id) (answers : Nat → HttpOutcome) : Handler Call Answer Oracle Traffic := fun a o t =>
  let o := if a.isRequestOf id then { o with http := answers (requests t.log) } else o
  let (r, db) := handle a o t.db
  (r, ⟨db, t.log ++ seen id o.now a r⟩)

variable (id : Id) (answers : Nat → HttpOutcome) (intent : PaymentIntent) (eventType : EventType) (data : Payload)
  (calls : Nat → Nat → Oracle) (db : Db)

/-- The webhook is delivered, and `n` times retries are processed; `calls i` is what the `i`-th of these runs meets. -/
def retried : Nat → Traffic
  | 0 => ((deliverWebhook intent eventType data).run (observing id answers) (calls 0) 0 ⟨db, []⟩).2.2
  | n + 1 => (processRetries.run (observing id answers) (calls (n + 1)) 0 (retried n)).2.2

/-- `response.ok`. -/
def HttpOutcome.ok : HttpOutcome → Bool
  | response status _ => 200 ≤ status && status ≤ 299
  | rejected _ => false

/-- How the delivery is to end: by its first request that succeeds, or given up after `MAX_ATTEMPTS`. -/
def scheduled (answers : Nat → HttpOutcome) : Nat × DeliveryStatus :=
  match (List.range maxAttempts).find? fun k => (answers k).ok with
  | some k => (k + 1, .delivered)
  | none => (maxAttempts, .failed)

/-- It has so ended, for the endpoint and in its row. -/
def Ends (answers : Nat → HttpOutcome) (key : Id × EventType) (t : Traffic) : Prop :=
  requests t.log = (scheduled answers).1 ∧
    ∃ d ∈ t.db.deliveries.find? key, d.status = (scheduled answers).2 ∧ d.attemptCount = (scheduled answers).1

/-- Each request comes at least its delay after what was recorded last before it. -/
def Paced (log : List Happening) : Prop :=
  ∀ before after moment, log = before ++ .sent moment :: after →
    ∀ earlier ∈ (before.filterMap Happening.recorded?).getLast?, earlier + retryDelay (requests before) ≤ moment

/-- The webhook is delivered as `RETRY_DELAYS_MS` and `MAX_ATTEMPTS` say. -/
def OnSchedule : Prop :=
  (∀ n, Paced (retried id answers intent eventType data calls db n).log) ∧
    ∃ often, ∀ n, often ≤ n → Ends answers (intent.id, eventType) (retried id answers intent eventType data calls db n)

/-! ## One delivery -/

variable {id answers intent eventType data calls db} {key : Id × EventType} {d : WebhookDelivery} {log : List Happening}
  {t : Traffic} {o : Oracle}

/-- The delivery has the row `d`, and `log` was seen of it. -/
structure Stands (id : Id) (key : Id × EventType) (d : WebhookDelivery) (log : List Happening) (t : Traffic) :
    Prop where
  log : t.log = log
  find : t.db.deliveries.find? key = some d
  named : d.id = id
  only : ∀ row ∈ t.db.deliveries.rows, row.id = id → row = d

theorem Stands.mem (h : Stands id key d log t) : d ∈ t.db.deliveries.rows := (Table.find?_eq_some.1 h.find).1

theorem observing_eq {a : Call} (ha : a.isRequestOf id = false) : observing id answers a o t =
    ((handle a o t.db).1, ⟨(handle a o t.db).2, t.log ++ seen id o.now a (handle a o t.db).1⟩) := by
  simp only [observing, ha, Bool.false_eq_true, if_false]

theorem updateDeliveryStatus_eq (deliveryId : Id) (status : DeliveryStatus) (attemptCount : Nat)
    (nextRetryAt : Option Time) (lastError : Option String) :
    handle (.updateDeliveryStatus deliveryId status attemptCount nextRetryAt lastError) o db =
      if o.fault = some .query then (.error (.database .query), db)
      else (.ok (), { db with
        deliveries := db.deliveries.updateWhere (fun d => d.id = deliveryId)
          (outcome o status attemptCount nextRetryAt lastError)
          (outcome_key o status attemptCount nextRetryAt lastError) }) :=
  query_return fun db : Db => ((), { db with
    deliveries := db.deliveries.updateWhere (fun d => d.id = deliveryId)
      (outcome o status attemptCount nextRetryAt lastError)
      (outcome_key o status attemptCount nextRetryAt lastError) })

section
variable (h : Stands id key d log t) (status : DeliveryStatus) (attemptCount : Nat) (nextRetryAt : Option Time)
  (lastError : Option String)
include h

/-- The outcome of another delivery is recorded. -/
theorem Stands.updateOther {deliveryId : Id} (hother : deliveryId ≠ id) :
    Stands id key d log
      (observing id answers (.updateDeliveryStatus deliveryId status attemptCount nextRetryAt lastError) o t).2 := by
  rw [observing_eq rfl, updateDeliveryStatus_eq]
  split
  · exact ⟨(List.append_nil _).trans h.log, h.find, h.named, h.only⟩
  · have hsame : ¬ d.id = deliveryId := fun hd => hother (hd.symm.trans h.named)
    refine ⟨?_, ?_, h.named, fun row hrow hid => ?_⟩
    · simp only [seen, if_neg hother, List.append_nil, h.log]
    · rw [Table.find?_updateWhere, h.find, Option.map_some, if_neg (by simpa using hsame)]
    · dsimp only at hrow
      obtain ⟨old, hold, rfl⟩ := Table.mem_updateWhere.1 hrow
      split at hid
      · rename_i hd
        exact absurd ((of_decide_eq_true hd).symm.trans hid) hother
      · rename_i hd
        rw [if_neg hd]
        exact h.only old hold hid

variable (answers) in
/-- The outcome of an attempt at it is recorded. -/
theorem Stands.update (ho : o.fault ≠ some .query) :
    (observing id answers (.updateDeliveryStatus id status attemptCount nextRetryAt lastError) o t).1 = .ok () ∧
    Stands id key (outcome o status attemptCount nextRetryAt lastError d) (log ++ [.recorded o.now])
      (observing id answers (.updateDeliveryStatus id status attemptCount nextRetryAt lastError) o t).2 := by
  rw [observing_eq rfl, updateDeliveryStatus_eq, if_neg ho]
  refine ⟨rfl, ?_, ?_, h.named, fun row hrow hid => ?_⟩
  · simp only [seen, if_pos, h.log]
  · rw [Table.find?_updateWhere, h.find, Option.map_some, if_pos (by simpa using h.named)]
  · dsimp only at hrow
    obtain ⟨old, hold, rfl⟩ := Table.mem_updateWhere.1 hrow
    split at hid
    · rename_i hd
      rw [if_pos hd, h.only old hold hid]
    · rename_i hd
      exact absurd hid (by simpa using hd)

end

/-- A call that says nothing of the delivery. -/
def Call.Elsewhere (id : Id) : Call → Prop
  | fetch url headers body => (fetch url headers body).isRequestOf id = false
  | updateDeliveryStatus deliveryId .. => deliveryId ≠ id
  | now | getDelivery _ | pendingRetries => True
  | _ => False

theorem Stands.elsewhere (h : Stands id key d log t) {a : Call} (ha : a.Elsewhere id) (o : Oracle) :
    Stands id key d log (observing id answers a o t).2 := by
  have hread (hrequest : a.isRequestOf id = false) (hdb : (handle a o t.db).2 = t.db)
      (hseen : seen id o.now a (handle a o t.db).1 = []) : Stands id key d log (observing id answers a o t).2 := by
    rw [observing_eq hrequest, hdb, hseen]
    exact ⟨(List.append_nil _).trans h.log, h.find, h.named, h.only⟩
  cases a with
  | updateDeliveryStatus deliveryId status attemptCount nextRetryAt lastError => exact h.updateOther _ _ _ _ ha
  | fetch url headers body =>
    refine hread ha ?_ (if_neg (by rw [ha]; exact Bool.false_ne_true))
    simp only [handle]
    split <;> rfl
  | now => exact hread rfl rfl rfl
  | getDelivery deliveryId => exact hread rfl (query_read _) rfl
  | pendingRetries => exact hread rfl (query_read _) rfl
  | _ => exact ha.elim

/-- An attempt at another delivery. -/
theorem attemptDelivery_other {deliveryId : Id} (hother : deliveryId ≠ id) (ω : Nat → Oracle) (n : Nat)
    (h : Stands id key d log t) :
    Stands id key d log ((attemptDelivery deliveryId).run (observing id answers) ω n t).2.2 := by
  have hcalls : (attemptDelivery deliveryId).Only (Call.Elsewhere id) fun _ => True := by
    refine attemptDelivery_calls trivial trivial (fun url headers body hheader => ?_) (fun _ _ _ _ => hother)
      fun _ => trivial
    simp [Call.Elsewhere, Call.isRequestOf, hheader, hother]
  exact hcalls.run_inv ω (fun a o t ha hstands => hstands.elsewhere ha o) n t h

/-! ## Attempts at it -/

theorem Stands.getDelivery (h : Stands id key d log t) (ho : o.fault ≠ some .query) :
    observing id answers (.getDelivery id) o t = (.ok (some d), t) := by
  have hfind : (t.db.deliveries.rows.find? fun d : WebhookDelivery => decide (d.id = id)) = some d := by
    cases hrow : t.db.deliveries.rows.find? fun d : WebhookDelivery => decide (d.id = id) with
    | none => exact absurd h.named (by simpa using List.find?_eq_none.1 hrow d h.mem)
    | some row => rw [h.only row (List.mem_of_find?_eq_some hrow) (by simpa using List.find?_some hrow)]
  rw [observing_eq rfl, getDelivery_eq, if_neg ho, hfind]
  simp [seen]

variable (answers) in
theorem Stands.fetch (h : Stands id key d log t) (url : String) (headers : List (String × Json)) (body : Payload)
    (hheader : headers.lookup "X-Webhook-Delivery-Id" = some (.str id)) (o : Oracle) :
    ∃ t', observing id answers (.fetch url headers body) o t =
        (match answers (requests log) with
          | .response status statusText => .ok (status, statusText)
          | .rejected message => .error (.http message), t') ∧
      Stands id key d (log ++ [.sent o.now]) t' := by
  have hrequest : (Call.fetch url headers body).isRequestOf id = true := by simp [Call.isRequestOf, hheader]
  refine ⟨⟨t.db, log ++ [.sent o.now]⟩, ?_, rfl, h.find, h.named, h.only⟩
  simp only [observing, hrequest, if_true, handle, seen, h.log]
  cases answers (requests log) <;> rfl

theorem observing_now : observing id answers .now o t = (.ok o.now, t) := by
  rw [observing_eq rfl]
  simp [handle, seen]

theorem getDelivery_rejected {deliveryId : Id} (ho : o.fault = some .query) :
    observing id answers (.getDelivery deliveryId) o t = (.error (.database .query), t) := by
  rw [observing_eq rfl, getDelivery_eq, if_pos ho]
  simp [seen]

theorem updateDeliveryStatus_rejected {deliveryId : Id} {status : DeliveryStatus} {attemptCount : Nat}
    {nextRetryAt : Option Time} {lastError : Option String} (ho : o.fault = some .query) :
    observing id answers (.updateDeliveryStatus deliveryId status attemptCount nextRetryAt lastError) o t =
      (.error (.database .query), t) := by
  rw [observing_eq rfl, updateDeliveryStatus_eq, if_pos ho]
  simp [seen]

theorem requests_append (log log' : List Happening) : requests (log ++ log') = requests log + requests log' := by
  rw [requests, List.filterMap_append, List.length_append]
  rfl

theorem run_updateDeliveryStatus (deliveryId : Id) (status : DeliveryStatus) (attemptCount : Nat)
    (nextRetryAt : Option Time) (lastError : Option String) (ω : Nat → Oracle) (n : Nat) :
    (Task.updateDeliveryStatus deliveryId status attemptCount nextRetryAt lastError).run (observing id answers) ω n t =
      ((observing id answers (.updateDeliveryStatus deliveryId status attemptCount nextRetryAt lastError)
          (ω n) t).1, n + 1,
        (observing id answers (.updateDeliveryStatus deliveryId status attemptCount nextRetryAt lastError)
          (ω n) t).2) :=
  Prog.run_await ..

/-- The request of the first attempt, in its `try`. -/
def request (deliveryId : Id) (delivery : WebhookDelivery) : Task Unit := do
  let headers :=
    [("Content-Type", .str "application/json"),
     ("X-Webhook-Signature", (delivery.payload.get? "signature").getD (.str "")),
     ("X-Webhook-Event", .str delivery.eventType.name), ("X-Webhook-Delivery-Id", .str deliveryId)]
  let (status, statusText) ← Task.fetch delivery.webhookUrl headers delivery.payload
  if 200 ≤ status ∧ status ≤ 299 then
    Task.updateDeliveryStatus deliveryId .delivered (delivery.attemptCount + 1) none none
  else
    throw (.http ("HTTP " ++ toString status ++ ": " ++ statusText))

/-- Its `catch`. -/
def recordFailure (deliveryId : Id) (delivery : WebhookDelivery) (error : IntentError) : Task Unit :=
  if delivery.attemptCount + 1 ≥ maxAttempts then
    Task.updateDeliveryStatus deliveryId .failed (delivery.attemptCount + 1) none (some error.message)
  else do
    let now ← Task.now
    Task.updateDeliveryStatus deliveryId .pending (delivery.attemptCount + 1)
      (some (now + retryDelay (delivery.attemptCount + 1))) (some error.message)

theorem attemptDelivery_eq (deliveryId : Id) : attemptDelivery deliveryId = (do
    match ← Task.getDelivery deliveryId with
    | none => return
    | some delivery =>
      if delivery.attemptCount + 1 > 1 then
        let now ← Task.now
        Task.updateDeliveryStatus deliveryId .pending (delivery.attemptCount + 1)
          (some (now + retryDelay delivery.attemptCount)) none
      else (request deliveryId delivery).tryCatch (recordFailure deliveryId delivery)) := rfl

/-- The delivery that was read first. -/
theorem Stands.run_attempt (h : Stands id key d log t) {ω : Nat → Oracle} {n : Nat} (ho : (ω n).fault ≠ some .query) :
    (attemptDelivery id).run (observing id answers) ω n t =
      (if d.attemptCount + 1 > 1 then do
        let now ← Task.now
        Task.updateDeliveryStatus id .pending (d.attemptCount + 1) (some (now + retryDelay d.attemptCount)) none
      else (request id d).tryCatch (recordFailure id d)).run (observing id answers) ω (n + 1) t := by
  rw [attemptDelivery_eq]
  exact Prog.run_await_bind_of_ok ω (h.getDelivery ho) _

/-- A row is set, to be tried again. -/
theorem run_schedule (deliveryId : Id) (attemptCount : Nat) (delay : Int) (lastError : Option String) (ω : Nat → Oracle)
    (n : Nat) : (Task.now.bind fun now => Task.updateDeliveryStatus deliveryId .pending attemptCount
        (some (now + delay)) lastError).run (observing id answers) ω n t =
      ((observing id answers
          (.updateDeliveryStatus deliveryId .pending attemptCount (some ((ω n).now + delay)) lastError)
          (ω (n + 1)) t).1, n + 2,
        (observing id answers
          (.updateDeliveryStatus deliveryId .pending attemptCount (some ((ω n).now + delay)) lastError)
          (ω (n + 1)) t).2) :=
  (Prog.run_await_bind_of_ok ω observing_now _).trans (run_updateDeliveryStatus ..)

variable (answers) in
/-- A request that succeeds is recorded, one that fails is not. -/
theorem Stands.run_request (h : Stands id key d log t) {ω : Nat → Oracle} (hω : ∀ k, (ω k).fault ≠ some .query)
    (n : Nat) :
    if (answers (requests log)).ok then
      ∃ t', (request id d).run (observing id answers) ω n t = (.ok (), n + 2, t') ∧
        Stands id key (outcome (ω (n + 1)) .delivered (d.attemptCount + 1) none none d)
          (log ++ [.sent (ω n).now, .recorded (ω (n + 1)).now]) t'
    else ∃ error t', (request id d).run (observing id answers) ω n t = (.error error, n + 1, t') ∧
      Stands id key d (log ++ [.sent (ω n).now]) t' := by
  obtain ⟨t', hfetch, hsent⟩ := h.fetch answers d.webhookUrl
    [("Content-Type", .str "application/json"),
      ("X-Webhook-Signature", (d.payload.get? "signature").getD (.str "")),
      ("X-Webhook-Event", .str d.eventType.name), ("X-Webhook-Delivery-Id", .str id)] d.payload rfl (ω n)
  cases hanswer : answers (requests log) with
  | rejected message =>
    rw [hanswer] at hfetch
    exact ⟨_, t', Prog.run_await_bind_of_error ω hfetch _, hsent⟩
  | response status statusText =>
    rw [hanswer] at hfetch
    have hbody := Prog.run_await_bind_of_ok ω hfetch fun answer : Nat × String =>
      if 200 ≤ answer.1 ∧ answer.1 ≤ 299 then
        Task.updateDeliveryStatus id .delivered (d.attemptCount + 1) none none
      else throw (.http ("HTTP " ++ toString answer.1 ++ ": " ++ answer.2))
    by_cases hok : 200 ≤ status ∧ status ≤ 299
    · obtain ⟨hanswered, hrecorded⟩ :=
        hsent.update answers .delivered (d.attemptCount + 1) none none (hω (n + 1))
      rw [if_pos (by simpa [HttpOutcome.ok] using hok)]
      rw [List.append_assoc] at hrecorded
      refine ⟨_, hbody.trans ?_, hrecorded⟩
      rw [if_pos hok, run_updateDeliveryStatus, hanswered]
      rfl
    · rw [if_neg (by simpa [HttpOutcome.ok] using hok)]
      refine ⟨.http ("HTTP " ++ toString status ++ ": " ++ statusText), t', hbody.trans ?_, hsent⟩
      rw [if_neg hok]
      rfl

/-- The first attempt sends a request and records what becomes of it. -/
theorem Stands.attemptFirst (h : Stands id key d log t) (hcount : d.attemptCount = 0) {ω : Nat → Oracle}
    (hω : ∀ k, (ω k).fault ≠ some .query) (n : Nat) :
    ∃ d' moment moment', Stands id key d' (log ++ [.sent moment, .recorded moment'])
        ((attemptDelivery id).run (observing id answers) ω n t).2.2 ∧
      d'.attemptCount = 1 ∧ d'.status = if (answers (requests log)).ok then .delivered else .pending := by
  have hfirst : ¬ d.attemptCount + 1 > 1 := by omega
  have hnotlast : ¬ d.attemptCount + 1 ≥ maxAttempts := by
    rw [hcount]
    decide
  have hrequest := h.run_request answers hω (n + 1)
  rw [h.run_attempt (hω n), if_neg hfirst]
  split at hrequest <;> rename_i hok
  · obtain ⟨t', hrun, hrecorded⟩ := hrequest
    rw [Prog.run_tryCatch_of_ok _ _ _ hrun]
    exact ⟨_, _, _, hrecorded, congrArg (· + 1) hcount, (if_pos hok).symm⟩
  · obtain ⟨error, t', hrun, hsent⟩ := hrequest
    have hrecorded := (hsent.update answers .pending (d.attemptCount + 1)
      (some ((ω (n + 2)).now + retryDelay (d.attemptCount + 1))) (some error.message) (hω (n + 3))).2
    rw [List.append_assoc] at hrecorded
    rw [Prog.run_tryCatch_of_error _ _ _ hrun, recordFailure, if_neg hnotlast, Prog.bind_def, run_schedule]
    exact ⟨_, _, _, hrecorded, congrArg (· + 1) hcount, (if_neg hok).symm⟩

/-- It was tried, and is to be tried again. -/
def Waits (id : Id) (key : Id × EventType) (t : Traffic) : Prop :=
  ∃ d log, Stands id key d log t ∧ d.status = .pending ∧ 0 < d.attemptCount ∧ requests log = 1

/-- An attempt after the first is only counted. -/
theorem attemptDelivery_waits (ω : Nat → Oracle) (n : Nat) (h : Waits id key t) :
    Waits id key ((attemptDelivery id).run (observing id answers) ω n t).2.2 := by
  obtain ⟨d, log, hstands, hstatus, hcount, hrequests⟩ := h
  by_cases hget : (ω n).fault = some .query
  · have hrun : (attemptDelivery id).run (observing id answers) ω n t = (.error (.database .query), n + 1, t) :=
      Prog.run_await_bind_of_error ω (getDelivery_rejected hget) _
    rw [hrun]
    exact ⟨d, log, hstands, hstatus, hcount, hrequests⟩
  · have hlater : d.attemptCount + 1 > 1 := by omega
    rw [hstands.run_attempt hget, if_pos hlater, Prog.bind_def, run_schedule]
    by_cases hupdate : (ω (n + 2)).fault = some .query
    · rw [updateDeliveryStatus_rejected hupdate]
      exact ⟨d, log, hstands, hstatus, hcount, hrequests⟩
    · refine ⟨_, _, (hstands.update answers _ _ _ _ hupdate).2, rfl, Nat.succ_pos _, ?_⟩
      rw [requests_append, hrequests]
      rfl

/-! ## The delivery -/

/-- A delivery that is new gets a row of its own. -/
theorem upsertDelivery_new {intentId : Id} (hnew : db.deliveries.find? (intentId, eventType) = none)
    (ho : o.fault ≠ some .query) (url : String) (payload : Payload) : ∃ row deliveries,
      row.id = o.uuid ∧ row.attemptCount = 0 ∧ row.key = (intentId, eventType) ∧
      db.deliveries.insert? row = some deliveries ∧
      upsertDelivery o intentId eventType url payload db = (.ok o.uuid, { db with deliveries }) := by
  let row : WebhookDelivery := { id := o.uuid, intentId, eventType, webhookUrl := url, payload, createdAt := o.now }
  have hfree : db.deliveries.find? row.key = none := hnew
  obtain ⟨deliveries, hinsert⟩ := Option.isSome_iff_exists.1 (Table.insert?_isSome.2 hfree)
  refine ⟨row, deliveries, rfl, rfl, rfl, hinsert, ?_⟩
  simp only [upsertDelivery, query, atomically, statement, if_neg ho, bind, Except.bind]
  rw [show db.deliveries.insert? _ = some deliveries from hinsert]
  rfl

theorem Stands.inserted {row : WebhookDelivery} {deliveries : Table WebhookDelivery.key}
    (hinsert : db.deliveries.insert? row = some deliveries) (hfresh : ∀ old ∈ db.deliveries.rows, old.id ≠ row.id) :
    Stands row.id row.key row [] ⟨{ db with deliveries }, []⟩ := by
  refine ⟨rfl, ?_, rfl, fun row' hrow' hid => ?_⟩
  · rw [Table.find?_insert? hinsert, if_pos rfl]
  · dsimp only at hrow'
    rw [Table.rows_insert? hinsert] at hrow'
    rcases List.mem_append.1 hrow' with hold | hnew
    · exact absurd hid (hfresh row' hold)
    · exact List.mem_singleton.1 hnew

/-! ## Retries -/

/-- What looking for retries keeps, and attempts at those that are due, `processRetries` keeps. -/
theorem processRetries_inv {I : Traffic → Prop} (due : Id → Prop) (ω : Nat → Oracle) (n : Nat)
    (hdue : ∀ rows : List Id, (observing id answers .pendingRetries (ω n) t).1 = .ok rows →
      ∀ deliveryId ∈ rows, due deliveryId)
    (hlooked : I (observing id answers .pendingRetries (ω n) t).2)
    (hattempt : ∀ deliveryId, due deliveryId → ∀ n t, I t →
      I ((attemptDelivery deliveryId).run (observing id answers) ω n t).2.2) :
    I (processRetries.run (observing id answers) ω n t).2.2 := by
  cases hout : (observing id answers .pendingRetries (ω n) t).1 with
  | error e =>
    have hrun : processRetries.run (observing id answers) ω n t = (.error e, n + 1, _) :=
      Prog.run_await_bind_of_error ω (Prod.ext hout rfl) _
    rw [hrun]
    exact hlooked
  | ok found =>
    let rows : List Id := found
    have hrun : processRetries.run (observing id answers) ω n t =
        ((rows.forM attemptDelivery).bind fun _ => .ret rows.length).run (observing id answers) ω (n + 1) _ :=
      Prog.run_await_bind_of_ok ω (Prod.ext hout rfl) _
    rw [hrun]
    refine Prog.run_bind_inv _ ω (Prog.run_forM_inv _ ω fun deliveryId hmem => ?_) (fun _ _ _ h => h) _ _ hlooked
    exact hattempt deliveryId (hdue rows hout deliveryId hmem)

theorem processRetries_waits (ω : Nat → Oracle) (n : Nat) (h : Waits id key t) :
    Waits id key (processRetries.run (observing id answers) ω n t).2.2 := by
  refine processRetries_inv (fun _ => True) ω n (fun _ _ _ _ => trivial) ?_ fun deliveryId _ n t h => ?_
  · obtain ⟨d, log, hstands, hrest⟩ := h
    exact ⟨d, log, hstands.elsewhere (a := .pendingRetries) trivial _, hrest⟩
  · by_cases hid : deliveryId = id
    · subst hid
      exact attemptDelivery_waits ω n h
    · obtain ⟨d, log, hstands, hrest⟩ := h
      exact ⟨d, log, attemptDelivery_other hid ω n hstands, hrest⟩

/-- A row that is not pending is not due. -/
theorem Stands.not_due (h : Stands id key d log t) (hstatus : d.status ≠ .pending) {rows : List Id}
    (hout : (observing id answers .pendingRetries o t).1 = .ok rows) : id ∉ rows := by
  intro hmem
  rw [observing_eq rfl] at hout
  obtain ⟨db', -, hbody⟩ := query_ok hout
  cases hbody
  obtain ⟨row, hrow, hid⟩ := List.mem_map.1 hmem
  have hrow := List.mem_mergeSort.1 (List.mem_of_mem_take hrow)
  obtain ⟨hrow, hdue⟩ := List.mem_filter.1 hrow
  obtain rfl := h.only row hrow hid
  simp [hstatus] at hdue

theorem processRetries_stands (hstatus : d.status ≠ .pending) (ω : Nat → Oracle) (n : Nat) (h : Stands id key d log t) :
    Stands id key d log (processRetries.run (observing id answers) ω n t).2.2 := by
  refine processRetries_inv (fun deliveryId => deliveryId ≠ id) ω n (fun rows hout deliveryId hmem => ?_)
    (h.elsewhere (a := .pendingRetries) trivial _) fun deliveryId hother n t h => attemptDelivery_other hother ω n h
  rintro rfl
  exact h.not_due hstatus hout hmem

/-! ## The webhook -/

theorem scheduled_of_ok (hok : (answers 0).ok = true) : scheduled answers = (1, .delivered) := by
  rw [scheduled, show List.range maxAttempts = 0 :: [1, 2, 3, 4] from rfl,
    List.find?_cons_of_pos (p := fun k => (answers k).ok) hok]

theorem scheduled_status : (scheduled answers).2 ≠ .pending := by
  unfold scheduled
  split <;> simp

/-- One request needs no delay. -/
theorem paced_single (moment moment' : Time) : Paced [.sent moment, .recorded moment'] := by
  intro before after later hlog earlier hearlier
  rcases before with _ | ⟨first, _ | ⟨second, rest⟩⟩
  · cases hearlier
  · cases hlog
  · cases rest <;> cases hlog

section
variable (answers data)
variable (hwebhook : HasWebhook db intent.merchantId) (hnew : db.deliveries.find? (intent.id, eventType) = none)
  (hfresh : ∀ row ∈ db.deliveries.rows, row.id ≠ id) (huuid : ∀ k, (calls 0 k).uuid = id)
  (hanswered : ∀ k, (calls 0 k).fault ≠ some .query)
include hwebhook hnew hfresh huuid hanswered

/-- Delivered for the first time, the webhook is tried once. -/
theorem retried_zero : ∃ d moment moment', Stands id (intent.id, eventType) d [.sent moment, .recorded moment']
      (retried id answers intent eventType data calls db 0) ∧
    d.attemptCount = 1 ∧ d.status = if (answers 0).ok then .delivered else .pending := by
  obtain ⟨-, merchant, hmerchant, hurl⟩ :=
    (getById_cases (calls 0 0) hwebhook).resolve_left fun hfault => hanswered 0 hfault.1
  obtain ⟨url, hurl⟩ := Option.isSome_iff_exists.1 hurl
  let payload : Payload :=
    [("intent_id", .str intent.id), ("event_type", .str eventType.name), ("state", .str intent.state.name),
     ("timestamp", .date (calls 0 1).now), ("data", .obj data),
     ("signature", generateSignature intent.id eventType data)]
  obtain ⟨row, deliveries, hid, hcount, hkey, hinsert, hupsert⟩ := upsertDelivery_new hnew (hanswered 2) url payload
  have hget : observing id answers (.getById intent.merchantId) (calls 0 0) ⟨db, []⟩ = (.ok merchant, ⟨db, []⟩) := by
    rw [observing_eq rfl]
    simp only [handle, hmerchant]
    rfl
  have hupserted : observing id answers (.upsertDelivery intent.id eventType url payload) (calls 0 2) ⟨db, []⟩ =
      (.ok id, ⟨{ db with deliveries }, []⟩) := by
    rw [observing_eq rfl]
    simp only [handle, hupsert, huuid]
    rfl
  have hrun : (deliverWebhook intent eventType data).run (observing id answers) (calls 0) 0 ⟨db, []⟩ =
      (attemptDelivery id).run (observing id answers) (calls 0) 3 ⟨{ db with deliveries }, []⟩ := by
    refine (Prog.run_await_bind_of_ok _ hget _).trans ?_
    dsimp only
    rw [hurl]
    refine (Prog.run_await_bind_of_ok _ observing_now _).trans ?_
    exact Prog.run_await_bind_of_ok _ hupserted _
  rw [huuid] at hid
  rw [retried, hrun, ← hkey]
  subst hid
  exact (Stands.inserted hinsert hfresh).attemptFirst hcount hanswered 3

theorem onSchedule_of_ok (hok : (answers 0).ok = true) : OnSchedule id answers intent eventType data calls db := by
  obtain ⟨d, moment, moment', hstands, hcount, hstatus⟩ := retried_zero answers data hwebhook hnew hfresh
      huuid hanswered
  rw [if_pos hok] at hstatus
  have hall (n : Nat) : Stands id (intent.id, eventType) d [.sent moment, .recorded moment']
      (retried id answers intent eventType data calls db n) := by
    induction n with
    | zero => exact hstands
    | succ n ih => exact processRetries_stands (by rw [hstatus]; decide) _ _ ih
  refine ⟨fun n => (hall n).log ▸ paced_single moment moment', 0, fun n _ => ?_⟩
  rw [Ends, scheduled_of_ok hok, (hall n).log]
  exact ⟨rfl, d, (hall n).find, hstatus, hcount⟩

theorem retried_waits (hfailed : (answers 0).ok = false) (n : Nat) :
    Waits id (intent.id, eventType) (retried id answers intent eventType data calls db n) := by
  induction n with
  | zero =>
    obtain ⟨d, moment, moment', hstands, hcount, hstatus⟩ := retried_zero answers data hwebhook hnew hfresh
      huuid hanswered
    rw [hfailed] at hstatus
    exact ⟨d, _, hstands, hstatus, hcount ▸ Nat.one_pos, rfl⟩
  | succ n ih => exact processRetries_waits _ _ ih

theorem not_onSchedule (hfailed : (answers 0).ok = false) : ¬ OnSchedule id answers intent eventType data calls db := by
  rintro ⟨-, often, hends⟩
  obtain ⟨d, log, hstands, hpending, -⟩ :=
    retried_waits answers data hwebhook hnew hfresh huuid hanswered hfailed often
  obtain ⟨-, d', hfind, hstatus, -⟩ := hends often (Nat.le_refl often)
  obtain rfl := Option.some.inj (hstands.find.symm.trans hfind)
  exact scheduled_status (hstatus.symm.trans hpending)

end

/-- **A webhook is delivered as the table of delays says just when** its first request succeeds: whatever its endpoint
would answer later, whatever other deliveries there are, and whenever retries are processed and whichever of their
queries fail. -/
theorem onSchedule_iff (id : Id) (answers : Nat → HttpOutcome) (intent : PaymentIntent) (eventType : EventType)
    (data : Payload) (calls : Nat → Nat → Oracle) (db : Db) (hwebhook : HasWebhook db intent.merchantId)
    (hnew : db.deliveries.find? (intent.id, eventType) = none) (hfresh : ∀ row ∈ db.deliveries.rows, row.id ≠ id)
    (huuid : ∀ k, (calls 0 k).uuid = id) (hanswered : ∀ k, (calls 0 k).fault ≠ some .query) :
    OnSchedule id answers intent eventType data calls db ↔ (answers 0).ok = true := by
  constructor
  · intro h
    by_contra hfailed
    exact not_onSchedule answers data hwebhook hnew hfresh huuid hanswered (Bool.eq_false_iff.2 hfailed) h
  · exact onSchedule_of_ok answers data hwebhook hnew hfresh huuid hanswered

/-! ## An endpoint that is down -/

/-- Retries are processed every ten minutes, when the one before has come due. -/
def patient (i _k : Nat) : Oracle := { now := 600000 * i, uuid := "d" }

theorem hookedDb_webhook : HasWebhook hookedDb quotedRow.merchantId := ⟨_, _, rfl, rfl, by decide⟩

/-- The rule for an endpoint that is up. -/
theorem onSchedule_iff_up :
    OnSchedule "d" (fun _ => .response 200 "OK") quotedRow .quoteGenerated [] patient hookedDb ↔
      (HttpOutcome.response 200 "OK").ok = true :=
  onSchedule_iff "d" (fun _ => .response 200 "OK") quotedRow .quoteGenerated [] patient hookedDb hookedDb_webhook rfl
    (fun _ hrow => absurd hrow List.not_mem_nil) (fun _ => rfl) fun _ => nofun

/-- One request is sent to an endpoint that is down; the row is counted up to five, and stays pending. -/
theorem requests_stop :
    ((List.range 6).map fun n =>
      let t := retried "d" (fun _ => .rejected "down") quotedRow .quoteGenerated [] patient hookedDb n
      (requests t.log, t.db.deliveries.rows.map fun d => (d.status, d.attemptCount, d.nextRetryAt))) =
      [(1, [(.pending, 1, some 1000)]), (1, [(.pending, 2, some 601000)]), (1, [(.pending, 3, some 1205000)]),
       (1, [(.pending, 4, some 1830000)]), (1, [(.pending, 5, some 2700000)]), (1, [(.pending, 5, some 2700000)])] ∧
    ¬ OnSchedule "d" (fun _ => .rejected "down") quotedRow .quoteGenerated [] patient hookedDb := by
  refine ⟨by decide +kernel, ?_⟩
  exact not_onSchedule (fun _ => .rejected "down") [] hookedDb_webhook rfl (fun _ hrow => absurd hrow List.not_mem_nil)
    (fun _ => rfl) (fun _ => nofun) rfl

end NexoraGateway.Intent
