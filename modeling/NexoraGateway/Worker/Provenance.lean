import NexoraGateway.Async.Past
import NexoraGateway.Jobs.Consistency
import NexoraGateway.Worker.Composition
import NexoraGateway.Worker.Evidence

/-!
# Where a recorded deposit comes from (`worker/src/deposit-watcher.ts`, `worker/src/job-handlers.ts`)

Between a transfer that a chain client delivers and the event in the log of an intent stand a lookup, a job in the
database, a claim by some worker and an operation of the service, with anything in between them. A `Credit` is what
the job asks to record. `ledger` is the discipline of the tasks: a job is enqueued for a transfer that was delivered
and an intent that a lookup found awaiting it, and an event is recorded for a job. Neither the lookup's finding nor
the job's state need be so any longer when the event is recorded, so the finding is remembered (`Past`).

* `deposits_delivered` — what stands behind each deposit event.
* `deposits_attributed` — the transfers with one idempotency key are credited to one intent.
-/
namespace NexoraGateway.Worker

open Async Store
open Intent (PaymentIntent IntentEvent EventType Op)

/-! ## Jobs that ask to record a deposit -/

/-- What a `deposit.record` job asks to record. -/
structure Credit where
  intentId : Id
  txHash : String
  sourceChain : String
  sourceAsset : String
  amount : ℚ

/-- The fields that `handleDepositRecord` reads. -/
def readCredit (payload : Payload) : Except Jobs.JsError Credit := do
  let intentId ← requireString payload "intentId"
  let txHash ← requireString payload "txHash"
  let sourceChain ← requireString payload "sourceChain"
  let sourceAsset ← requireString payload "sourceAsset"
  let amount ← requireNumber payload "amount"
  return { intentId, txHash, sourceChain, sourceAsset, amount }

theorem requireNumber_ok {payload : Payload} {key : String} {value : ℚ} (h : requireNumber payload key = .ok value) :
    payload.get? key = some (.num value) := by
  unfold requireNumber at h
  split at h
  · rename_i value' hget
    cases h
    exact hget
  · cases h

theorem readCredit_ok {payload : Payload} {c : Credit} (h : readCredit payload = .ok c) :
    payload.get? "intentId" = some (.str c.intentId) ∧ payload.get? "txHash" = some (.str c.txHash) ∧
      payload.get? "sourceChain" = some (.str c.sourceChain) ∧
      payload.get? "sourceAsset" = some (.str c.sourceAsset) ∧ payload.get? "amount" = some (.num c.amount) := by
  simp only [readCredit, bind_eq_ok] at h
  obtain ⟨intentId, hid, txHash, hhash, chain, hchain, asset, hasset, amount, hamount, h⟩ := h
  cases h
  exact ⟨requireString_ok hid, requireString_ok hhash, requireString_ok hchain, requireString_ok hasset,
    requireNumber_ok hamount⟩

def Credit.record (c : Credit) : Intent.Task PaymentIntent :=
  Intent.recordDeposit c.intentId c.txHash c.amount c.sourceChain c.sourceAsset

theorem handleDepositRecord_credit (job : Jobs.JobRecord) : handleDepositRecord job =
    (Prog.ofExcept (readCredit job.payload)).bind fun c => (service c.record).bind fun _ => Prog.ret () := by
  unfold handleDepositRecord readCredit
  cases requireString job.payload "intentId" with
  | error e => rfl
  | ok intentId =>
    cases requireString job.payload "txHash" with
    | error e => rfl
    | ok txHash =>
      cases requireString job.payload "sourceChain" with
      | error e => rfl
      | ok sourceChain =>
        cases requireString job.payload "sourceAsset" with
        | error e => rfl
        | ok sourceAsset => cases requireNumber job.payload "amount" <;> rfl

/-- The credit that a job asks to record. -/
def credit? (jobType : String) (payload : Payload) : Option Credit :=
  if jobType = jobDepositRecord then (readCredit payload).toOption else none

theorem credit?_eq_some {jobType : String} {payload : Payload} {c : Credit} :
    credit? jobType payload = some c ↔ jobType = jobDepositRecord ∧ readCredit payload = .ok c := by
  unfold credit?
  split
  · rename_i htype
    cases readCredit payload <;> simp [htype, Except.toOption]
  · rename_i htype
    simp [htype]

/-- The events that name a transfer. -/
def depositEvents : List EventType := [.depositDetected, .underpaymentDetected, .overpaymentDetected]

/-- Where an event keeps the amount that was received. -/
def amountField : EventType → String
  | .depositDetected => "amount"
  | _ => "received"

/-- The event names the credit. -/
structure Credit.Names (c : Credit) (eventType : EventType) (payload : Payload) : Prop where
  txHash : payload.get? "tx_hash" = some (.str c.txHash)
  sourceChain : payload.get? "source_chain" = some (.str c.sourceChain)
  sourceAsset : payload.get? "source_asset" = some (.str c.sourceAsset)
  amount : payload.get? (amountField eventType) = some (.num c.amount)

/-- A deposit event, if the call records one, is of the credit's intent and names the credit. -/
def Credit.Records (c : Credit) : Intent.Call → Prop
  | .transition id eventType payload => eventType ∈ depositEvents → id = c.intentId ∧ c.Names eventType payload
  | _ => True

section
variable (c : Credit)

/-- A call that records no deposit event. -/
theorem records_of_within {events : List EventType} (hevents : ∀ e ∈ events, e ∉ depositEvents) {a : Intent.Call}
    (ha : a.Within events) : c.Records a := by
  cases a with
  | transition id eventType payload => exact fun h => absurd h (hevents _ ha)
  | _ => trivial

theorem transitionAndNotify_credits {id : Id} {eventType : EventType} {payload data : Payload} (hid : id = c.intentId)
    (h : c.Names eventType payload) :
    (Intent.transitionAndNotify id eventType payload data).Only c.Records fun _ => True := by
  refine Prog.Only.bind (Prog.Only.await fun _ => ⟨hid, h⟩) fun updated => Prog.Only.bind ?_ fun _ => Prog.Only.ret _
  have hdeliver : Intent.Records [] (Intent.deliverWebhook updated eventType data) :=
    Intent.deliverWebhook_records updated eventType data
  exact hdeliver.weaken fun a => records_of_within c fun _ he => absurd he List.not_mem_nil

theorem classifyDeposit_credits (intent : PaymentIntent) :
    (Intent.classifyDeposit intent c.intentId c.txHash c.amount c.sourceChain c.sourceAsset).Only c.Records
      fun _ => True := by
  unfold Intent.classifyDeposit
  dsimp only
  split
  · exact transitionAndNotify_credits c rfl ⟨rfl, rfl, rfl, rfl⟩
  · split
    · exact transitionAndNotify_credits c rfl ⟨rfl, rfl, rfl, rfl⟩
    · exact Prog.Only.bind (Prog.Only.await trivial) fun _ => transitionAndNotify_credits c rfl ⟨rfl, rfl, rfl, rfl⟩

theorem detectDeposit_credits :
    (Intent.detectDeposit c.intentId c.txHash c.amount c.sourceChain c.sourceAsset).Only c.Records
      fun _ => True := by
  refine Prog.Only.bind (Prog.Only.await trivial) fun intent => ?_
  cases intent with
  | none => exact Prog.Only.throw trivial
  | some intent =>
    dsimp only
    split
    · exact classifyDeposit_credits c intent
    · refine Prog.Only.bind (Prog.Only.await trivial) fun now => ?_
      split
      · have hexpired (expiredAt : Time) : c.Records
            (.transition c.intentId .quoteExpired [("expired_at", .date expiredAt)]) :=
          fun h => absurd h (by decide)
        refine Prog.Only.bind (Prog.Only.await trivial) fun expiredAt =>
          Prog.Only.bind (Prog.Only.await (hexpired expiredAt)) fun _ => Prog.Only.throw trivial
      · exact classifyDeposit_credits c intent

/-- **Recording a credit records no other.** -/
theorem record_credits : c.record.Only c.Records fun _ => True := by
  have hrecover (e : Intent.IntentError) : (Intent.recoverExpired c.intentId e).Only c.Records fun _ => True := by
    cases e with
    | quoteExpired id =>
      refine Prog.Only.bind (Prog.Only.await trivial) fun expired => ?_
      cases expired with
      | none => exact Prog.Only.throw trivial
      | some expired => exact Prog.Only.ret _
    | _ => exact Prog.Only.throw trivial
  have hdetect := (detectDeposit_credits c).tryCatch fun e _ => hrecover e
  refine Prog.Only.bind (Prog.Only.await trivial) fun intent => ?_
  cases intent with
  | none => exact Prog.Only.throw trivial
  | some intent =>
    dsimp only
    split
    · exact Prog.Only.ret _
    · split
      · have hawait : Intent.Records [.paymentAwaited] (Intent.awaitPayment c.intentId) :=
          Intent.awaitPayment_records List.mem_cons_self c.intentId
        exact Prog.Only.bind (hawait.weaken fun a => records_of_within c (by decide)) fun _ => hdetect
      · exact hdetect

end

/-! ## What the tasks go by -/

/-- An intent awaits a deposit there. -/
def AwaitedBy (chainId address : String) (id : Id) (db : Jobs.Db worker) : Prop :=
  ∃ row ∈ db.outer.intents.intents.rows, row.id = id ∧ row.depositChain = some chainId ∧
    row.depositAddress = some address ∧ row.state ∈ Intent.acceptsDeposit

/-- The credit is for the transfer. -/
structure Credit.Of (c : Credit) (chainId : String) (event : DepositEvent) : Prop where
  txHash : c.txHash = event.txHash
  sourceChain : c.sourceChain = chainId
  sourceAsset : c.sourceAsset = event.asset.symbol
  amount : normalizeAmount event.amount event.asset.decimals = some c.amount

/-- A job asks to record the credit. -/
def Ordered (c : Credit) (db : Jobs.Db worker) : Prop :=
  ∃ row ∈ db.jobs.rows, credit? row.jobType row.payload = some c

/-- What a task can know of a deposit. -/
inductive DepositFact where
  | awaited (chainId address : String) (id : Id)
  | ordered (c : Credit)

def DepositFact.Holds (t : Past (Jobs.Db worker)) : DepositFact → Prop
  | awaited chainId address id => t.Was (AwaitedBy chainId address id)
  | ordered c => Ordered c t.current

section
variable (delivered : String → DepositEvent → Prop)

/-- A `deposit.record` job is enqueued for a transfer that was delivered and an intent that was found awaiting it; a
deposit event is recorded for a claimed job. -/
def ledger : Knowledge (Jobs.Call worker) Jobs.Answer (Past (Jobs.Db worker)) DepositFact where
  Holds t f := f.Holds t
  ok facts
    | .enqueue _ jobType payload key .. => ∀ c, credit? jobType payload = some c →
      ∃ chainId event, delivered chainId event ∧ c.Of chainId event ∧ key = depositIdempotencyKey chainId event ∧
        .awaited chainId event.to c.intentId ∈ facts
    | .outer _ (.intent (.transition id eventType payload)) => eventType ∈ depositEvents →
      ∃ c, .ordered c ∈ facts ∧ id = c.intentId ∧ c.Names eventType payload
    | _ => True
  rely _ _ := True
  learns
    | .claimBatch .., .ok jobs =>
      (List.filterMap (fun job => credit? job.jobType job.payload) jobs).map DepositFact.ordered
    | .outer _ (.findAwaitingDepositAt chainId address), .ok (some intent) =>
      [.awaited chainId address (PaymentIntent.id intent)]
    | _, _ => []

/-- What stands behind a credit that a job asks to record. -/
def Backing (key : String) (c : Credit) (t : Past (Jobs.Db worker)) : Prop :=
  ∃ chainId event, delivered chainId event ∧ c.Of chainId event ∧ key = depositIdempotencyKey chainId event ∧
    t.Was (AwaitedBy chainId event.to c.intentId)

/-- Something stands behind each job and a job behind each deposit event that was not there at the start. -/
structure Kept (start : List IntentEvent) (t : Past (Jobs.Db worker)) : Prop where
  jobs : ∀ row ∈ t.current.jobs.rows, ∀ c, credit? row.jobType row.payload = some c →
    Backing delivered row.idempotencyKey c t
  events : ∀ e ∈ t.current.outer.intents.events, e.eventType ∈ depositEvents → e ∈ start ∨
    ∃ c, Ordered c t.current ∧ e.intentId = c.intentId ∧ c.Names e.eventType e.payload

end

/-! ## One call -/

variable {delivered : String → DepositEvent → Prop} {start : List IntentEvent}

/-- Jobs are not withdrawn. -/
theorem Ordered.step {c : Credit} {db : Jobs.Db worker} (h : Ordered c db) (a : Jobs.Call worker)
    (o : Jobs.Oracle worker) : Ordered c (Jobs.handle a o db).2 := by
  obtain ⟨row, hrow, hc⟩ := h
  obtain ⟨row', hrow', heff⟩ := (Jobs.handle_effect a o db).row hrow
  obtain ⟨-, -, htype, hpayload, -, -⟩ := heff.kept
  exact ⟨row', hrow', by rw [htype, hpayload, hc]⟩

theorem holds_step {f : DepositFact} {t : Past (Jobs.Db worker)} (hf : f.Holds t) (a : Jobs.Call worker)
    (o : Jobs.Oracle worker) : f.Holds (remembering Jobs.handle a o t).2 := by
  cases f with
  | awaited chainId address id => exact hf.push _
  | ordered c => exact Ordered.step hf a o

theorem findAwaitingDepositAt_awaits {chainId address : String} {db : Jobs.Db worker} {intent : PaymentIntent}
    (h : findAwaitingDepositAt chainId address db.outer.intents = some intent) :
    AwaitedBy chainId address intent.id db := by
  simp only [findAwaitingDepositAt, Option.map_eq_some_iff] at h
  obtain ⟨row, hrow, rfl⟩ := h
  have hmem := List.mem_of_mem_head? hrow
  simp only [List.mem_insertionSort, List.mem_filter, decide_eq_true_eq] at hmem
  exact ⟨row, hmem.1, rfl, hmem.2⟩

theorem ledger_learned (a : Jobs.Call worker) (o : Jobs.Oracle worker) (t : Past (Jobs.Db worker)) :
    ∀ f ∈ (ledger delivered).learns a (remembering Jobs.handle a o t).1, f.Holds (remembering Jobs.handle a o t).2 := by
  intro f hf
  refine holds_step ?_ a o
  change f ∈ (ledger delivered).learns a (Jobs.handle a o t.current).1 at hf
  cases hr : (Jobs.handle a o t.current).1 with
  | error e =>
    rw [hr] at hf
    cases a with
    | outer job b => cases b <;> exact absurd hf List.not_mem_nil
    | _ => exact absurd hf List.not_mem_nil
  | ok x =>
    rw [hr] at hf
    cases a with
    | claimBatch queue limit workerId =>
      obtain ⟨batch, rfl, hbatch, -⟩ := Jobs.claimBatch_ok hr
      simp only [ledger, List.mem_map, List.mem_filterMap] at hf
      obtain ⟨c, ⟨job, ⟨locked, ⟨row, hrow, rfl⟩, rfl⟩, hc⟩, rfl⟩ := hf
      exact ⟨row, (hbatch row hrow).1, hc⟩
    | outer job b =>
      cases b with
      | findAwaitingDepositAt chainId address =>
        have hlookup : (handle (.findAwaitingDepositAt chainId address) o.outer t.current.outer).1 = .ok x := hr
        have hanswer : findAwaitingDepositAt chainId address t.current.outer.intents = x := (request_ok hlookup).2
        cases x with
        | none => exact absurd hf List.not_mem_nil
        | some intent =>
          obtain rfl := List.mem_singleton.1 hf
          exact Past.was_now (findAwaitingDepositAt_awaits hanswer)
      | intent | findByState | getEvents | getTransactionStatus => exact absurd hf List.not_mem_nil
    | enqueue | writeOutcome | reclaimStale | random | sleep => exact absurd hf List.not_mem_nil

/-- An event after a call of the service was there before, begins an intent, or is the one that the call records. -/
theorem mem_events_of_handle {b : Intent.Call} {o : Intent.Oracle} {db : Intent.Db} {e : IntentEvent}
    (he : e ∈ (Intent.handle b o db).2.events) :
    e ∈ db.events ∨ e.eventType = .intentCreated ∨ b = .transition e.intentId e.eventType e.payload := by
  have heff := Intent.handle_effect b o db
  generalize (Intent.handle b o db).2.toTables = tables at heff he
  cases heff with
  | unchanged | requoted => exact .inl he
  | created =>
    rcases List.mem_append.1 he with hold | hnew
    · exact .inl hold
    · exact .inr (.inl (by rw [List.mem_singleton.1 hnew]))
  | @transitioned id eventType payload row o hrow hedge =>
    rcases List.mem_append.1 he with hold | hnew
    · exact .inl hold
    · rw [List.mem_singleton.1 hnew, (Table.find?_eq_some.1 hrow).2]
      exact .inr (.inr rfl)

theorem ledger_kept (a : Jobs.Call worker) (o : Jobs.Oracle worker) {t : Past (Jobs.Db worker)}
    {facts : List DepositFact} (ht : Kept delivered start t) (hfacts : ∀ f ∈ facts, f.Holds t)
    (hok : (ledger delivered).ok facts a) : Kept delivered start (remembering Jobs.handle a o t).2 := by
  constructor
  · intro row' hrow' c hc
    rcases (Jobs.handle_effect a o t.current).row_of hrow' with
      ⟨queue, jobType, payload, key, maxAttempts, delayMs, rfl, -, -, -, hnew⟩ | ⟨row, hrow, heff⟩
    · rw [hnew] at hc ⊢
      obtain ⟨chainId, event, hdelivered, hof, hkey, hawaited⟩ := hok c hc
      exact ⟨chainId, event, hdelivered, hof, hkey, (hfacts _ hawaited).push _⟩
    · obtain ⟨-, -, htype, hpayload, hkey, -⟩ := heff.kept
      rw [htype, hpayload] at hc
      obtain ⟨chainId, event, hdelivered, hof, hkey', hawaited⟩ := ht.jobs row hrow c hc
      exact ⟨chainId, event, hdelivered, hof, hkey.trans hkey', hawaited.push _⟩
  · intro e he hdeposit
    have hbefore (hold : e ∈ t.current.outer.intents.events) : e ∈ start ∨
        ∃ c, Ordered c (Jobs.handle a o t.current).2 ∧ e.intentId = c.intentId ∧ c.Names e.eventType e.payload := by
      refine (ht.events e hold hdeposit).imp_right ?_
      rintro ⟨c, hordered, hnames⟩
      exact ⟨c, hordered.step a o, hnames⟩
    rcases step_intents a o t.current with ⟨job, b, rfl, hintents⟩ | hintents
    · change e ∈ (Jobs.handle _ o t.current).2.outer.intents.events at he
      rw [hintents] at he
      rcases mem_events_of_handle he with hold | hcreated | rfl
      · exact hbefore hold
      · rw [hcreated] at hdeposit
        exact absurd hdeposit (by decide)
      · obtain ⟨c, hordered, hid, hnames⟩ := hok hdeposit
        exact .inr ⟨c, Ordered.step (hfacts _ hordered) _ o, hid, hnames⟩
    · change e ∈ (Jobs.handle a o t.current).2.outer.intents.events at he
      rw [hintents] at he
      exact hbefore he

/-! ## The tasks -/

variable {α : Type} {facts : List DepositFact}

/-- An operation whose calls are justified. -/
theorem ledger_service {ok : Intent.Call → Prop} {p : Intent.Task α} (hp : p.Only ok fun _ => True)
    (job : Option Jobs.JobRecord)
    (hok : ∀ a, ok a → ∀ facts', facts ⊆ facts' →
      (ledger delivered).ok facts' (.outer (X := worker) job (Call.intent a))) :
    (ledger delivered).Justifies facts (Jobs.within job (service p)) := by
  induction p generalizing facts with
  | ret x => trivial
  | throw e => trivial
  | call a k ih =>
    rw [service, Jobs.within]
    refine ⟨hok a hp.1 facts (List.Subset.refl _), fun r _ => ?_⟩
    cases r with
    | error e => trivial
    | ok r =>
      exact ih r (hp.2 r fun _ _ => trivial) fun a ha facts' hsub =>
        hok a ha facts' (List.Subset.trans (List.subset_append_left _ _) hsub)

/-- An operation that records no deposit event. -/
theorem ledger_records {events : List EventType} (hevents : ∀ e ∈ events, e ∉ depositEvents) {p : Intent.Task α}
    (hp : Intent.Records events p) (job : Option Jobs.JobRecord) :
    (ledger delivered).Justifies facts (Jobs.within job (service p)) :=
  ledger_service hp job fun a ha facts' _ => by
    cases a with
    | transition id eventType payload => exact fun h => absurd h (hevents _ ha)
    | _ => trivial

theorem ledger_record {c : Credit} (hc : .ordered c ∈ facts) (job : Option Jobs.JobRecord) :
    (ledger delivered).Justifies facts (Jobs.within job (service c.record)) :=
  ledger_service (record_credits c) job fun a ha facts' hsub => by
    cases a with
    | transition id eventType payload =>
      intro h
      obtain ⟨hid, hnames⟩ := ha h
      exact ⟨c, hsub hc, hid, hnames⟩
    | _ => trivial

theorem ledger_handler {job : Jobs.JobRecord} {handler : Jobs.JobRecord → Routine Unit}
    (hhandler : jobHandlers job.jobType = some handler)
    (hjob : ∀ c, credit? job.jobType job.payload = some c → .ordered c ∈ facts) :
    (ledger delivered).Justifies facts (Jobs.within (some job) (handler job)) := by
  unfold jobHandlers at hhandler
  split at hhandler
  · rename_i htype
    cases hhandler
    rw [handleDepositRecord_credit]
    cases hread : readCredit job.payload with
    | error e => trivial
    | ok c =>
      rw [Prog.ofExcept_ok, Prog.ret_bind, Jobs.within_bind]
      refine Knowledge.justifies_bind ?_ fun _ _ _ => trivial
      exact ledger_record (hjob c (credit?_eq_some.2 ⟨htype, hread⟩)) (some job)
  · split at hhandler
    · cases hhandler
      unfold handleDepositConfirm
      cases requireString job.payload "intentId" with
      | error e => trivial
      | ok intentId =>
        cases requireNumber job.payload "confirmations" with
        | error e => trivial
        | ok confirmations =>
          change (ledger delivered).Justifies facts (Jobs.within (some job)
            ((service (Intent.confirmDeposit intentId confirmations)).bind fun _ => Prog.ret ()))
          rw [Jobs.within_bind]
          refine Knowledge.justifies_bind ?_ fun _ _ _ => trivial
          have hrecords : Intent.Records [.confirmationReceived] (Intent.confirmDeposit intentId confirmations) :=
            Intent.advanceIntent_records List.mem_cons_self intentId _ _
          exact ledger_records (by decide) hrecords (some job)
    · split at hhandler
      · cases hhandler
        trivial
      · cases hhandler

section
variable (options : Jobs.JobQueueOptions)

theorem ledger_processJob {job : Jobs.JobRecord}
    (hjob : ∀ c, credit? job.jobType job.payload = some c → .ordered c ∈ facts) :
    (ledger delivered).Justifies facts (Jobs.processJob options jobHandlers job) := by
  have hfail (attemptCount : Int) (error : Jobs.JsError) (facts : List DepositFact) :
      (ledger delivered).Justifies facts ((Jobs.fail options job attemptCount error none).bind fun _ => Prog.ret ()) :=
    Knowledge.justifies_bind
      (Jobs.justifies_fail options (fun _ => trivial) (fun _ _ _ => trivial) attemptCount error none)
      fun _ _ _ => trivial
  unfold Jobs.processJob
  split
  · exact hfail _ _ facts
  · rename_i handler hhandler
    refine Knowledge.justifies_tryCatch ?_ fun error facts' _ => hfail _ error facts'
    exact Knowledge.justifies_bind (ledger_handler hhandler hjob) fun _ facts' _ => Knowledge.justifies_await trivial

theorem ledger_loop (queueName : String) (n : Nat) :
    (ledger delivered).Justifies facts (Jobs.run options jobHandlers queueName n) := by
  refine Jobs.justifies_run options jobHandlers (fun _ => trivial) (fun _ => trivial) (fun _ => trivial) ?_ n
  intro facts batch _ job hjob facts' hsub
  refine ledger_processJob options fun c hc => hsub (List.mem_append_right _ (List.mem_map_of_mem ?_))
  exact List.mem_filterMap.2 ⟨job, hjob, hc⟩

/-- The job that an awaited transfer is enqueued as asks to record it, unless its amount is not a number. -/
theorem credit?_deposit {chainId : String} {event : DepositEvent} {intent : PaymentIntent} {c : Credit}
    (h : credit? jobDepositRecord
      [("intentId", .str intent.id), ("txHash", .str event.txHash),
       ("amount", .ofOption .num (normalizeAmount event.amount event.asset.decimals)),
       ("sourceChain", .str chainId), ("sourceAsset", .str event.asset.symbol),
       ("blockNumber", .num event.blockNumber)] = some c) :
    c.intentId = intent.id ∧ c.Of chainId event := by
  obtain ⟨hid, hhash, hchain, hasset, hamount⟩ := readCredit_ok (credit?_eq_some.1 h).2
  refine ⟨?_, ⟨?_, ?_, ?_, ?_⟩⟩
  · exact (Json.str.inj (Option.some.inj hid)).symm
  · exact (Json.str.inj (Option.some.inj hhash)).symm
  · exact (Json.str.inj (Option.some.inj hchain)).symm
  · exact (Json.str.inj (Option.some.inj hasset)).symm
  · have hnum : Json.ofOption .num (normalizeAmount event.amount event.asset.decimals) = .num c.amount :=
      Option.some.inj hamount
    cases hvalue : normalizeAmount event.amount event.asset.decimals with
    | none =>
      rw [hvalue] at hnum
      cases hnum
    | some value =>
      rw [hvalue] at hnum
      rw [Json.num.inj hnum]

theorem ledger_onDeposit {chainId : String} {event : DepositEvent} (hdelivered : delivered chainId event) :
    (ledger delivered).Justifies facts (onDeposit options chainId event) := by
  rw [onDeposit_eq]
  refine ⟨trivial, fun r _ => ?_⟩
  cases r with
  | error e => trivial
  | ok intent =>
    change (ledger delivered).Justifies _ (enqueueDeposit options chainId event intent)
    cases intent with
    | none =>
      refine Knowledge.justifies_bind (Knowledge.justifies_await fun c hc => ?_) fun _ _ _ => trivial
      cases hc
    | some intent =>
      refine Knowledge.justifies_bind (Knowledge.justifies_await fun c hc => ?_) fun _ _ _ => trivial
      obtain ⟨hid, hof⟩ := credit?_deposit hc
      refine ⟨chainId, event, hdelivered, hof, rfl, List.mem_append_right _ ?_⟩
      rw [hid]
      exact List.mem_singleton_self _

theorem ledger_sweep (chains : List ChainClient) (batchSize : Option Nat) :
    (ledger delivered).Justifies facts (sweep options chains batchSize) := by
  have honly : (sweep options chains batchSize).Only (fun a => ∀ facts, (ledger delivered).ok facts a) fun _ => True :=
    sweep_only options chains batchSize (fun _ => trivial) (fun _ _ => trivial) (fun _ _ _ => trivial)
      fun _ _ _ _ _ c hc => by cases hc
  exact honly.obeys (fun facts _ ha => ha facts) facts

end

/-- What runs: queue loops, callbacks for transfers that were delivered, sweeps, and operations that clients of the
service call, of which only a job handler records deposits. The worker only logs what a task of its own rejects with. -/
inductive Part (delivered : String → DepositEvent → Prop) : Task Unit → Prop
  | loop (options : Jobs.JobQueueOptions) (queueName : String) (n : Nat) :
      Part delivered (Jobs.run options jobHandlers queueName n)
  | deposit (options : Jobs.JobQueueOptions) {chainId : String} {event : DepositEvent}
      (hdelivered : delivered chainId event) : Part delivered (onDeposit options chainId event)
  | sweep (options : Jobs.JobQueueOptions) (chains : List ChainClient) (batchSize : Option Nat) :
      Part delivered (do let _ ← sweep options chains batchSize)
  | op (op : Op) (hrecord : ∀ id txHash amount chain asset, op ≠ .recordDeposit id txHash amount chain asset)
      (hdetect : ∀ id txHash amount chain asset, op ≠ .detectDeposit id txHash amount chain asset) :
      Part delivered (Jobs.within none (service op.task))
  | logged {p : Task Unit} (hp : Part delivered p) : Part delivered (logged p)

theorem ledger_part {p : Task Unit} (hp : Part delivered p) : (ledger delivered).Justifies [] p := by
  induction hp with
  | loop options queueName n => exact ledger_loop options queueName n
  | deposit options hdelivered => exact ledger_onDeposit options hdelivered
  | sweep options chains batchSize =>
    exact Knowledge.justifies_bind (ledger_sweep options chains batchSize) fun _ _ _ => trivial
  | op op hrecord hdetect =>
    refine ledger_records (fun e he => ?_) (Intent.op_records op) none
    cases op with
    | recordDeposit id txHash amount chain asset => exact absurd rfl (hrecord id txHash amount chain asset)
    | detectDeposit id txHash amount chain asset => exact absurd rfl (hdetect id txHash amount chain asset)
    | createIntent => exact absurd he List.not_mem_nil
    | _ =>
      rw [List.mem_singleton.1 he]
      decide
  | logged _ ih => exact Knowledge.justifies_tryCatch ih fun _ _ _ => trivial

/-! ## Every run -/

/-- No jobs yet, and what the intents' tables hold. -/
def begun (clock : Time) (db : Intent.Db) : Jobs.Queue worker := ⟨.fresh clock { intents := db }, []⟩

section
variable (delivered : String → DepositEvent → Prop) (clock : Time) (db : Intent.Db) (cs : Jobs.Schedule worker)
  (htasks : ∀ p, .spawn p ∈ cs → Part delivered p)

include htasks in
theorem worker_kept : ∃ t : Past (Jobs.Db worker), t.current = ((begun clock db).exec Jobs.handle cs).store ∧
    Kept delivered db.events t ∧
    ∀ P, t.Was P → ∃ before, before <+: cs ∧ P ((begun clock db).exec Jobs.handle before).store := by
  have hpart : ∀ p, Part delivered p → (ledger delivered).Justifies [] p := fun p hp => ledger_part hp
  have hinv := Knowledge.exec_knows (h := remembering Jobs.handle) (I := Kept delivered db.events)
    (s := ⟨(begun clock db).store, []⟩) hpart
    (fun t facts a o ht hfacts hok => ⟨trivial, ledger_kept a o ht hfacts hok, fun f hf => holds_step hf a o,
      ledger_learned a o t⟩)
    ⟨fun row hrow => absurd hrow List.not_mem_nil, fun e he _ => .inl he⟩ htasks
  obtain ⟨gs, -, hkept, -⟩ := hinv
  exact ⟨_, congrArg Pool.store (Pool.exec_remembering _ cs), hkept, fun P => Pool.was_exec_start⟩

include htasks in
/-- **Every deposit event stands for a transfer that was delivered**: it names the transaction, the chain, the asset
and the amount of a transfer whose callback was started, and at some earlier moment the intent awaited a deposit at
the address that the transfer went to. -/
theorem deposits_delivered : ∀ e ∈ ((begun clock db).exec Jobs.handle cs).store.outer.intents.events,
    e.eventType ∈ depositEvents → e ∈ db.events ∨
      ∃ (c : Credit) (chainId : String) (event : DepositEvent), delivered chainId event ∧ c.Of chainId event ∧
        e.intentId = c.intentId ∧ c.Names e.eventType e.payload ∧
        ∃ before, before <+: cs ∧
          AwaitedBy chainId event.to c.intentId ((begun clock db).exec Jobs.handle before).store := by
  obtain ⟨t, hstore, hkept, hpast⟩ := worker_kept delivered clock db cs htasks
  intro e he hdeposit
  rw [← hstore] at he
  refine (hkept.events e he hdeposit).imp_right ?_
  rintro ⟨c, ⟨row, hrow, hc⟩, hid, hnames⟩
  obtain ⟨chainId, event, hdelivered, hof, -, hwas⟩ := hkept.jobs row hrow c hc
  exact ⟨c, chainId, event, hdelivered, hof, hid, hnames, hpast _ hwas⟩

/-- The only transfer that was delivered. -/
def OnlyTransfer (chainId : String) (event : DepositEvent) : Prop := chainId = "ethereum" ∧ event = transfer

/-- The transfer is observed, a worker records it, and it is observed again. -/
def observedAndRecorded : Jobs.Schedule worker :=
  [.spawn (logged (onDeposit (queueOptions config) "ethereum" transfer)), step 0, step 0,
    .spawn (Jobs.run { workerId := "w" } jobHandlers queueDeposits 1)] ++ List.replicate 12 (step 1) ++
    [.spawn (logged (onDeposit (queueOptions config) "ethereum" transfer)), step 2, step 2]

theorem observedAndRecorded_parts : ∀ p, .spawn p ∈ observedAndRecorded → Part OnlyTransfer p := by
  intro p hp
  simp only [observedAndRecorded, step, List.cons_append, List.nil_append, List.mem_append,
    List.mem_cons, List.mem_replicate, Choice.spawn.injEq, reduceCtorEq, and_false, or_false, false_or,
    List.not_mem_nil] at hp
  rcases hp with rfl | rfl | rfl
  · exact .logged (.deposit _ ⟨rfl, rfl⟩)
  · exact .loop _ _ _
  · exact .logged (.deposit _ ⟨rfl, rfl⟩)

/-- The rule in that run, which does record the deposit. -/
theorem deposits_delivered_observed :
    ∃ e ∈ ((begun 0 Intent.quotedDb).exec Jobs.handle observedAndRecorded).store.outer.intents.events,
      e.eventType = .depositDetected ∧ (e ∈ Intent.quotedDb.events ∨
        ∃ (c : Credit) (chainId : String) (event : DepositEvent), OnlyTransfer chainId event ∧ c.Of chainId event ∧
          e.intentId = c.intentId ∧ c.Names e.eventType e.payload ∧
          ∃ before, before <+: observedAndRecorded ∧ AwaitedBy chainId event.to c.intentId
            ((begun 0 Intent.quotedDb).exec Jobs.handle before).store) := by
  have hevent : ∃ e ∈ ((begun 0 Intent.quotedDb).exec Jobs.handle observedAndRecorded).store.outer.intents.events,
      e.eventType = .depositDetected := by decide +kernel
  obtain ⟨e, he, htype⟩ := hevent
  refine ⟨e, he, htype, ?_⟩
  exact deposits_delivered OnlyTransfer 0 Intent.quotedDb observedAndRecorded observedAndRecorded_parts e he
    (by rw [htype]; decide)

include htasks in
/-- **A transfer is credited to one intent**, however often it is delivered and whoever claims its job: the deposit
events follow a map from idempotency keys to intents. -/
theorem deposits_attributed : ∃ intentOf : String → Id,
    ∀ e ∈ ((begun clock db).exec Jobs.handle cs).store.outer.intents.events,
      e.eventType ∈ depositEvents → e ∈ db.events ∨
        ∃ (c : Credit) (chainId : String) (event : DepositEvent), delivered chainId event ∧ c.Of chainId event ∧
          c.Names e.eventType e.payload ∧ e.intentId = intentOf (depositIdempotencyKey chainId event) := by
  obtain ⟨t, hstore, hkept, -⟩ := worker_kept delivered clock db cs htasks
  have hkeys : (t.current.jobs.rows.map Jobs.Job.idempotencyKey).Nodup := by
    rw [hstore]
    exact (Jobs.exec_consistent [] clock _ cs).keys
  let jobs : Table Jobs.Job.idempotencyKey := ⟨t.current.jobs.rows, hkeys⟩
  let creditAt (key : String) : Option Credit := (jobs.find? key).bind fun row => credit? row.jobType row.payload
  refine ⟨fun key => (creditAt key).elim "" Credit.intentId, fun e he hdeposit => ?_⟩
  rw [← hstore] at he
  refine (hkept.events e he hdeposit).imp_right ?_
  rintro ⟨c, ⟨row, hrow, hc⟩, hid, hnames⟩
  obtain ⟨chainId, event, hdelivered, hof, hkey, -⟩ := hkept.jobs row hrow c hc
  have hrow' : jobs.find? row.idempotencyKey = some row := Table.find?_eq_some.2 ⟨hrow, rfl⟩
  refine ⟨c, chainId, event, hdelivered, hof, hnames, ?_⟩
  simp only [creditAt, ← hkey, hrow', Option.bind_some, hc, Option.elim_some, hid]

/-- The rule in the run in which the transfer is delivered twice. -/
theorem deposits_attributed_observed : ∃ intentOf : String → Id,
    ∀ e ∈ ((begun 0 Intent.quotedDb).exec Jobs.handle observedAndRecorded).store.outer.intents.events,
      e.eventType ∈ depositEvents → e ∈ Intent.quotedDb.events ∨
        ∃ (c : Credit) (chainId : String) (event : DepositEvent), OnlyTransfer chainId event ∧ c.Of chainId event ∧
          c.Names e.eventType e.payload ∧ e.intentId = intentOf (depositIdempotencyKey chainId event) :=
  deposits_attributed OnlyTransfer 0 Intent.quotedDb observedAndRecorded observedAndRecorded_parts

end

end NexoraGateway.Worker
