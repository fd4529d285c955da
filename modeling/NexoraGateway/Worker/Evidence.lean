import NexoraGateway.Async.Knowledge
import NexoraGateway.Intent.Operations
import NexoraGateway.Worker.Observers

/-!
# What a confirmation is enqueued on

From a sweep's reading to the transition there is a job in between, which may be claimed much later, twice, or
by another worker. What it was enqueued on stays true: the rows that a sweep has seen, the events it has read
and the statuses it was answered are never taken back. `Vouches` is the evidence on which a sweep enqueues a
confirmation; `evidence` is the discipline of the tasks, that of a handler being to confirm only what its job
stands for.
-/
namespace NexoraGateway.Worker

open Async Store
open Intent (PaymentIntent IntentEvent Op)

/-- What a sweep has read about an intent, and that it is enough. -/
structure Vouches (id : Id) (intent : PaymentIntent) (e : IntentEvent) (report : Report) : Prop where
  seen : intent.id = id ∧ intent.depositChain = some report.client.chainId
  detected : e.intentId = id ∧ e.eventType = .depositDetected ∧
    e.payload.get? "tx_hash" = some (.str report.txHash)
  notFailed : report.status.status ≠ .failed
  deep : report.client.confirmationDepth ≤ report.status.confirmations

/-- A sweep has read enough to have the deposit of `id` confirmed. -/
def Vouched (s : State) (id : Id) : Prop :=
  ∃ intent ∈ s.seen, ∃ e ∈ s.intents.events, ∃ report ∈ s.reports, Vouches id intent e report

/-- What a task can know. -/
inductive Fact where
  | seen (intent : PaymentIntent)
  | recorded (e : IntentEvent)
  | reported (report : Report)
  | vouched (id : Id)

def Fact.Holds (s : State) : Fact → Prop
  | seen intent => intent ∈ s.seen
  | recorded e => e ∈ s.intents.events
  | reported report => report ∈ s.reports
  | vouched id => Vouched s id

/-- The intent that a job confirms the deposit of. -/
def confirms? (jobType : String) (payload : Payload) : Option Id :=
  match payload.get? "intentId" with
  | some (.str id) => if jobType = jobDepositConfirm then some id else none
  | _ => none

/-- A confirmation is enqueued on a sweep's readings, and made for a claimed job. -/
def evidence : Knowledge (Jobs.Call worker) Jobs.Answer (Jobs.Db worker) Fact where
  Holds db f := f.Holds db.outer
  ok facts
    | .enqueue _ jobType payload .. => ∀ id ∈ confirms? jobType payload,
      ∃ intent e report, .seen intent ∈ facts ∧ .recorded e ∈ facts ∧ .reported report ∈ facts ∧
        Vouches id intent e report
    | .outer _ (.intent (.transition id .confirmationReceived _)) => .vouched id ∈ facts
    | _ => True
  rely
    | .outer _ (.getEvents id), r => ∀ events : List IntentEvent, r = .ok events → ∀ e ∈ events, e.intentId = id
    | _, _ => True
  learns
    | .claimBatch .., .ok jobs =>
      (List.filterMap (fun job => confirms? job.jobType job.payload) jobs).map Fact.vouched
    | .outer _ (.findByState ..), .ok rows => List.map Fact.seen rows
    | .outer _ (.getEvents _), .ok events => List.map Fact.recorded events
    | .outer _ (.getTransactionStatus client txHash), .ok status => [.reported ⟨client, txHash, status⟩]
    | _, _ => []

/-- The jobs that confirm a deposit were enqueued on evidence. -/
def Backed (db : Jobs.Db worker) : Prop :=
    ∀ row ∈ db.jobs.rows, ∀ id ∈ confirms? row.jobType row.payload, Vouched db.outer id

/-! ## Nothing is taken back -/

/-- What the state has recorded is never taken back. -/
structure Grows (s s' : State) : Prop where
  seen : s.seen ⊆ s'.seen
  events : s.intents.events ⊆ s'.intents.events
  reports : s.reports ⊆ s'.reports

theorem Grows.refl (s : State) : Grows s s := ⟨List.Subset.refl _, List.Subset.refl _, List.Subset.refl _⟩

theorem Grows.vouched {s s' : State} (h : Grows s s') {id : Id} (hid : Vouched s id) : Vouched s' id := by
  obtain ⟨intent, hseen, e, he, report, hreport, hvouches⟩ := hid
  exact ⟨intent, h.seen hseen, e, h.events he, report, h.reports hreport, hvouches⟩

theorem Grows.holds {s s' : State} (h : Grows s s') {f : Fact} (hf : f.Holds s) : f.Holds s' := by
  cases f with
  | seen intent => exact h.seen hf
  | recorded e => exact h.events hf
  | reported report => exact h.reports hf
  | vouched id => exact h.vouched hf

theorem handle_grows (b : Call) (o : Oracle) (s : State) : Grows s (handle b o s).2 := by
  cases b with
  | intent a =>
    exact ⟨List.Subset.refl _, (Intent.handle_effect a o.intent s.intents).events.subset, List.Subset.refl _⟩
  | findByState state limit =>
    exact request_rule ⟨List.subset_append_left _ _, List.Subset.refl _, List.Subset.refl _⟩ (Grows.refl s)
  | getTransactionStatus client txHash =>
    exact request_rule ⟨List.Subset.refl _, List.Subset.refl _, List.subset_append_left _ _⟩ (Grows.refl s)
  | getEvents | findAwaitingDepositAt => exact request_rule (Grows.refl s) (Grows.refl s)

theorem step_grows (a : Jobs.Call worker) (o : Jobs.Oracle worker) (db : Jobs.Db worker) :
    Grows db.outer (Jobs.handle a o db).2.outer := by
  have heff := Jobs.handle_effect a o db
  cases a with
  | outer job b => exact handle_grows b o.outer db.outer
  | enqueue | claimBatch | writeOutcome | reclaimStale | random | sleep =>
    rw [heff.outer_eq fun job b h => by cases h]
    exact Grows.refl _

/-! ## What is learned is true -/

/-- A rejected call teaches nothing. -/
theorem learns_error (a : Jobs.Call worker) (e : Jobs.JsError) : evidence.learns a (.error e) = [] := by
  cases a with
  | outer job b => cases b <;> rfl
  | enqueue | claimBatch | writeOutcome | reclaimStale | random | sleep => rfl

theorem learned_holds (a : Jobs.Call worker) (o : Jobs.Oracle worker) (db : Jobs.Db worker) (hdb : Backed db) :
    ∀ f ∈ evidence.learns a (Jobs.handle a o db).1, evidence.Holds (Jobs.handle a o db).2 f := by
  have hgrows := step_grows a o db
  intro f hf
  cases hr : (Jobs.handle a o db).1 with
  | error e =>
    rw [hr, learns_error] at hf
    exact absurd hf List.not_mem_nil
  | ok x =>
    rw [hr] at hf
    cases a with
    | enqueue | writeOutcome | reclaimStale | random | sleep => exact absurd hf List.not_mem_nil
    | claimBatch queue limit workerId =>
      obtain ⟨batch, rfl, hbatch, -⟩ := Jobs.claimBatch_ok hr
      simp only [evidence, List.mem_map, List.mem_filterMap] at hf
      obtain ⟨id, ⟨job, ⟨locked, ⟨row, hrow, rfl⟩, rfl⟩, hid⟩, rfl⟩ := hf
      exact hgrows.vouched (hdb row (hbatch row hrow).1 id hid)
    | outer job b =>
      cases b with
      | intent | findAwaitingDepositAt => exact absurd hf List.not_mem_nil
      | findByState state limit =>
        obtain ⟨row, hrow, rfl⟩ := List.mem_map.1 hf
        have hseen : row ∈ (handle (.findByState state limit) o.outer db.outer).2.seen := by
          rw [(findByState_ok (o := o.outer) (s := db.outer) hr).2]
          exact List.mem_append_right _ hrow
        exact hseen
      | getEvents id =>
        obtain rfl := getEvents_ok (o := o.outer) (s := db.outer) hr
        obtain ⟨e, he, rfl⟩ := List.mem_map.1 hf
        exact hgrows.events (mem_getEvents he).2
      | getTransactionStatus client txHash =>
        obtain rfl := List.mem_singleton.1 hf
        have hreported : ⟨client, txHash, x⟩ ∈
            (handle (.getTransactionStatus client txHash) o.outer db.outer).2.reports := by
          rw [getTransactionStatus_ok (o := o.outer) (s := db.outer) hr]
          exact List.mem_append_right _ (List.mem_singleton_self _)
        exact hreported

theorem answer_rely (a : Jobs.Call worker) (o : Jobs.Oracle worker) (db : Jobs.Db worker) :
    evidence.rely a (Jobs.handle a o db).1 := by
  cases a with
  | outer job b =>
    cases b with
    | getEvents id =>
      intro events hr e he
      obtain rfl := getEvents_ok (o := o.outer) (s := db.outer) hr
      exact (mem_getEvents he).1
    | intent | findByState | findAwaitingDepositAt | getTransactionStatus => trivial
  | enqueue | claimBatch | writeOutcome | reclaimStale | random | sleep => trivial

/-- A confirmation is enqueued on evidence, so the jobs stay backed. -/
theorem step_backed (a : Jobs.Call worker) (o : Jobs.Oracle worker) (db : Jobs.Db worker) {facts : List Fact}
    (hdb : Backed db) (hfacts : ∀ f ∈ facts, evidence.Holds db f) (hok : evidence.ok facts a) :
    Backed (Jobs.handle a o db).2 := by
  have hgrows := step_grows a o db
  intro row' hrow' id hid
  refine hgrows.vouched ?_
  rcases (Jobs.handle_effect a o db).row_of hrow' with
    ⟨queue, jobType, payload, key, maxAttempts, delayMs, rfl, -, -, -, hnew⟩ | ⟨row, hrow, heff⟩
  · rw [hnew] at hid
    obtain ⟨intent, e, report, hseen, he, hreport, hvouches⟩ := hok id hid
    exact ⟨intent, hfacts _ hseen, e, hfacts _ he, report, hfacts _ hreport, hvouches⟩
  · obtain ⟨-, -, htype, hpayload, -, -⟩ := heff.kept
    rw [htype, hpayload] at hid
    exact hdb row hrow id hid

/-! ## What the tasks do with what they know -/

variable {α : Type} {facts : List Fact}

/-- An operation may be called that confirms a deposit only where that is justified. -/
theorem justifies_service {ok : Intent.Call → Prop} {p : Intent.Task α} (hp : p.Only ok fun _ => True)
    (job : Option Jobs.JobRecord)
    (hok : ∀ a, ok a → ∀ facts', facts ⊆ facts' → evidence.ok facts' (.outer (X := worker) job (Call.intent a))) :
    evidence.Justifies facts (Jobs.within job (service p)) := by
  induction p generalizing facts with
  | ret x => trivial
  | throw e => trivial
  | call a k ih =>
    rw [service, Jobs.within]
    refine ⟨hok a hp.1 facts (List.Subset.refl _), fun r _ => ?_⟩
    cases r with
    | error e => trivial
    | ok r =>
      exact ih r (hp.2 r fun _ _ => trivial) fun a ha facts' hsub =>
        hok a ha facts' (List.Subset.trans (List.subset_append_left _ _) hsub)

theorem justifies_ofExcept {β : Type} {job : Option Jobs.JobRecord} {r : Except Jobs.JsError β}
    {f : β → Routine α} (hf : ∀ x, r = .ok x → evidence.Justifies facts (Jobs.within job (f x))) :
    evidence.Justifies facts (Jobs.within job ((Prog.ofExcept r).bind f)) := by
  cases r with
  | error e => trivial
  | ok x => exact hf x rfl

variable (options : Jobs.JobQueueOptions)

/-- An operation that records no confirmation. -/
theorem justifies_records {events : List Intent.EventType} (hevents : .confirmationReceived ∉ events)
    {p : Intent.Task α} (hp : Intent.Records events p) (job : Option Jobs.JobRecord) (facts : List Fact) :
    evidence.Justifies facts (Jobs.within job (service p)) :=
  justifies_service hp job fun a ha facts' _ => by
    cases a with
    | transition id eventType payload =>
      cases eventType with
      | confirmationReceived => exact absurd ha hevents
      | _ => trivial
    | _ => trivial

/-- A confirmation, if any, is of `id`. -/
def ConfirmsOnly (id : Id) : Intent.Call → Prop
  | .transition id' .confirmationReceived _ => id' = id
  | _ => True

theorem confirmDeposit_only (id : Id) (confirmations : ℚ) :
    (Intent.confirmDeposit id confirmations).Only (ConfirmsOnly id) fun _ => True := by
  refine Prog.Only.bind (Prog.Only.await trivial) fun intent => ?_
  cases intent with
  | none => exact Prog.Only.throw trivial
  | some intent =>
    refine Prog.Only.bind (Prog.Only.await trivial) fun now => Prog.Only.bind (Prog.Only.await rfl)
      fun updated => ?_
    have hwebhook : (Intent.deliverWebhook updated .confirmationReceived
        [("confirmation_count", .num confirmations)]).Only (ConfirmsOnly id) fun _ => True := by
      refine (Intent.deliverWebhook_only (fun _ => trivial) _ _ _).weaken fun a ha => ?_
      cases a with
      | transition => exact ha.elim
      | _ => trivial
    exact Prog.Only.bind hwebhook fun _ => Prog.Only.ret _

variable {job : Jobs.JobRecord} {facts : List Fact}

theorem justifies_handler {handler : Jobs.JobRecord → Routine Unit}
    (hhandler : jobHandlers job.jobType = some handler)
    (hjob : ∀ id ∈ confirms? job.jobType job.payload, .vouched id ∈ facts) :
    evidence.Justifies facts (Jobs.within (some job) (handler job)) := by
  unfold jobHandlers at hhandler
  split at hhandler
  · cases hhandler
    refine justifies_ofExcept fun intentId _ => justifies_ofExcept fun txHash _ => ?_
    refine justifies_ofExcept fun chain _ => justifies_ofExcept fun asset _ => ?_
    refine justifies_ofExcept fun amount _ => ?_
    rw [Prog.bind_def, Jobs.within_bind]
    refine Knowledge.justifies_bind ?_ fun _ _ _ => trivial
    have hrecords : Intent.Records (Op.recordDeposit intentId txHash amount chain asset).events
        (Intent.recordDeposit intentId txHash amount chain asset) := by
      refine Intent.recordDeposit_records ?_ ?_ ?_ ?_ _ _ _ _ _ ?_
      all_goals simp [Op.events]
    exact justifies_records (by simp [Op.events]) hrecords (some job) facts
  · split at hhandler
    · rename_i htype
      cases hhandler
      refine justifies_ofExcept fun intentId hid => justifies_ofExcept fun confirmations _ => ?_
      rw [Prog.bind_def, Jobs.within_bind]
      refine Knowledge.justifies_bind ?_ fun _ _ _ => trivial
      have hknown : .vouched intentId ∈ facts := by
        refine hjob intentId ?_
        rw [confirms?, requireString_ok hid, htype]
        rfl
      refine justifies_service (confirmDeposit_only intentId confirmations) (some job)
        fun a ha facts' hsub => ?_
      cases a with
      | transition id eventType payload =>
        cases eventType with
        | confirmationReceived =>
          obtain rfl : id = intentId := ha
          exact hsub hknown
        | _ => trivial
      | _ => trivial
    · split at hhandler
      · cases hhandler
        trivial
      · cases hhandler

theorem justifies_processJob (hjob : ∀ id ∈ confirms? job.jobType job.payload, .vouched id ∈ facts) :
    evidence.Justifies facts (Jobs.processJob options jobHandlers job) := by
  have hfail (attemptCount : Int) (error : Jobs.JsError) (facts : List Fact) :
      evidence.Justifies facts ((Jobs.fail options job attemptCount error none).bind fun _ => Prog.ret ()) :=
    Knowledge.justifies_bind
      (Jobs.justifies_fail options (fun _ => trivial) (fun _ _ _ => trivial) attemptCount error none)
      fun _ _ _ => trivial
  unfold Jobs.processJob
  split
  · exact hfail _ _ facts
  · rename_i handler hhandler
    refine Knowledge.justifies_tryCatch ?_ fun error facts' _ => hfail _ error facts'
    exact Knowledge.justifies_bind (justifies_handler hhandler hjob) fun _ facts' _ =>
      Knowledge.justifies_await trivial

theorem justifies_loop (queueName : String) (n : Nat) (facts : List Fact) :
    evidence.Justifies facts (Jobs.run options jobHandlers queueName n) := by
  refine Jobs.justifies_run options jobHandlers (fun _ => trivial) (fun _ => trivial) (fun _ => trivial) ?_ n
  intro facts batch _ job hjob facts' hsub
  refine justifies_processJob options fun id hid => hsub (List.mem_append_right _ (List.mem_map_of_mem ?_))
  exact List.mem_filterMap.2 ⟨job, hjob, hid⟩

theorem justifies_onDeposit (chainId : String) (event : DepositEvent) (facts : List Fact) :
    evidence.Justifies facts (onDeposit options chainId event) := by
  refine Knowledge.justifies_bind (justifies_outer trivial) fun intent facts' _ => ?_
  cases intent with
  | none => exact Knowledge.justifies_bind (Knowledge.justifies_await nofun) fun _ _ _ => trivial
  | some intent =>
    refine Knowledge.justifies_bind (Knowledge.justifies_await fun id hid => ?_) fun _ _ _ => trivial
    cases hid

/-! ## The sweep -/

theorem depositTxHash_eq_some {e : IntentEvent} {txHash : Id} (h : depositTxHash e = some txHash) :
    e.eventType = .depositDetected ∧ e.payload.get? "tx_hash" = some (.str txHash) := by
  unfold depositTxHash at h
  split at h
  · rename_i hash htype hget
    split at h
    · cases h
    · cases h
      exact ⟨htype, hget⟩
  · cases h

/-- A hash that is found is named by a recorded detection. -/
theorem findDepositTxHash_learns (id : Id) (facts : List Fact) :
    (findDepositTxHash id).Obeys evidence.protocol
      (fun facts' out => facts ⊆ facts' ∧ ∀ txHash, out = .ok (some txHash) →
        ∃ e, .recorded e ∈ facts' ∧ e.intentId = id ∧ e.eventType = .depositDetected ∧
          e.payload.get? "tx_hash" = some (.str txHash)) facts := by
  refine ⟨trivial, fun r hr => ?_⟩
  cases r with
  | error e => exact ⟨List.subset_append_left _ _, fun txHash h => by cases h⟩
  | ok events =>
    refine ⟨List.subset_append_left _ _, fun txHash h => ?_⟩
    obtain ⟨e, he, hhash⟩ := List.exists_of_findSome?_eq_some (Except.ok.inj h)
    have hmem := List.mem_reverse.1 he
    exact ⟨e, List.mem_append_right _ (List.mem_map_of_mem hmem), hr events rfl e hmem,
      depositTxHash_eq_some hhash⟩

/-- A status that is looked up was reported. -/
theorem lookup_learns (client : ChainClient) (txHash : Id) (facts : List Fact) :
    (lookup client txHash).Obeys evidence.protocol
      (fun facts' out => facts ⊆ facts' ∧ ∀ status, out = .ok (some status) →
        .reported ⟨client, txHash, status⟩ ∈ facts') facts := by
  refine ⟨trivial, fun r _ => ?_⟩
  cases r with
  | error e => exact ⟨List.subset_append_left _ _, fun status h => by cases h⟩
  | ok status =>
    refine ⟨List.subset_append_left _ _, fun status' h => ?_⟩
    cases h
    exact List.mem_append_right _ (List.mem_singleton_self _)

theorem chainIndex_chainId {chains : List ChainClient} {chainId : String} {client : ChainClient}
    (h : chainIndex chains chainId = some client) : client.chainId = chainId := by
  simpa using List.find?_some h

theorem justifies_examine (chains : List ChainClient) {intent : PaymentIntent} (hseen : .seen intent ∈ facts) :
    evidence.Justifies facts (examine options chains intent) := by
  unfold examine
  cases hchain : intent.depositChain with
  | none => trivial
  | some chainId =>
    dsimp only
    cases hclient : chainIndex chains chainId with
    | none => trivial
    | some client =>
      refine Prog.Obeys.bind ((findDepositTxHash_learns intent.id facts).mono fun read out hread => ?_)
      rcases out with e | (- | txHash)
      · trivial
      · trivial
      obtain ⟨e, he, hdetected⟩ := hread.2 txHash rfl
      refine Prog.Obeys.bind ((lookup_learns client txHash read).mono fun asked out hasked => ?_)
      rcases out with e | (- | status)
      · trivial
      · trivial
      have hreported := hasked.2 status rfl
      simp only [Prog.BindPost]
      split
      · trivial
      · rename_i hfailed
        split
        · trivial
        · rename_i hdeep
          refine Knowledge.justifies_bind (Knowledge.justifies_await fun id hid => ?_) fun _ _ _ => trivial
          obtain rfl : intent.id = id := Option.some.inj hid
          have hvouches : Vouches intent.id intent e ⟨client, txHash, status⟩ :=
            ⟨⟨rfl, by rw [hchain, chainIndex_chainId hclient]⟩, hdetected, hfailed, not_lt.1 hdeep⟩
          exact ⟨intent, e, _, hasked.1 (hread.1 hseen), hasked.1 he, hreported, hvouches⟩

theorem justifies_sweep (chains : List ChainClient) (batchSize : Option Nat) (facts : List Fact) :
    evidence.Justifies facts (sweep options chains batchSize) := by
  refine ⟨trivial, fun r _ => ?_⟩
  cases r with
  | error e => trivial
  | ok detected =>
    have hall : evidence.Justifies (facts ++ List.map Fact.seen detected)
      (List.forM detected (examine options chains)) :=
      Knowledge.justifies_forM fun intent hintent facts' hsub =>
        justifies_examine options chains (hsub (List.mem_append_right _ (List.mem_map_of_mem hintent)))
    have hsweep : evidence.Justifies (facts ++ List.map Fact.seen detected)
        ((List.forM detected (examine options chains)).bind fun _ => Prog.ret (List.length detected)) :=
      Knowledge.justifies_bind hall fun _ _ _ => trivial
    exact hsweep

end NexoraGateway.Worker
