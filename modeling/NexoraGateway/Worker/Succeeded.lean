import NexoraGateway.Worker.Confirmed

/-!
# A confirmation that succeeded (job-handlers.ts:73, job-queue.ts:298)

A `deposit.confirm` job is completed only by a worker whose handler has returned, so the transition of its intent
has been recorded, and from there no edge leads back to `DETECTED`. `completion` is the discipline: a worker knows
which job it holds, and that the intent has moved on.
-/
namespace NexoraGateway.Worker

open Async Store
open Intent (IntentState stateOf)

/-- The states from which `DETECTED` cannot be reached. -/
def later : List IntentState :=
  [.confirming, .routing, .settling, .settled, .overpaid, .misdirected, .expired, .refunding, .failed]

theorem later_closed : ∀ s ∈ later, ∀ s' ∈ Intent.validTransitions s, s' ∈ later := by decide

/-- The intent has left `DETECTED`, or missed it, for good. -/
def Past (db : Intent.Db) (id : Id) : Prop := ∃ s ∈ later, stateOf db id = some s

instance (db : Intent.Db) (id : Id) : Decidable (Past db id) := inferInstanceAs (Decidable (∃ s ∈ later, _))

theorem Past.not_detected {db : Intent.Db} {id : Id} (h : Past db id) : stateOf db id ≠ some .detected := by
  obtain ⟨s, hs, hstate⟩ := h
  rw [hstate]
  rintro ⟨⟩
  exact absurd hs (by decide)

theorem Past.handle {a : Jobs.Call worker} {o : Jobs.Oracle worker} {db : Jobs.Db worker} {id : Id}
    (h : Past db.outer.intents id) : Past (Jobs.handle a o db).2.outer.intents id := by
  obtain ⟨s, hs, hstate⟩ := h
  rcases step_intents a o db with ⟨job, b, rfl, hintents⟩ | hintents
  · rw [hintents]
    obtain ⟨s', hstate', hedge⟩ := (Intent.handle_effect b o.outer.intent db.outer.intents).state hstate
    rcases hedge with rfl | hedge
    · exact ⟨s', hs, hstate'⟩
    · exact ⟨s', later_closed s hs s' (by simpa [Intent.Valid, Intent.isValidTransition] using hedge), hstate'⟩
  · rw [hintents]
    exact ⟨s, hs, hstate⟩

/-- The job is the one in the table with its id. -/
def IsRow (db : Jobs.Db worker) (job : Jobs.JobRecord) : Prop :=
  ∃ row ∈ db.jobs.rows, row.id = job.id ∧ row.jobType = job.jobType ∧ row.payload = job.payload

theorem IsRow.handle {a : Jobs.Call worker} {o : Jobs.Oracle worker} {db : Jobs.Db worker} {job : Jobs.JobRecord}
    (h : IsRow db job) : IsRow (Jobs.handle a o db).2 job := by
  obtain ⟨row, hrow, hid, htype, hpayload⟩ := h
  obtain ⟨row', hrow', heff⟩ := (Jobs.handle_effect a o db).row hrow
  obtain ⟨hid', -, htype', hpayload', -, -⟩ := heff.kept
  exact ⟨row', hrow', hid'.trans hid, htype'.trans htype, hpayload'.trans hpayload⟩

/-- What a worker can know about its jobs and their intents. -/
inductive Known where
  | holds (job : Jobs.JobRecord)
  | moved (id : Id)

/-- What has been recorded for a call of the service. -/
def moves : (a : Intent.Call) → Intent.Answer a → Option Id
  | .transition id .confirmationReceived _, .ok _ => some id
  | _, _ => none

/-- A `deposit.confirm` is completed when its intent has moved on. -/
def completion : Knowledge (Jobs.Call worker) Jobs.Answer (Jobs.Db worker) Known where
  Holds db
    | .holds job => IsRow db job
    | .moved id => Past db.outer.intents id
  ok facts
    | .writeOutcome job .succeeded =>
      .holds job ∈ facts ∧ ∀ id ∈ confirms? job.jobType job.payload, .moved id ∈ facts
    | _ => True
  rely _ _ := True
  learns
    | .claimBatch .., .ok jobs => List.map Known.holds jobs
    | .outer _ (.intent a), .ok r => (moves a r).toList.map Known.moved
    | _, _ => []

/-! ## What is learned is true -/

theorem known_kept (a : Jobs.Call worker) (o : Jobs.Oracle worker) (db : Jobs.Db worker) {f : Known}
    (h : completion.Holds db f) : completion.Holds (Jobs.handle a o db).2 f := by
  cases f with
  | holds job => exact IsRow.handle h
  | moved id => exact Past.handle h

/-- The event that moves an intent on leads past `DETECTED`. -/
theorem moves_past {b : Intent.Call} {o : Jobs.Oracle worker} {db : Jobs.Db worker} {job : Option Jobs.JobRecord}
    {id : Id} (h : moves b (Intent.handle b o.outer.intent db.outer.intents).1 = some id) :
    Past (Jobs.handle (.outer job (Call.intent b)) o db).2.outer.intents id := by
  unfold moves at h
  split at h
  · rename_i id' payload intent hanswer
    cases h
    obtain ⟨row, hrow, -, -, hdb⟩ := Intent.transition_ok hanswer
    refine ⟨.confirming, by decide, ?_⟩
    change stateOf (Intent.transition o.outer.intent id .confirmationReceived payload db.outer.intents).2 id = _
    rw [hdb, stateOf, Intent.Tables.find?_recorded _ _ _ hrow]
    rfl
  · cases h

theorem known_learned (a : Jobs.Call worker) (o : Jobs.Oracle worker) (db : Jobs.Db worker) :
    ∀ f ∈ completion.learns a (Jobs.handle a o db).1, completion.Holds (Jobs.handle a o db).2 f := by
  intro f hf
  cases hr : (Jobs.handle a o db).1 with
  | error e =>
    rw [hr] at hf
    cases a with
    | outer job b => cases b <;> exact absurd hf List.not_mem_nil
    | enqueue | claimBatch | writeOutcome | reclaimStale | random | sleep => exact absurd hf List.not_mem_nil
  | ok x =>
    rw [hr] at hf
    cases a with
    | enqueue | writeOutcome | reclaimStale | random | sleep => exact absurd hf List.not_mem_nil
    | claimBatch queue limit workerId =>
      obtain ⟨batch, rfl, hbatch, -⟩ := Jobs.claimBatch_ok hr
      simp only [completion, List.mem_map] at hf
      obtain ⟨job, ⟨locked, ⟨row, hrow, rfl⟩, rfl⟩, rfl⟩ := hf
      have hrow : IsRow db (Jobs.mapJobRow (Jobs.lock db.clock workerId row)) :=
        ⟨row, (hbatch row hrow).1, rfl, rfl, rfl⟩
      exact hrow.handle
    | outer job b =>
      cases b with
      | findByState | getEvents | findAwaitingDepositAt | getTransactionStatus => exact absurd hf List.not_mem_nil
      | intent b =>
        obtain ⟨id, hid, rfl⟩ := List.mem_map.1 hf
        have hx : (Intent.handle b o.outer.intent db.outer.intents).1 = x := Except.ok.inj hr
        exact moves_past (hx ▸ Option.mem_toList.1 hid)

theorem completion_sound (a : Jobs.Call worker) (o : Jobs.Oracle worker) (db : Jobs.Db worker) :
    (∀ f, completion.Holds db f → completion.Holds (Jobs.handle a o db).2 f) ∧
      ∀ f ∈ completion.learns a (Jobs.handle a o db).1, completion.Holds (Jobs.handle a o db).2 f :=
  ⟨fun _ hf => known_kept a o db hf, known_learned a o db⟩

/-! ## What the tasks do with what they know -/

variable {α : Type} {facts : List Known}

/-- A program whose calls write no success. -/
theorem completion_of_only {p : Task α} (hp : p.Only (fun a => ∀ facts, completion.ok facts a) fun _ => True) :
    completion.Justifies facts p := hp.obeys (fun facts _ ha => ha facts) facts

theorem completion_within (job : Option Jobs.JobRecord) (p : Routine α) :
    completion.Justifies facts (Jobs.within job p) := by
  induction p generalizing facts with
  | ret x => trivial
  | throw e => trivial
  | call b k ih => exact ⟨trivial, fun r _ => ih r⟩

/-- Whether an operation has moved `id` on, by the answers to its calls. -/
def moving (id : Id) : Protocol Intent.Call Intent.Answer Prop where
  ok _ _ := True
  rely _ _ := True
  next moved a r := moved ∨ moves a r = some id

theorem moving_mono {p : Intent.Task α} {id : Id} {moved : Prop} (h : moved) :
    p.Obeys (moving id) (fun moved' _ => moved') moved := by
  induction p generalizing moved with
  | ret x => exact h
  | throw e => exact h
  | call a k ih => exact ⟨trivial, fun r _ => ih r (.inl h)⟩

/-- `confirmDeposit` returns only when it has moved its intent on. -/
theorem confirmDeposit_moves (id : Id) (confirmations : ℚ) : (Intent.confirmDeposit id confirmations).Obeys (moving id)
    (fun moved out => ∀ x, out = .ok x → moved) False := by
  unfold Intent.confirmDeposit Intent.advanceIntent
  refine Prog.Obeys.bind (Prog.obeys_await.2 ⟨trivial, fun r _ => ?_⟩)
  rcases r with e | (- | intent)
  · intro x h
    cases h
  · intro x h
    cases h
  · refine Prog.Obeys.bind (Prog.obeys_await.2 ⟨trivial, fun r _ => ?_⟩)
    cases r with
    | error e =>
      intro x h
      cases h
    | ok now =>
      refine Prog.Obeys.bind (Prog.obeys_await.2 ⟨trivial, fun r _ => ?_⟩)
      cases r with
      | error e =>
        intro x h
        cases h
      | ok updated => exact (moving_mono (.inr rfl)).mono fun _ _ h _ _ => h

/-- What the operation has done is known where it was called. -/
theorem service_moves {p : Intent.Task α} {id : Id} {moved : Prop}
    (hp : p.Obeys (moving id) (fun moved out => ∀ x, out = .ok x → moved) moved)
    (hmoved : moved → .moved id ∈ facts) (job : Option Jobs.JobRecord) :
    (Jobs.within job (service p)).Obeys completion.protocol
      (fun facts' out => ∀ x, out = .ok x → .moved id ∈ facts') facts := by
  induction p generalizing facts moved with
  | ret x => exact fun _ _ => hmoved (hp x rfl)
  | throw e => exact fun x hx => by cases hx
  | call a k ih =>
    rw [service, Jobs.within]
    refine ⟨trivial, fun r _ => ?_⟩
    cases r with
    | error e => exact fun x hx => by cases hx
    | ok r =>
      refine ih r (hp.2 r trivial) fun h => ?_
      rcases h with h | h
      · exact List.mem_append_left _ (hmoved h)
      · exact List.mem_append_right _ (List.mem_map_of_mem (Option.mem_toList.2 h))

/-- A handler that returns has moved on what its job confirms. -/
theorem handler_moves {job : Jobs.JobRecord} {handler : Jobs.JobRecord → Routine Unit}
    (hhandler : jobHandlers job.jobType = some handler) :
    (Jobs.within (some job) (handler job)).Obeys completion.protocol
      (fun facts' out => ∀ x, out = .ok x → ∀ id ∈ confirms? job.jobType job.payload, .moved id ∈ facts') facts := by
  by_cases htype : job.jobType = jobDepositConfirm
  · have hne : jobDepositConfirm ≠ jobDepositRecord := by decide
    obtain rfl : handleDepositConfirm = handler := by simpa [jobHandlers, htype, hne] using hhandler
    unfold handleDepositConfirm
    cases hid : requireString job.payload "intentId" with
    | error e => exact fun x hx => by cases hx
    | ok intentId =>
      cases requireNumber job.payload "confirmations" with
      | error e => exact fun x hx => by cases hx
      | ok confirmations =>
        have hconfirms : confirms? job.jobType job.payload = some intentId := by
          rw [confirms?, requireString_ok hid, htype]
          rfl
        rw [hconfirms]
        simp only [Prog.bind_def, Prog.ofExcept_ok, Prog.ret_bind]
        rw [Jobs.within_bind]
        have hmoves : (Jobs.within (some job) (service (Intent.confirmDeposit intentId confirmations))).Obeys
            completion.protocol (fun facts' out => ∀ x, out = .ok x → .moved intentId ∈ facts') facts :=
          service_moves (confirmDeposit_moves intentId confirmations) False.elim (some job)
        refine Prog.Obeys.bind (hmoves.mono fun facts' out h => ?_)
        cases out with
        | error e => exact fun x hx => by cases hx
        | ok x =>
          intro y _ id hid
          cases hid
          exact h x rfl
  · have hnone : confirms? job.jobType job.payload = none := by
      unfold confirms?
      split
      · rw [if_neg htype]
      · rfl
    rw [hnone]
    exact (completion_within (some job) (handler job)).mono fun _ _ _ _ _ _ hid => by cases hid

theorem completion_processJob (options : Jobs.JobQueueOptions) {job : Jobs.JobRecord} (hjob : .holds job ∈ facts) :
    completion.Justifies facts (Jobs.processJob options jobHandlers job) := by
  have hfail (attemptCount : Int) (error : Jobs.JsError) (facts : List Known) :
      completion.Justifies facts ((Jobs.fail options job attemptCount error none).bind fun _ => Prog.ret ()) := by
    refine Knowledge.justifies_bind (Jobs.justifies_fail options (fun _ => trivial) ?_ attemptCount error none)
      fun _ _ _ => trivial
    intro _ outcome houtcome
    cases outcome with
    | succeeded => exact absurd rfl houtcome
    | deadLettered | retried => trivial
  unfold Jobs.processJob
  split
  · exact hfail _ _ facts
  · rename_i handler hhandler
    refine Knowledge.justifies_tryCatch ?_ fun error facts' _ => hfail _ error facts'
    refine Prog.Obeys.bind ((Knowledge.obeys_grows (handler_moves hhandler)).mono fun facts' out h => ?_)
    cases out with
    | error e => trivial
    | ok x => exact Knowledge.justifies_await ⟨h.1 hjob, h.2 x rfl⟩

theorem completion_task {p : Task Unit} (hp : IsTask p ∨ ∃ q : Routine Unit, p = Jobs.within none q) :
    completion.Justifies [] p := by
  rcases hp with hp | ⟨q, rfl⟩
  · cases hp with
    | loop options queueName n =>
      refine Jobs.justifies_run options jobHandlers (fun _ => trivial) (fun _ => trivial) (fun _ => trivial) ?_ n
      intro facts batch _ job hjob facts' hsub
      exact completion_processJob options (hsub (List.mem_append_right _ (List.mem_map_of_mem hjob)))
    | deposit options chainId event =>
      exact completion_of_only (onDeposit_only options (fun _ => trivial) fun _ _ _ _ => trivial)
    | sweep options chains batchSize =>
      refine completion_of_only (Prog.Only.bind (sweep_only options chains batchSize ?_ ?_ ?_ ?_) fun _ =>
        Prog.Only.ret _)
      · exact fun _ => trivial
      · exact fun _ _ => trivial
      · exact fun _ _ _ => trivial
      · exact fun _ _ _ _ _ => trivial
    | op op hop => exact completion_within none _
  · exact completion_within none q

end NexoraGateway.Worker
