import NexoraGateway.Intent.Repeats
import NexoraGateway.Worker.Handlers

/-!
# Running a job again

A worker that dies after its handler but before `complete` leaves a job that is reclaimed and handled once
more. `deposit.record` tolerates it and `deposit.confirm` does not: a confirmed intent has no edge to
`CONFIRMING`, so the second run fails, and goes on failing until the job is dead-lettered (`redelivered_iff`).
-/
namespace NexoraGateway.Worker

open Async
open Jobs (JobRecord)

variable {ω : Nat → Oracle} {n : Nat} {s : State} {job : JobRecord} {α β : Type}

/-- What a handler makes of an operation's result. -/
def outcome : Except Intent.IntentError α → Except Jobs.JsError Unit
  | .ok _ => .ok ()
  | .error e => .error (jsError e)

theorem service_void (p : Intent.Task α) (ω : Nat → Oracle) (n : Nat) (s : State) :
    let r := p.run Intent.handle (fun k => (ω k).intent) n s.intents
    ((service p).bind fun _ => Prog.ret ()).run handle ω n s =
      (outcome r.1, r.2.1, { s with intents := r.2.2 }) := by
  rw [Prog.run_bind, service_run]
  rcases p.run Intent.handle (fun k => (ω k).intent) n s.intents with ⟨x | e, m, db⟩ <;> rfl

theorem outcome_ok {r : Except Intent.IntentError α} (h : outcome r = .ok ()) : ∃ x, r = .ok x := by
  cases r with
  | ok x => exact ⟨x, rfl⟩
  | error e => cases h

/-- A field that is missing ends the handler. -/
theorem field_of_ok {r : Except Jobs.JsError α} {f : α → Routine β} {y : β}
    (h : (((Prog.ofExcept r).bind f).run handle ω n s).1 = .ok y) : ∃ x, r = .ok x := by
  cases r with
  | ok x => exact ⟨x, rfl⟩
  | error e => cases h

theorem handleDepositRecord_eq (hok : ((handleDepositRecord job).run handle ω n s).1 = .ok ()) :
    ∃ intentId txHash amount sourceChain sourceAsset, handleDepositRecord job =
      (service (Intent.recordDeposit intentId txHash amount sourceChain sourceAsset)).bind fun _ =>
        Prog.ret () := by
  unfold handleDepositRecord at hok ⊢
  simp only [Prog.bind_def] at hok ⊢
  obtain ⟨intentId, hid⟩ := field_of_ok hok
  rw [hid, Prog.ofExcept_ok, Prog.ret_bind] at hok ⊢
  obtain ⟨txHash, hhash⟩ := field_of_ok hok
  rw [hhash, Prog.ofExcept_ok, Prog.ret_bind] at hok ⊢
  obtain ⟨sourceChain, hchain⟩ := field_of_ok hok
  rw [hchain, Prog.ofExcept_ok, Prog.ret_bind] at hok ⊢
  obtain ⟨sourceAsset, hasset⟩ := field_of_ok hok
  rw [hasset, Prog.ofExcept_ok, Prog.ret_bind] at hok ⊢
  obtain ⟨amount, hamount⟩ := field_of_ok hok
  rw [hamount]
  exact ⟨intentId, txHash, amount, sourceChain, sourceAsset, rfl⟩

theorem handleDepositConfirm_eq (hok : ((handleDepositConfirm job).run handle ω n s).1 = .ok ()) :
    ∃ intentId confirmations, handleDepositConfirm job =
      (service (Intent.confirmDeposit intentId confirmations)).bind fun _ => Prog.ret () := by
  unfold handleDepositConfirm at hok ⊢
  simp only [Prog.bind_def] at hok ⊢
  obtain ⟨intentId, hid⟩ := field_of_ok hok
  rw [hid, Prog.ofExcept_ok, Prog.ret_bind] at hok ⊢
  obtain ⟨confirmations, hconfirmations⟩ := field_of_ok hok
  rw [hconfirmations]
  exact ⟨intentId, confirmations, rfl⟩

/-- A deposit that was recorded is recorded again without effect. -/
theorem handleDepositRecord_again (hok : ((handleDepositRecord job).run handle ω n s).1 = .ok ())
    (ω' : Nat → Oracle) (hω' : ¬ Intent.Faulty fun k => (ω' k).intent) (m : Nat) :
    let s' := ((handleDepositRecord job).run handle ω n s).2.2
    (handleDepositRecord job).run handle ω' m s' = (.ok (), m + 1, s') := by
  intro s'
  obtain ⟨intentId, txHash, amount, sourceChain, sourceAsset, heq⟩ := handleDepositRecord_eq hok
  simp only [s']
  rw [heq] at hok ⊢
  rw [service_void] at hok ⊢
  obtain ⟨intent, hfirst⟩ := outcome_ok hok
  obtain ⟨row, hrow, hnot⟩ := Intent.recordDeposit_done hfirst
  rw [service_void, Intent.recordDeposit_again hω' hrow hnot]
  rfl

/-- A deposit that was confirmed cannot be confirmed again. -/
theorem handleDepositConfirm_again (hok : ((handleDepositConfirm job).run handle ω n s).1 = .ok ())
    (ω' : Nat → Oracle) (m : Nat) :
    ∃ e, ((handleDepositConfirm job).run handle ω' m
      ((handleDepositConfirm job).run handle ω n s).2.2).1 = .error e := by
  obtain ⟨intentId, confirmations, heq⟩ := handleDepositConfirm_eq hok
  rw [heq] at hok ⊢
  rw [service_void] at hok ⊢
  obtain ⟨intent, hfirst⟩ := outcome_ok hok
  obtain ⟨e, he⟩ := Intent.advanceIntent_again hfirst (fun k => (ω' k).intent) m
  exact ⟨jsError e, by rw [service_void]; exact congrArg outcome he⟩

/-- **Which jobs may be delivered twice**: once the handler of a `deposit.record` or `deposit.confirm` job has
returned normally, running it again returns normally and leaves intents and events alone, whatever the clock,
exactly when the job is a `deposit.record`. -/
theorem redelivered_iff (hjob : job.jobType = jobDepositRecord ∨ job.jobType = jobDepositConfirm)
    {handler : JobRecord → Routine Unit} (hhandler : jobHandlers job.jobType = some handler)
    (hok : ((handler job).run handle ω n s).1 = .ok ()) :
    let s' := ((handler job).run handle ω n s).2.2
    (∀ (ω' : Nat → Oracle) (m : Nat), ¬ Intent.Faulty (fun k => (ω' k).intent) →
      ((handler job).run handle ω' m s').1 = .ok () ∧
        ((handler job).run handle ω' m s').2.2.intents.toTables = s'.intents.toTables) ↔
    job.jobType = jobDepositRecord := by
  intro s'
  rcases hjob with htype | htype
  · obtain rfl : handleDepositRecord = handler := by simpa [jobHandlers, htype] using hhandler
    refine iff_of_true (fun ω' m hω' => ?_) htype
    have hagain := handleDepositRecord_again hok ω' hω' m
    rw [hagain]
    exact ⟨rfl, rfl⟩
  · have hne : jobDepositConfirm ≠ jobDepositRecord := by decide
    obtain rfl : handleDepositConfirm = handler := by simpa [jobHandlers, htype, hne] using hhandler
    refine iff_of_false (fun hagain => ?_) (htype ▸ hne)
    obtain ⟨e, he⟩ := handleDepositConfirm_again hok (fun _ => {}) 0
    have hhealthy : ¬ Intent.Faulty fun k => ((fun _ => {} : Nat → Oracle) k).intent := fun ⟨_, hk⟩ => hk rfl
    rw [(hagain (fun _ => {}) 0 hhealthy).1] at he
    cases he

/-- A claimed job about the shop's intent and its deposit. -/
def claimed (jobType : String) : JobRecord where
  id := "job"
  queue := queueDeposits
  jobType := jobType
  payload :=
    [("intentId", .str "pi"), ("txHash", .str "0xa"), ("amount", .num 100), ("sourceChain", .str "ethereum"),
     ("sourceAsset", .str "USDC"), ("confirmations", .num 12)]
  idempotencyKey := "key"
  status := .running
  attemptCount := 1
  maxAttempts := 5
  runAt := 0
  lastError := none

/-- The handler of the job, alone, at time 2. -/
def run (jobType : String) (handler : JobRecord → Routine Unit) (s : State) :
    Except Jobs.JsError Unit × State :=
  let r := (handler (claimed jobType)).run handle (fun _ => { intent := { now := 2 } }) 0 s
  (r.1, r.2.2)

/-- The rule at a deposit that was recorded. -/
theorem redelivered_record :
    (run jobDepositRecord handleDepositRecord
      (run jobDepositRecord handleDepositRecord { intents := Intent.quotedDb }).2).1 = .ok () := by
  have hok : ((handleDepositRecord (claimed jobDepositRecord)).run handle (fun _ => { intent := { now := 2 } }) 0
      { intents := Intent.quotedDb }).1 = .ok () := by
    decide +kernel
  exact ((redelivered_iff (.inl rfl) rfl hok).2 rfl _ 0 fun ⟨_, hk⟩ => hk rfl).1

/-- The deposit of a detected intent is confirmed, and confirming it again is refused. -/
theorem confirmed_once_only :
    (run jobDepositConfirm handleDepositConfirm { intents := Intent.detectedDb }).1 = .ok () ∧
    (run jobDepositConfirm handleDepositConfirm
      (run jobDepositConfirm handleDepositConfirm { intents := Intent.detectedDb }).2).1 =
      .error { message := "Invalid state transition from CONFIRMING to CONFIRMING" } := by
  decide +kernel

end NexoraGateway.Worker
