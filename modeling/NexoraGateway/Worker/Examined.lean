import NexoraGateway.Async.Observed
import NexoraGateway.Worker.Succeeded

/-!
# A deep deposit and its job (confirmation-tracker.ts:74-152, job-queue.ts:164-272)

The key of a confirmation names the chain and the transaction, not the intent, and a row that has it is there for
good, whatever has become of it: then the sweep's `INSERT` does nothing. `deep_queued` says when a sweep leaves
every intent whose deposit it has found deep with a job of its own that a worker will still come to.

* `Reading` — what a sweep has been answered.
* `Attended` — the condition on one step.
* `Tended` — the invariant while the sweep runs.
-/
namespace NexoraGateway.Worker

open Async Store
open Intent (PaymentIntent stateOf)

/-! ## What a sweep reads -/

/-- The intent whose events were read by the last call, the one whose deposit was found deep by the last call, and
all of those so far. -/
structure Reading where
  asked : Option Id := none
  due : Option Id := none
  deep : List Id := []

/-- A call and its answer: a status that is not `FAILED` and has the confirmations that its client requires is of
the intent whose events were read right before. -/
def Reading.note (r : Reading) : (a : Jobs.Call worker) → Jobs.Answer a → Reading
  | .outer _ (.getEvents id), .ok _ => { r with asked := some id, due := none }
  | .outer _ (.getTransactionStatus client _), .ok (status : Chain.TxStatus) =>
    if status.status ≠ .failed ∧ client.confirmationDepth ≤ status.confirmations then
      { asked := none, due := r.asked, deep := r.deep ++ r.asked.toList }
    else { r with asked := none, due := none }
  | _, _ => { r with asked := none, due := none }

/-- The intent whose confirmation a call enqueues. -/
def queues? : Jobs.Call worker → Option Id
  | .enqueue _ jobType payload .. => confirms? jobType payload
  | _ => none

/-- When a deposit has been found deep, its confirmation is enqueued next. -/
def sweeping : Protocol (Jobs.Call worker) Jobs.Answer Reading where
  ok r a := ∀ id ∈ r.due, queues? a = some id
  rely _ _ := True
  next := Reading.note

section
variable {r : Reading}

theorem note_deep {a : Jobs.Call worker} {x : Jobs.Answer a} {id : Id} (h : id ∈ (r.note a x).deep) :
    id ∈ r.deep ∨ (r.note a x).due = some id := by
  cases a with
  | enqueue | claimBatch | writeOutcome | reclaimStale | random | sleep => exact .inl h
  | outer job b =>
    cases b with
    | intent | findByState | findAwaitingDepositAt => exact .inl h
    | getEvents id' => cases x <;> exact .inl h
    | getTransactionStatus client txHash =>
      cases x with
      | error e => exact .inl h
      | ok status =>
        simp only [Reading.note] at h ⊢
        split at h
        · rename_i hdeep
          rw [if_pos hdeep]
          exact (List.mem_append.1 h).imp_right Option.mem_toList.1
        · exact .inl h

theorem findDepositTxHash_reads (hr : r.due = none) (id : Id) :
    (findDepositTxHash id).Obeys sweeping
      (fun r' out => r'.due = none ∧ ∀ x, out = .ok x → r'.asked = some id) r := by
  refine ⟨fun id' hid' => absurd (hr.symm.trans hid') nofun, fun x _ => ?_⟩
  cases x with
  | error e => exact ⟨rfl, nofun⟩
  | ok events => exact ⟨rfl, fun _ _ => rfl⟩

theorem lookup_reads (hr : r.due = none) {id : Id} (hasked : r.asked = some id) (client : ChainClient) (txHash : Id) :
    (lookup client txHash).Obeys sweeping
      (fun r' out => r'.due = none ∨ r'.due = some id ∧ ∃ status, out = .ok (some status) ∧
        status.status ≠ .failed ∧ client.confirmationDepth ≤ status.confirmations) r := by
  refine ⟨fun id' hid' => absurd (hr.symm.trans hid') nofun, fun x _ => ?_⟩
  cases x with
  | error e => exact .inl rfl
  | ok status =>
    simp only [sweeping, Reading.note]
    split
    · rename_i hdeep
      exact .inr ⟨hasked, status, rfl, hdeep⟩
    · exact .inl rfl

variable (options : Jobs.JobQueueOptions) (chains : List ChainClient)

theorem examine_sweeping (hr : r.due = none) (intent : PaymentIntent) :
    (examine options chains intent).Obeys sweeping (fun r' _ => r'.due = none) r := by
  unfold examine
  cases intent.depositChain with
  | none => exact hr
  | some chainId =>
    dsimp only
    cases chainIndex chains chainId with
    | none => exact hr
    | some client =>
      refine Prog.Obeys.bind ((findDepositTxHash_reads hr intent.id).mono fun read out hread => ?_)
      rcases out with e | (- | txHash)
      · exact hread.1
      · exact hread.1
      have hasked : read.asked = some intent.id := hread.2 _ rfl
      refine Prog.Obeys.bind ((lookup_reads hread.1 hasked client txHash).mono fun seen out hseen => ?_)
      rcases hseen with hdue | ⟨hdue, status, rfl, hnot, hdeep⟩
      · rcases out with e | (- | status)
        · exact hdue
        · exact hdue
        simp only [Prog.BindPost]
        split
        · exact hdue
        · split
          · exact hdue
          · refine Prog.Obeys.bind (Prog.obeys_await.2 ⟨fun id hid => (by cases hdue.symm.trans hid), ?_⟩)
            intro x _
            cases x <;> rfl
      · simp only [Prog.BindPost]
        rw [if_neg hnot, if_neg (not_lt.2 hdeep)]
        -- the deposit is deep, and its confirmation is enqueued
        refine Prog.Obeys.bind (Prog.obeys_await.2 ⟨fun id hid => ?_, fun x _ => ?_⟩)
        · obtain rfl : intent.id = id := Option.some.inj (hdue.symm.trans hid)
          rfl
        · cases x <;> rfl

theorem sweep_sweeping (batchSize : Option Nat) : Prog.Obeys sweeping (fun r' _ => r'.due = none) {}
    (do let _ ← sweep options chains batchSize : Task Unit) := by
  have hall (detected : List PaymentIntent) (r : Reading) (hr : r.due = none) :
      (detected.forM (examine options chains)).Obeys sweeping (fun r' _ => r'.due = none) r := by
    induction detected generalizing r with
    | nil => exact hr
    | cons intent detected ih =>
      refine Prog.Obeys.bind ((examine_sweeping options chains hr intent).mono fun r' out hr' => ?_)
      cases out with
      | error e => exact hr'
      | ok x => exact ih r' hr'
  have hsweep : (sweep options chains batchSize).Obeys sweeping (fun r' _ => r'.due = none) {} := by
    refine Prog.Obeys.bind ⟨fun _ hid => absurd hid nofun, fun x _ => ?_⟩
    cases x with
    | error e => rfl
    | ok detected =>
      refine Prog.Obeys.bind ((hall detected _ rfl).mono fun r' out hr' => ?_)
      cases out with
      | error e => exact hr'
      | ok x => exact hr'
  refine Prog.Obeys.bind (hsweep.mono fun r' out hr' => ?_)
  cases out with
  | error e => exact hr'
  | ok x => exact hr'

end

/-! ## What becomes of a confirmation -/

/-- The job confirms the deposit of `id`, and a worker will still come to it. -/
def Live (id : Id) (row : Jobs.Job) : Prop :=
  confirms? row.jobType row.payload = some id ∧ (row.status = .pending ∨ row.status = .running)

instance (id : Id) : DecidablePred (Live id) := fun _ => inferInstanceAs (Decidable (_ ∧ _))

/-- The intent has moved on, or its confirmation is queued. -/
def Cared (db : Jobs.Db worker) (id : Id) : Prop := Past db.outer.intents id ∨ ∃ row ∈ db.jobs.rows, Live id row

instance (db : Jobs.Db worker) (id : Id) : Decidable (Cared db id) :=
  inferInstanceAs (Decidable (_ ∨ ∃ row ∈ _, _))

/-- The statement is executed. -/
def Executed (o : Jobs.Oracle worker) : Prop := o.rejects = none ∨ o.lost = true

instance : DecidablePred Executed := fun _ => inferInstanceAs (Decidable (_ ∨ _))

/-- An `INSERT` under the key goes through. -/
def Inserts (o : Jobs.Oracle worker) (key : String) (db : Jobs.Db worker) : Prop :=
  (∀ row ∈ db.jobs.rows, row.idempotencyKey ≠ key) ∧ (∀ row ∈ db.jobs.rows, row.id ≠ o.uuid) ∧ Executed o

instance (o : Jobs.Oracle worker) (key : String) (db : Jobs.Db worker) : Decidable (Inserts o key db) :=
  inferInstanceAs (Decidable (_ ∧ _ ∧ _))

/-- An intent that does not need the job with the id `jobId`. -/
def Spares (db : Jobs.Db worker) (jobId id : Id) : Prop :=
  Past db.outer.intents id ∨ ∃ row ∈ db.jobs.rows, row.id ≠ jobId ∧ Live id row

instance (db : Jobs.Db worker) (jobId id : Id) : Decidable (Spares db jobId id) :=
  inferInstanceAs (Decidable (_ ∨ ∃ row ∈ _, _))

section
variable {a : Jobs.Call worker} {o : Jobs.Oracle worker} {db : Jobs.Db worker} {id : Id}

theorem inserts_cared {queue : String} {payload : Payload} {jobType key : String} {maxAttempts delayMs : Int}
    (h : Inserts o key db) (hid : confirms? jobType payload = some id) :
    Cared (Jobs.handle (.enqueue queue jobType payload key maxAttempts delayMs) o db).2 id := by
  obtain ⟨hkey, huuid, hexecuted⟩ := h
  have hfree : db.jobs.rows.any (·.idempotencyKey = key) = false := by simpa using hkey
  obtain ⟨jobs, hins⟩ := Option.isSome_iff_exists.1 (Table.insert?_isSome.2 (Table.find?_eq_none.2 huuid) :
    (db.jobs.insert? (Jobs.newJob o.uuid db.clock queue jobType payload key maxAttempts delayMs)).isSome)
  have hdone : (Jobs.handle (.enqueue queue jobType payload key maxAttempts delayMs) o db).2.jobs = jobs := by
    simp only [Jobs.handle, Jobs.execute, Jobs.enqueue, hfree, hins, Bool.false_eq_true, if_false]
    rw [request_executed hexecuted]
    rfl
  refine .inr ⟨Jobs.newJob o.uuid db.clock queue jobType payload key maxAttempts delayMs, ?_, hid, .inl rfl⟩
  rw [hdone, Table.rows_insert? hins]
  exact List.mem_append_right _ (List.mem_singleton_self _)

/-- **One call**: what is cared for remains so, when a success is written only for an intent that has moved on, and
a job that is needed is not given up. -/
theorem cared_step {facts : List Known} (hok : completion.ok facts a) (hfacts : ∀ f ∈ facts, completion.Holds db f)
    (hdead : ∀ job e, a = .writeOutcome job (.deadLettered e) → Executed o →
      ∀ row ∈ db.jobs.rows, row.id = job.id → Live id row → Spares db job.id id)
    (h : Cared db id) : Cared (Jobs.handle a o db).2 id := by
  rcases h with hpast | ⟨row, hrow, hlive⟩
  · exact .inl hpast.handle
  obtain ⟨row', hrow', heff⟩ := (Jobs.handle_effect a o db).row hrow
  cases heff with
  | same => exact .inr ⟨row, hrow', hlive⟩
  | claimed => exact .inr ⟨_, hrow', hlive.1, .inr rfl⟩
  | reclaimed => exact .inr ⟨_, hrow', hlive.1, .inl rfl⟩
  | @wrote job _ outcome hjob =>
    cases outcome with
    | retried => exact .inr ⟨_, hrow', hlive.1, .inl rfl⟩
    | succeeded =>
      obtain ⟨hholds, hmoved⟩ := hok
      obtain ⟨row'', hrow'', hid, htype, hpayload⟩ := hfacts _ hholds
      obtain rfl : row'' = row := Table.eq_of_key hrow'' hrow (hid.trans hjob.symm)
      have hid : confirms? job.jobType job.payload = some id := by rw [← htype, ← hpayload, hlive.1]
      have hpast : Past db.outer.intents id := hfacts _ (hmoved id hid)
      exact .inl hpast.handle
    | deadLettered e =>
      by_cases hexecuted : Executed o
      · rcases hdead job e rfl hexecuted row hrow hjob hlive with hpast | ⟨other, hother, hne, hother'⟩
        · exact .inl hpast.handle
        · obtain ⟨row'', hrow'', heff⟩ := (Jobs.handle_effect (.writeOutcome job (.deadLettered e)) o db).row hother
          cases heff with
          | same => exact .inr ⟨other, hrow'', hother'⟩
          | wrote outcome hid => exact absurd hid hne
      · refine .inr ⟨row, ?_, hlive⟩
        simp only [Jobs.handle, Jobs.execute, Jobs.writeOutcome, request_not_executed hexecuted]
        exact hrow

end

/-! ## Runs -/

/-- A run of which the calls of task `i` are noted. -/
abbrev Watched := Jobs.Queue worker × Reading

section
variable (i : Nat)

/-- A call at which no deposit that was found deep is left without its confirmation: when the sweep enqueues it, it
is cared for already or the `INSERT` goes through; and a job that is to confirm it is not dead-lettered while it
needs the job. -/
def Attends (s : Watched) (j : Nat) (o : Jobs.Oracle worker) : Jobs.Call worker → Prop
  | .enqueue _ jobType payload key .. => j = i → ∀ id ∈ confirms? jobType payload,
      Cared s.1.store id ∨ Inserts o key s.1.store
  | .writeOutcome job (.deadLettered _) => Executed o → ∀ row ∈ s.1.store.jobs.rows, row.id = job.id →
      ∀ id ∈ s.2.deep, Live id row → Spares s.1.store job.id id
  | _ => True

instance (s : Watched) (j : Nat) (o : Jobs.Oracle worker) : (a : Jobs.Call worker) → Decidable (Attends i s j o a)
  | .enqueue _ jobType payload key .. => inferInstanceAs (Decidable (j = i → ∀ id ∈ confirms? jobType payload,
      Cared s.1.store id ∨ Inserts o key s.1.store))
  | .writeOutcome job (.deadLettered _) => inferInstanceAs (Decidable
      (Executed o → ∀ row ∈ s.1.store.jobs.rows, row.id = job.id → ∀ id ∈ s.2.deep, Live id row →
        Spares s.1.store job.id id))
  | .writeOutcome _ .succeeded | .writeOutcome _ (.retried ..) | .claimBatch .. | .reclaimStale _ | .random
  | .sleep _ | .outer .. => inferInstanceAs (Decidable True)

def Attended (s : Watched) : Choice (Jobs.Call worker) Jobs.Answer Jobs.JsError Unit (Jobs.Oracle worker) → Prop
  | .spawn _ => True
  | .step j o => ∀ a ∈ s.1.pending j, Attends i s j o a

instance (s : Watched) :
    (c : Choice (Jobs.Call worker) Jobs.Answer Jobs.JsError Unit (Jobs.Oracle worker)) → Decidable (Attended i s c)
  | .spawn _ => inferInstanceAs (Decidable True)
  | .step j o => inferInstanceAs (Decidable (∀ a ∈ s.1.pending j, Attends i s j o a))

/-- What is started is code of the worker, or makes no statement of the queue. -/
def Spawns (c : Choice (Jobs.Call worker) Jobs.Answer Jobs.JsError Unit (Jobs.Oracle worker)) : Prop :=
  ∀ p, c = .spawn p → IsTask p ∨ ∃ q : Routine Unit, p = Jobs.within none q

/-- Every deposit that was found deep is cared for, but for one that is enqueued next. -/
structure Tended (s : Watched) : Prop where
  known : s.1.GhostInv completion.protocol (completion.Sound fun _ => True)
  keeps : Pool.Keeps sweeping (fun r _ => r.due = none) i s
  cared : ∀ id ∈ s.2.deep, s.2.due = some id ∨ Cared s.1.store id

end

section
variable {i : Nat} {s : Watched}
  {c : Choice (Jobs.Call worker) Jobs.Answer Jobs.JsError Unit (Jobs.Oracle worker)}

theorem completion_exec {w : Jobs.Queue worker} (hw : w.GhostInv completion.protocol (completion.Sound fun _ => True))
    {cs : Jobs.Schedule worker} (hcs : ∀ p, .spawn p ∈ cs → IsTask p ∨ ∃ q : Routine Unit, p = Jobs.within none q) :
    (w.exec Jobs.handle cs).GhostInv completion.protocol (completion.Sound fun _ => True) :=
  Knowledge.knows_exec (fun _ => completion_task)
    (fun db _ a o _ _ _ => ⟨trivial, trivial, completion_sound a o db⟩) hw hcs

/-- What is cared for remains so, whoever makes the next call. -/
theorem cared_next (hs : Tended i s) (hc : Attended i s c) {id : Id} (hdeep : id ∈ s.2.deep)
    (h : Cared s.1.store id) : Cared (s.1.next Jobs.handle c).store id := by
  rcases s.1.next_cases (h := Jobs.handle) c with ⟨p, rfl, hnext⟩ | ⟨j, o, a, k, rfl, hj, hnext⟩ | hnext
  · rw [hnext]
    exact h
  · rw [hnext]
    have hpending : s.1.pending j = some a := by simp only [Pool.pending, hj]
    obtain ⟨facts, hok, hfacts⟩ := Knowledge.pending_justified hs.known hpending
    refine cared_step hok hfacts ?_ h
    rintro job e rfl hexecuted row hrow hid hlive
    exact hc _ hpending hexecuted row hrow hid id hdeep hlive
  · rw [hnext]
    exact h

/-- The confirmation that is due is enqueued. -/
theorem cared_due {o : Jobs.Oracle worker} {a : Jobs.Call worker} {id : Id} (hs : Tended i s)
    (hpending : s.1.pending i = some a) (hc : Attended i s (.step i o)) (hdeep : id ∈ s.2.deep)
    (hid : queues? a = some id) : Cared (s.1.next Jobs.handle (.step i o)).store id := by
  cases a with
  | enqueue queue jobType payload key maxAttempts delayMs =>
    rcases hc _ hpending rfl id hid with hcared | hinserts
    · exact cared_next hs hc hdeep hcared
    · rw [Pool.next_store hpending]
      exact inserts_cared hinserts hid
  | claimBatch | writeOutcome | reclaimStale | random | sleep | outer => cases hid

theorem observe_tended (hs : Tended i s) (hspawn : Spawns c) (hc : Attended i s c) :
    Tended i (Pool.observe Jobs.handle Reading.note i s c) := by
  have hknown : (s.1.exec Jobs.handle [c]).GhostInv completion.protocol (completion.Sound fun _ => True) :=
    completion_exec hs.known fun p hp => hspawn p (List.mem_singleton.1 hp).symm
  refine ⟨hknown, Pool.observe_keeps hs.keeps (fun _ _ _ => trivial) c, fun id hid => ?_⟩
  obtain ⟨p, hp, hobeys⟩ := hs.keeps
  have hkept (hdeep : id ∈ s.2.deep) (hcared : Cared s.1.store id) :
      Cared (Pool.observe Jobs.handle Reading.note i s c).1.store id := cared_next hs hc hdeep hcared
  rcases @Pool.observe_cases _ _ _ _ _ _ _ Jobs.handle Reading.note i s c _ hp with
    ⟨o, a, k, rfl, rfl, hnext⟩ | ⟨hnote, -⟩
  · have hpending : s.1.pending i = some a := by simp only [Pool.pending, hp]
    rw [hnext] at hid
    rcases note_deep hid with hdeep | hdue
    · rcases hs.cared id hdeep with hdue | hcared
      · exact .inr (cared_due hs hpending hc hdeep (hobeys.1 id hdue))
      · exact .inr (hkept hdeep hcared)
    · rw [hnext]
      exact .inl hdue
  · rw [hnote] at hid ⊢
    exact (hs.cared id hid).imp_right (hkept hid)

end

/-! ## Every sweep of every run -/

/-- The run, started when the sweep is, with the calls of the sweep noted. -/
def watch (w : Jobs.Queue worker) (options : Jobs.JobQueueOptions) (chains : List ChainClient)
    (batchSize : Option Nat) : Watched :=
  (w.next Jobs.handle (.spawn (do let _ ← sweep options chains batchSize)), {})

/-- **A deep deposit is queued**: in every run, for every sweep whose steps and those beside it are `Attended`,
once the sweep has ended every intent whose deposit it has found deep, if still `DETECTED`, has a job of its own
that confirms it and is `PENDING` or `RUNNING`. -/
theorem deep_queued (clock : Time) (db : Intent.Db) (before during : Jobs.Schedule worker)
    (options : Jobs.JobQueueOptions) (chains : List ChainClient) (batchSize : Option Nat)
    (htasks : ∀ p, .spawn p ∈ before ++ during → IsTask p ∨ ∃ q : Routine Unit, p = Jobs.within none q) :
    let w : Jobs.Queue worker := Pool.exec Jobs.handle ⟨.fresh clock { intents := db }, []⟩ before
    let i := w.tasks.length
    let s := Runs.exec (Pool.observe Jobs.handle Reading.note i) (watch w options chains batchSize) during
    Runs.Along (Pool.observe Jobs.handle Reading.note i) (Attended i) (watch w options chains batchSize) during →
      s.1.returned i = true ∨ s.1.threw i = true →
        ∀ id ∈ s.2.deep, stateOf s.1.store.outer.intents id = some .detected →
          ∃ row ∈ s.1.store.jobs.rows, Live id row := by
  intro w i s hduring hend id hdeep hdetected
  have hw : w.GhostInv completion.protocol (completion.Sound fun _ => True) :=
    completion_exec (Knowledge.knows_nil trivial) fun p hp => htasks p (List.mem_append_left _ hp)
  have hstart : Tended i (watch w options chains batchSize) := by
    have hknown : (w.exec Jobs.handle [.spawn (do let _ ← sweep options chains batchSize)]).GhostInv
        completion.protocol (completion.Sound fun _ => True) := by
      refine completion_exec hw fun p hp => ?_
      obtain rfl := Choice.spawn.inj (List.mem_singleton.1 hp)
      exact .inl (.sweep options chains batchSize)
    exact ⟨hknown, ⟨_, List.getElem?_concat_length, sweep_sweeping options chains batchSize⟩, nofun⟩
  have hspawn : Runs.Along (Pool.observe Jobs.handle Reading.note i) (fun _ c => Spawns c)
      (watch w options chains batchSize) during :=
    Runs.along_of_forall (P := Spawns) (fun c hc p hp => htasks p (List.mem_append_right _ (hp ▸ hc))) _
  have hs : Tended i s :=
    Runs.exec_inv (fun s c hs hc => observe_tended hs hc.1 hc.2) hstart (hspawn.and hduring)
  obtain ⟨out, hdue⟩ := hs.keeps.ended hend
  rcases hs.cared id hdeep with hid | hpast | hlive
  · exact absurd (hdue.symm.trans hid) nofun
  · exact absurd hdetected hpast.not_detected
  · exact hlive

/-- The rule at the shop's intent: a sweep finds its deposit deep and enqueues the confirmation. -/
theorem deep_queued_swept :
    let s := Runs.exec (Pool.observe Jobs.handle Reading.note 0)
      (watch ⟨.fresh 0 { intents := Intent.detectedDb }, []⟩ { workerId := "w" } [ethereum] none)
      [next 0, next 0, next 0, next 0]
    s.2.deep = ["pi"] ∧ ∀ id ∈ s.2.deep, stateOf s.1.store.outer.intents id = some .detected →
      ∃ row ∈ s.1.store.jobs.rows, Live id row := by
  refine ⟨by decide +kernel, deep_queued 0 Intent.detectedDb [] [next 0, next 0, next 0, next 0] { workerId := "w" }
    [ethereum] none (fun p hp => ?_) (by decide +kernel) (by decide +kernel)⟩
  simp [next] at hp

/-- Both deposits are found deep, and the second `INSERT` does nothing. -/
def sweptTwice : Jobs.Schedule worker := List.replicate 4 (next 0) ++ List.replicate 3
  (.step 0 { outer := { status := ⟨"0xa", .confirmed, 12, none, none, none⟩ }, uuid := "job-2" })

/-- A worker claims the confirmation of `pi`, which has one attempt, and a statement fails. -/
def deadLettered : Jobs.Schedule worker :=
  [.spawn (do let _ ← sweep { workerId := "w", defaultMaxAttempts := 1 } [ethereum] none),
   next 0, next 0, next 0, next 0, .spawn (Jobs.run { workerId := "w" } jobHandlers queueDeposits 1),
   next 1, next 1, next 1, next 1, .step 1 { outer := { intent := { now := 3, fault := some .updateIntent } } },
   next 1]

/-- The next sweep. -/
def sweptAgain : Jobs.Schedule worker := List.replicate 4
  (.step 2 { outer := { status := ⟨"0xa", .confirmed, 12, none, none, none⟩ }, uuid := "job-2" })

/-- A sweep leaves the second of two intents that one transaction pays, and an intent whose confirmation was
dead-lettered, `DETECTED` without a job. -/
theorem deep_forgotten :
    (let s := Runs.exec (Pool.observe Jobs.handle Reading.note 0)
        (watch ⟨.fresh 0 { intents := twicePaidDb }, []⟩ { workerId := "w" } [ethereum] none) sweptTwice
     s.1.returned 0 = true ∧ "pj" ∈ s.2.deep ∧
      stateOf s.1.store.outer.intents "pj" = some .detected ∧ ¬ ∃ row ∈ s.1.store.jobs.rows, Live "pj" row) ∧
    let w : Jobs.Queue worker := Pool.exec Jobs.handle ⟨.fresh 0 { intents := Intent.detectedDb }, []⟩ deadLettered
    let s := Runs.exec (Pool.observe Jobs.handle Reading.note 2) (watch w { workerId := "w" } [ethereum] none)
      sweptAgain
    s.1.returned 2 = true ∧ "pi" ∈ s.2.deep ∧
      stateOf s.1.store.outer.intents "pi" = some .detected ∧ ¬ ∃ row ∈ s.1.store.jobs.rows, Live "pi" row := by
  decide +kernel

end NexoraGateway.Worker
