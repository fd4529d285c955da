import NexoraGateway.Async.Runs
import NexoraGateway.Jobs.Consistency
import NexoraGateway.Worker.Confirmed
import NexoraGateway.Worker.Producers

/-!
# One job for a transfer (deposit-watcher.ts:51-60, :189-235)

A transfer that is delivered again is looked up again, and the job that its first delivery left has moved the
intent on by then: it is enqueued once more, under the other key. `one_attribution` says that the lookups are all
there is to it: in every run in which they agree, the table has at most one job for the transfer.

* `Agrees` — the condition on one step.
* `Fated` — the invariant.
-/
namespace NexoraGateway.Worker

open Async Store

/-- An intent awaits a deposit there. -/
def Awaited (db : Intent.Db) (chainId address : String) : Prop :=
  ∃ row ∈ db.intents.rows, row.depositChain = some chainId ∧ row.depositAddress = some address ∧
    row.state ∈ Intent.acceptsDeposit

instance (db : Intent.Db) (chainId address : String) : Decidable (Awaited db chainId address) :=
  inferInstanceAs (Decidable (∃ row ∈ db.intents.rows, _))

theorem findAwaitingDepositAt_isSome {chainId address : String} {db : Intent.Db} :
    (findAwaitingDepositAt chainId address db).isSome ↔ Awaited db chainId address := by
  simp only [findAwaitingDepositAt, Option.isSome_map, List.isSome_head?, ne_eq, ← List.length_pos_iff,
    List.length_insertionSort, List.length_pos_iff_exists_mem, List.mem_filter, decide_eq_true_eq, Awaited]

/-- A lookup that is answered, of a transfer with the key, finds an intent or none as `awaited` says. -/
def Agrees (key : String) (awaited : Bool) (w : Jobs.Queue worker) :
    Choice (Jobs.Call worker) Jobs.Answer Jobs.JsError Unit (Jobs.Oracle worker) → Prop
  | .spawn _ => True
  | .step i o => o.outer.rejects = none → ∀ options chainId event,
      w.tasks[i]? = some (onDeposit options chainId event) → depositIdempotencyKey chainId event = key →
        (Awaited w.store.outer.intents chainId event.to ↔ awaited = true)

/-- The job that is not enqueued when all lookups find an intent, or none does. -/
def ruledOut (key : String) : Bool → String × String
  | true => (jobDepositUnattributed, key ++ ":unattributed")
  | false => (jobDepositRecord, key)

def Allowed (key : String) (awaited : Bool) (jobType key' : String) : Prop := (jobType, key') ≠ ruledOut key awaited

/-- The task is a delivery of the transfer that has not been looked up. -/
def Delivered (key : String) (p : Task Unit) : Prop :=
  ∃ options chainId event, p = onDeposit options chainId event ∧ depositIdempotencyKey chainId event = key

/-- No such job is there, and none is to be enqueued but by a delivery that has not been looked up. -/
structure Fated (key : String) (awaited : Bool) (w : Jobs.Queue worker) : Prop where
  jobs : ∀ row ∈ w.store.jobs.rows, Allowed key awaited row.jobType row.idempotencyKey
  tasks : ∀ p ∈ w.tasks, EnqueuesOnly (Allowed key awaited) p ∨ Delivered key p

variable {key : String} {awaited : Bool}

/-- The jobs of another transfer are not ruled out. -/
theorem allowed_other {chainId : String} {event : DepositEvent} (hkey : depositIdempotencyKey chainId event ≠ key)
    (intent : Option Intent.PaymentIntent) :
    Allowed key awaited (depositJob chainId event intent).1 (depositJob chainId event intent).2 := by
  have htypes : jobDepositUnattributed ≠ jobDepositRecord := by decide
  intro h
  cases intent with
  | none =>
    cases awaited with
    | true =>
      injection h with _ h
      exact hkey (by simpa [depositJob] using h)
    | false => exact htypes (Prod.ext_iff.1 h).1
  | some intent =>
    cases awaited with
    | true => exact htypes.symm (Prod.ext_iff.1 h).1
    | false => exact hkey (Prod.ext_iff.1 h).2

/-- The job that a lookup leads to is not ruled out when it agrees. -/
theorem allowed_agreed {chainId : String} {event : DepositEvent} {intent : Option Intent.PaymentIntent}
    (h : intent.isSome ↔ awaited = true) :
    Allowed key awaited (depositJob chainId event intent).1 (depositJob chainId event intent).2 := by
  have htypes : jobDepositUnattributed ≠ jobDepositRecord := by decide
  intro hsame
  cases intent with
  | none =>
    obtain rfl : awaited = false := by simpa using h
    exact htypes (Prod.ext_iff.1 hsame).1
  | some intent =>
    obtain rfl : awaited = true := by simpa using h
    exact htypes.symm (Prod.ext_iff.1 hsame).1

theorem task_fated {p : Task Unit} (hp : IsTask p ∨ ∃ q : Routine Unit, p = Jobs.within none q) :
    EnqueuesOnly (Allowed key awaited) p ∨ Delivered key p := by
  rcases hp with hp | ⟨q, rfl⟩
  · cases hp with
    | loop options queueName n => exact .inl (loop_enqueues options jobHandlers queueName n)
    | deposit options chainId event =>
      by_cases hkey : depositIdempotencyKey chainId event = key
      · exact .inr ⟨options, chainId, event, rfl, hkey⟩
      · exact .inl (onDeposit_enqueues options (allowed_other hkey))
    | sweep options chains batchSize =>
      have hconfirm (chainId txHash : String) :
          Allowed key awaited jobDepositConfirm ("confirm:" ++ chainId ++ ":" ++ txHash) := fun h => by
        have htype := congrArg Prod.fst h
        cases awaited
        · exact absurd htype (show jobDepositConfirm ≠ jobDepositRecord by decide)
        · exact absurd htype (show jobDepositConfirm ≠ jobDepositUnattributed by decide)
      exact .inl (Prog.Only.bind (sweep_enqueues options chains batchSize hconfirm) fun _ => Prog.Only.ret _)
    | op op hop => exact .inl (within_enqueues none _)
  · exact .inl (within_enqueues none q)

/-- A lookup that agrees leads to no job that is ruled out. -/
theorem lookup_fated (options : Jobs.JobQueueOptions) {chainId : String} {event : DepositEvent} {o : Oracle} {s : State}
    (h : o.rejects = none → (Awaited s.intents chainId event.to ↔ awaited = true))
    {r : Except Jobs.JsError (Option Intent.PaymentIntent)}
    (hr : (handle (.findAwaitingDepositAt chainId event.to) o s).1 = r) :
    EnqueuesOnly (Allowed key awaited)
      ((Prog.ofExcept r : Task (Option Intent.PaymentIntent)).bind (enqueueDeposit options chainId event)) := by
  cases r with
  | error e => exact Prog.Only.throw trivial
  | ok intent =>
    refine enqueueDeposit_enqueues options (allowed_agreed ?_)
    cases hrejects : o.rejects with
    | some e =>
      simp only [handle, hrejects, request] at hr
      cases hr
    | none =>
      obtain ⟨-, rfl⟩ := request_ok hr
      exact findAwaitingDepositAt_isSome.trans (h hrejects)

theorem next_fated {w : Jobs.Queue worker} (h : Fated key awaited w)
    {c : Choice (Jobs.Call worker) Jobs.Answer Jobs.JsError Unit (Jobs.Oracle worker)}
    (hspawn : ∀ p, c = .spawn p → IsTask p ∨ ∃ q : Routine Unit, p = Jobs.within none q)
    (hc : Agrees key awaited w c) : Fated key awaited (w.next Jobs.handle c) := by
  rcases w.next_cases (h := Jobs.handle) c with ⟨p, rfl, hnext⟩ | ⟨i, o, a, k, rfl, hi, hnext⟩ | hnext
  · rw [hnext]
    refine ⟨h.jobs, fun q hq => ?_⟩
    rcases List.mem_append.1 hq with hq | hq
    · exact h.tasks q hq
    · rw [List.mem_singleton.1 hq]
      exact task_fated (hspawn p rfl)
  · rw [hnext]
    have hset (hk : EnqueuesOnly (Allowed key awaited) (k (Jobs.handle a o w.store).1)) :
        ∀ p ∈ w.tasks.set i (k (Jobs.handle a o w.store).1),
          EnqueuesOnly (Allowed key awaited) p ∨ Delivered key p := by
      intro p hp
      rcases List.mem_or_eq_of_mem_set hp with hp | rfl
      · exact h.tasks p hp
      · exact .inl hk
    rcases h.tasks _ (List.mem_of_getElem? hi) with ⟨ha, hk⟩ | ⟨options, chainId, event, heq, hkey⟩
    · exact ⟨enqueued_allowed h.jobs ha, hset (hk _ fun _ _ => trivial)⟩
    · rw [heq] at hi
      injection heq with ha hk
      subst ha
      obtain rfl := eq_of_heq hk
      refine ⟨enqueued_allowed h.jobs trivial, hset (lookup_fated options (fun hanswered => ?_) rfl)⟩
      exact hc hanswered options chainId event hi hkey
  · rw [hnext]
    exact h

/-- **One job for a transfer**: in every run in which all lookups for a transfer find an intent, or none does, the
table has at most one job for it, of either type. -/
theorem one_attribution (clock : Time) (db : Intent.Db) (key : String) (awaited : Bool) (cs : Jobs.Schedule worker)
    (htasks : ∀ p, .spawn p ∈ cs → IsTask p ∨ ∃ q : Routine Unit, p = Jobs.within none q)
    (hcs : Runs.Along (Pool.next Jobs.handle) (Agrees key awaited) ⟨.fresh clock { intents := db }, []⟩ cs) :
    let w : Jobs.Queue worker := Pool.exec Jobs.handle ⟨.fresh clock { intents := db }, []⟩ cs
    ∀ row ∈ w.store.jobs.rows, ∀ row' ∈ w.store.jobs.rows, OfTransfer key row → OfTransfer key row' → row = row' := by
  intro w row hrow row' hrow' hof hof'
  have hinv : Fated key awaited w :=
    Runs.exec_inv (fun w c hw hc => next_fated hw hc.1 hc.2)
      ⟨fun _ h => absurd h List.not_mem_nil, fun _ h => absurd h List.not_mem_nil⟩
      ((Runs.along_of_forall (P := fun c => ∀ p, c = .spawn p → IsTask p ∨ ∃ q : Routine Unit, p = Jobs.within none q)
        (by rintro _ hc p rfl; exact htasks p hc) _).and hcs)
  have hkeys : (w.store.jobs.rows.map Jobs.Job.idempotencyKey).Nodup :=
    (Jobs.exec_consistent (X := worker) [] clock { intents := db } cs).keys
  refine List.inj_on_of_nodup_map hkeys hrow hrow' ?_
  have hallowed := hinv.jobs row hrow
  have hallowed' := hinv.jobs row' hrow'
  rcases hof with ⟨htype, hkey⟩ | ⟨htype, hkey⟩ <;> rcases hof' with ⟨htype', hkey'⟩ | ⟨htype', hkey'⟩
  · rw [hkey, hkey']
  · cases awaited
    · exact absurd (by rw [htype, hkey]; rfl) hallowed
    · exact absurd (by rw [htype', hkey']; rfl) hallowed'
  · cases awaited
    · exact absurd (by rw [htype', hkey']; rfl) hallowed'
    · exact absurd (by rw [htype, hkey]; rfl) hallowed
  · rw [hkey, hkey']

/-- Where the transfer to the shop's intent is delivered. -/
def delivery : Task Unit := onDeposit (queueOptions config) "ethereum" transfer

/-- Task `i` makes a call, at time 2. -/
def answer (i : Nat) (uuid : Id) : Choice (Jobs.Call worker) Jobs.Answer Jobs.JsError Unit (Jobs.Oracle worker) :=
  .step i { outer := { intent := { now := 2 } }, uuid }

/-- The transfer is delivered twice while the intent is quoted. -/
def deliveredTwice : Jobs.Schedule worker :=
  [.spawn delivery, .spawn delivery, answer 0 "job", answer 1 "other", answer 0 "job", answer 1 "other"]

theorem agrees_of_awaited {key : String} {w : Jobs.Queue worker} {i : Nat} {o : Jobs.Oracle worker}
    (h : ∀ chainId address, w.pending i = some (.outer none (Call.findAwaitingDepositAt chainId address)) →
      Awaited w.store.outer.intents chainId address) : Agrees key true w (.step i o) := by
  intro _ options chainId event hi _
  exact iff_of_true (h chainId event.to (by simp only [Pool.pending, hi]; rfl)) rfl

def enqueues : Jobs.Call worker → Bool
  | .enqueue .. => true
  | _ => false

/-- The rule in that run. -/
theorem one_attribution_twice :
    let w : Jobs.Queue worker :=
      Pool.exec Jobs.handle ⟨.fresh 0 { intents := Intent.quotedDb }, []⟩ deliveredTwice
    w.returned 0 = true ∧ w.returned 1 = true ∧
      ∀ row ∈ w.store.jobs.rows, ∀ row' ∈ w.store.jobs.rows,
        OfTransfer (depositIdempotencyKey "ethereum" transfer) row →
          OfTransfer (depositIdempotencyKey "ethereum" transfer) row' → row = row' := by
  refine ⟨by decide +kernel, by decide +kernel, one_attribution 0 Intent.quotedDb _ true deliveredTwice ?_ ?_⟩
  · intro p hp
    refine .inl ?_
    simp only [deliveredTwice, answer, List.mem_cons, Choice.spawn.injEq, reduceCtorEq, List.not_mem_nil, or_false]
      at hp
    rcases hp with rfl | rfl <;> exact .deposit _ _ _
  · have hlookup (w : Jobs.Queue worker) (i : Nat) (hi : w.pending i =
        some (.outer none (Call.findAwaitingDepositAt "ethereum" "0xdeposit")))
        (hw : Awaited w.store.outer.intents "ethereum" "0xdeposit") (o : Jobs.Oracle worker) :
        Agrees (depositIdempotencyKey "ethereum" transfer) true w (.step i o) := by
      refine agrees_of_awaited fun chainId address h => ?_
      rw [hi] at h
      cases h
      exact hw
    have henqueue (w : Jobs.Queue worker) (i : Nat)
        (hi : (w.pending i).any enqueues = true) (o : Jobs.Oracle worker) :
        Agrees (depositIdempotencyKey "ethereum" transfer) true w (.step i o) := by
      refine agrees_of_awaited fun chainId address h => ?_
      rw [h] at hi
      cases hi
    -- both lookups, and then both enqueues
    refine ⟨trivial, trivial, ?_, ?_, ?_, ?_, trivial⟩
    · exact hlookup _ 0 rfl (by decide +kernel) _
    · exact hlookup _ 1 rfl (by decide +kernel) _
    · exact henqueue _ 0 (by decide +kernel) _
    · exact henqueue _ 1 (by decide +kernel) _

/-- The transfer is delivered, its job is handled, and then it is delivered again. -/
def redelivered : Jobs.Schedule worker :=
  [.spawn delivery, answer 0 "job", answer 0 "job",
    .spawn (Jobs.run (queueOptions config) jobHandlers queueDeposits 1)] ++ List.replicate 20 (answer 1 "") ++
  [.spawn delivery, answer 2 "other", answer 2 "other"]

/-- The table has a job of either type for the one transfer. -/
theorem attributed_and_unattributed :
    let w : Jobs.Queue worker := Pool.exec Jobs.handle ⟨.fresh 0 { intents := Intent.quotedDb }, []⟩ redelivered
    (w.store.jobs.rows.map fun row =>
      (row.jobType, decide (OfTransfer (depositIdempotencyKey "ethereum" transfer) row))) =
        [(jobDepositRecord, true), (jobDepositUnattributed, true)] ∧
    Intent.stateOf w.store.outer.intents "pi" = some .detected := by
  decide +kernel

end NexoraGateway.Worker
