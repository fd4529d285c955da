import NexoraGateway.Async.Loops
import NexoraGateway.Jobs.Queue

/-!
# The polling loop under rejected statements (job-queue.ts:298-343)

A rejection of `complete` is caught with the failures of the handler. Those of `reclaimStale`, of `claimBatch` and of
the statements of `fail` are caught nowhere, and end the loop.

* `polls_iff` — a loop polls until it is aborted just when every statement that is rejected is one of `complete`.
* `Waits` — what becomes of a job that is due. Once its `run_at` is past no job is put before it, and each claim takes
  one that is.
-/
namespace NexoraGateway.Jobs

open Async Store

variable {X : Outside}

/-- The loop amid the calls of others. -/
abbrev Course (X : Outside) := Nat → Turn (Call X) (Oracle X)

/-- `complete`. -/
def Call.Completes : Call X → Prop
  | writeOutcome _ .succeeded => True
  | _ => False

/-- The statements of the loop. -/
def Call.IsStatement : Call X → Prop
  | reclaimStale _ | claimBatch .. | writeOutcome .. => True
  | enqueue .. | random | sleep _ | outer .. => False

/-- A statement of the loop is rejected. -/
def Rejected (c : CallAt (Call X) (Turn (Call X) (Oracle X)) (Db X)) : Prop :=
  c.call.IsStatement ∧ c.oracle.own.rejects ≠ none

/-- The calls whose failures the loop does not catch. -/
def Call.Critical : Call X → Prop
  | writeOutcome _ .succeeded | enqueue .. | outer .. => False
  | reclaimStale _ | claimBatch .. | writeOutcome _ (.deadLettered _) | writeOutcome _ (.retried ..) | random
  | sleep _ => True

/-- Time that is set lies not in the past. -/
def Call.Onward : Call X → Prop
  | enqueue _ _ _ _ _ delayMs => 0 ≤ delayMs
  | writeOutcome _ (.retried delay _) => 0 ≤ delay
  | writeOutcome _ .succeeded | writeOutcome _ (.deadLettered _) | reclaimStale _ | claimBatch .. | random | sleep _
  | outer .. => True

section
variable (options : JobQueueOptions) (handlers : Handlers X) (queueName : String) (ω : Course X) (db : Db X)

/-- One turn of the loop that is not aborted. -/
def cycle : Task X Unit := do
  let _ ← reclaimJobs options
  let _ ← runOnce options handlers queueName
  Task.sleep options.pollIntervalMs

/-- The calls made and the table after `k` turns. -/
def after : Nat → Nat × Db X
  | 0 => (0, db)
  | k + 1 => ((cycle options handlers queueName).run (amid handle) ω (after k).1 (after k).2).2

/-- What the loop runs in: it claims at least one job at a time (config.ts:161), no `run_at` is set back, time passes,
and no row is locked for ever. -/
structure Fair : Prop where
  concurrency : 0 < options.concurrency
  onward : ∀ n, ∀ c ∈ (ω n).others, c.1.Onward
  time : ∀ t k, ∃ j, k ≤ j ∧ t < (after options handlers queueName ω db j).2.clock
  unlocked : ∀ id k, ∃ j, k ≤ j ∧ id ∉ (ω ((after options handlers queueName ω db j).1 + 1)).own.skips

/-- The job is claimed, here or by another worker, or a worker that had claimed it before writes its outcome after
all. -/
def TakenUp (id : Id) (n : Nat) (s s' : Db X) : Prop :=
  s.claimsOf id < s'.claimsOf id ∨
    ∃ m, n ≤ m ∧ ∃ c ∈ (ω m).others, ∃ job outcome, c.1 = .writeOutcome job outcome ∧ job.id = id

/-- The loop does not settle before it is aborted, whenever that is; and once nothing is rejected any more, every job
that is due is taken up in a later turn. -/
structure Polls : Prop where
  lives : ∀ n, ∃ x, ((run options handlers queueName n).run (amid handle) ω 0 db).1 = .ok x
  claims : Fair options handlers queueName ω db → ∀ k,
    let s := after options handlers queueName ω db k
    (∀ n, ∀ c ∈ (run options handlers queueName n).calls (amid handle) ω s.1 s.2, ¬ Rejected c) →
      ∀ row ∈ s.2.jobs.rows, Runnable queueName s.2.clock row →
        ∃ j, k ≤ j ∧ TakenUp ω row.id s.1 s.2 (after options handlers queueName ω db j).2

end

variable {options : JobQueueOptions} {handlers : Handlers X} {queueName : String} {ω : Course X} {db : Db X}
  {n m k : Nat} {s : Db X}

/-! ## When the loop ends -/

theorem strict_fail (job : JobRecord) (attemptCount : Int) (error : JsError) (delayMs : Option Int) :
    (fail options job attemptCount error delayMs : Task X FailResult).Strict Call.Critical := by
  unfold fail
  split
  · exact Prog.Strict.bind (Prog.Strict.await trivial) fun _ => trivial
  · refine Prog.Strict.bind ?_ fun delay => Prog.Strict.bind (Prog.Strict.await trivial) fun _ => trivial
    cases delayMs with
    | some delay => trivial
    | none => exact Prog.Strict.bind (Prog.Strict.await trivial) fun _ => trivial

theorem within_uncritical {α : Type} (job : Option JobRecord) (p : X.Prog α) :
    (within job p).Only (fun a => ¬ a.Critical) fun _ => True := by
  induction p with
  | ret x => exact Prog.Only.ret x
  | throw e => exact Prog.Only.throw trivial
  | call b k ih => exact ⟨id, fun r _ => ih r⟩

/-- The handler and `complete` are tried. -/
theorem strict_processJob (job : JobRecord) : (processJob options handlers job).Strict Call.Critical := by
  unfold processJob
  split
  · exact Prog.Strict.bind (strict_fail _ _ _ _) fun _ => trivial
  · refine Prog.Strict.tryCatch (Prog.Only.bind (within_uncritical _ _) fun _ => Prog.Only.await id) fun error => ?_
    exact Prog.Strict.bind (strict_fail _ _ _ _) fun _ => trivial

theorem strict_runOnce : (runOnce options handlers queueName).Strict Call.Critical :=
  Prog.Strict.bind (Prog.Strict.await trivial) fun batch =>
    Prog.Strict.bind (Prog.Strict.forM strict_processJob batch) fun _ => trivial

theorem strict_run (n : Nat) : (run options handlers queueName n).Strict Call.Critical := by
  induction n with
  | zero => trivial
  | succ n ih =>
    refine Prog.Strict.bind (Prog.Strict.await trivial) fun _ => Prog.Strict.bind strict_runOnce fun _ => ?_
    split
    · trivial
    · exact Prog.Strict.bind (Prog.Strict.await trivial) fun _ => ih

/-- A request that is not rejected is answered. -/
theorem request_ok_iff {ε α S : Type} {rejects : Option ε} {lost : Bool} {result : α × S} {s : S} :
    (∃ x, (request rejects lost result s).1 = .ok x) ↔ rejects = none := by
  cases rejects with
  | none => exact iff_of_true ⟨_, rfl⟩ rfl
  | some e => exact iff_of_false (fun ⟨x, hx⟩ => by cases hx) nofun

theorem critical_ok_iff {c : CallAt (Call X) (Turn (Call X) (Oracle X)) (Db X)} (hc : c.call.Critical) :
    (∃ x, (amid handle c.call c.oracle c.store).1 = .ok x) ↔ ¬ Rejected c := by
  obtain ⟨a, turn, s⟩ := c
  change (∃ x, (execute turn.own s a).1 = .ok x) ↔ ¬ (a.IsStatement ∧ turn.own.rejects ≠ none)
  cases a with
  | enqueue | outer => exact hc.elim
  | random | sleep => exact iff_of_true ⟨_, rfl⟩ fun h => h.1
  | reclaimStale | claimBatch | writeOutcome =>
    rw [not_and_not_right]
    exact request_ok_iff.trans ⟨fun h _ => h, fun h => h trivial⟩

theorem critical_iff {a : Call X} (ha : a.IsStatement) : a.Critical ↔ ¬ a.Completes := by
  cases a with
  | reclaimStale | claimBatch => exact iff_of_true trivial id
  | writeOutcome job outcome =>
    cases outcome with
    | succeeded => exact iff_of_false id (not_not_intro trivial)
    | deadLettered | retried => exact iff_of_true trivial id
  | enqueue | random | sleep | outer => exact ha.elim

/-- **A run resolves just when** every statement that is rejected is one of `complete`. -/
theorem run_ok_iff : (∃ x, ((run options handlers queueName n).run (amid handle) ω m s).1 = .ok x) ↔
    ∀ c ∈ (run options handlers queueName n).calls (amid handle) ω m s, Rejected c → c.call.Completes := by
  rw [(strict_run n).ok_iff]
  refine forall₂_congr fun c _ => ?_
  constructor
  · intro h hrejected
    by_contra hcompletes
    have hcritical := (critical_iff hrejected.1).2 hcompletes
    exact (critical_ok_iff hcritical).1 (h hcritical) hrejected
  · intro h hcritical
    refine (critical_ok_iff hcritical).2 fun hrejected => ?_
    exact (critical_iff hrejected.1).1 hcritical (h hrejected)

/-! ## Turn after turn -/

theorem run_add_two : run options handlers queueName (n + 2) =
    (cycle options handlers queueName).bind fun _ => run options handlers queueName (n + 1) := by
  unfold cycle
  simp only [Prog.bind_def, Prog.bind_assoc]
  rfl

/-- A loop that lives goes on after each turn. -/
theorem after_lives (hlives : ∀ n, ∃ x, ((run options handlers queueName n).run (amid handle) ω 0 db).1 = .ok x) (k n) :
    let s := after options handlers queueName ω db k
    ∃ x, ((run options handlers queueName n).run (amid handle) ω s.1 s.2).1 = .ok x := by
  induction k generalizing n with
  | zero => exact hlives n
  | succ k ih =>
    cases n with
    | zero => exact ⟨(), rfl⟩
    | succ n =>
      obtain ⟨x, hx⟩ := ih (n + 2)
      rw [run_add_two] at hx
      obtain ⟨y, m, s, hcycle, hrest⟩ := Prog.ok_of_run_bind _ _ (Prod.ext hx rfl)
      refine ⟨x, ?_⟩
      simp only [after, hcycle, hrest]

/-- Each turn resolves. -/
theorem cycle_ok (hlives : ∀ n, ∃ x, ((run options handlers queueName n).run (amid handle) ω 0 db).1 = .ok x)
    (k : Nat) :
    let s := after options handlers queueName ω db k
    ∃ x, ((cycle options handlers queueName).run (amid handle) ω s.1 s.2).1 = .ok x := by
  obtain ⟨x, hx⟩ := after_lives hlives k 2
  rw [run_add_two] at hx
  obtain ⟨y, m, s, hcycle, -⟩ := Prog.ok_of_run_bind _ _ (Prod.ext hx rfl)
  exact ⟨y, congrArg Prod.fst hcycle⟩

/-! ## A job that waits -/

section
variable {a : Call X} {o : Oracle X} {row : Job}

/-- Only time moves the clock. -/
theorem clock_handle (a : Call X) (o : Oracle X) (s : Db X) : (handle a o s).2.clock = s.clock + o.took := by
  have hkeep : (execute o s a).2.clock = s.clock := by
    cases a with
    | enqueue queue jobType payload key maxAttempts delayMs =>
      simp only [execute, enqueue]
      split
      · exact request_rule (P := fun t : Db X => t.clock = s.clock) rfl rfl
      · split
        · rfl
        · exact request_rule (P := fun t : Db X => t.clock = s.clock) rfl rfl
    | claimBatch | writeOutcome | reclaimStale => exact request_rule (P := fun t : Db X => t.clock = s.clock) rfl rfl
    | random | sleep | outer => rfl
  change (execute o s a).2.clock + o.took = _
  rw [hkeep]

theorem le_clock (a : Call X) (o : Oracle X) (s : Db X) : s.clock ≤ (handle a o s).2.clock := by
  rw [clock_handle]
  exact Int.le_add_of_nonneg_right (Int.natCast_nonneg _)

theorem claimsOf_le (a : Call X) (o : Oracle X) (s : Db X) (id : Id) : s.claimsOf id ≤ (handle a o s).2.claimsOf id :=
  (handle_effect a o s).claims.sublist.countP_le

/-- The jobs that are put before it, and itself. -/
def Before (queueName : String) (row other : Job) : Prop :=
  other.queue = queueName ∧ other.status = .pending ∧ other.runAt ≤ row.runAt

instance (queueName : String) (row : Job) : DecidablePred (Before queueName row) := fun _ =>
  inferInstanceAs (Decidable (_ ∧ _ ∧ _))

def ahead (queueName : String) (row : Job) (s : Db X) : Nat :=
  s.jobs.rows.countP fun other => Before queueName row other

theorem countP_updateWhere {t : Table Job.id} {p : Job → Bool} {f : Job → Job} {hf : ∀ r, (f r).id = r.id}
    {q : Job → Bool} (h : ∀ r ∈ t.rows, p r = true → q (f r) = false) :
    (t.updateWhere p f hf).rows.countP q = t.rows.countP fun r => q r && !p r := by
  rw [Table.updateWhere, List.countP_map]
  refine List.countP_congr fun r hr => ?_
  cases hp : p r with
  | false => simp [hp]
  | true => simp [hp, h r hr hp]

/-- Once its time is past, no job is put before it any more. -/
theorem ahead_le (ha : a.Onward) (hpast : row.runAt < s.clock) :
    ahead queueName row (handle a o s).2 ≤ ahead queueName row s := by
  have hless {p : Job → Bool} {f : Job → Job} (hf : ∀ r, (f r).id = r.id)
      (h : ∀ r ∈ s.jobs.rows, p r = true → ¬ Before queueName row (f r)) :
      (s.jobs.updateWhere p f hf).rows.countP (fun other => Before queueName row other) ≤ ahead queueName row s := by
    rw [countP_updateWhere fun r hr hp => decide_eq_false (h r hr hp)]
    exact List.countP_mono_left fun r _ hr => (Bool.and_eq_true_iff.1 hr).1
  have heffect := handle_effect a o s
  generalize (handle a o s).2 = s' at heffect ⊢
  cases heffect with
  | idle | outer => exact le_rfl
  | @enqueued queue jobType payload key maxAttempts delayMs id jobs clock hkey hins =>
    have hdelay : 0 ≤ delayMs := ha
    rw [ahead, Table.rows_insert? hins, List.countP_append, List.countP_singleton, if_neg]
    · exact le_rfl
    · rw [decide_eq_true_iff]
      intro h
      have hle : s.clock + delayMs ≤ row.runAt := h.2.2
      exact absurd hle (not_le.2 (hpast.trans_le (Int.le_add_of_nonneg_right hdelay)))
  | claimed limit workerId clock hbatch hnodup => exact hless (lock_id _ _) fun r _ _ h => absurd h.2.1 (by simp [lock])
  | wrote job outcome clock =>
    refine hless (set_id outcome _) fun r _ _ h => ?_
    cases outcome with
    | succeeded | deadLettered => exact absurd h.2.1 (by simp [Outcome.set])
    | retried delay lastError =>
      have hdelay : 0 ≤ delay := ha
      have hle : s.clock + delay ≤ row.runAt := h.2.2
      exact absurd hle (not_le.2 (hpast.trans_le (Int.le_add_of_nonneg_right hdelay)))
  | reclaimed timeout clock =>
    refine hless (reclaim_id _) fun r _ _ h => ?_
    have hle : s.clock ≤ row.runAt := h.2.2
    exact absurd hle (not_le.2 hpast)

/-- The batch begins with a job that is due no later. -/
theorem runnable_first {limit : Nat} (hlimit : 0 < limit) (hrow : row ∈ s.jobs.rows)
    (hrun : Runnable queueName s.clock row) (hskip : row.id ∉ o.skips) :
    ∃ first ∈ runnable o queueName limit s, first.runAt ≤ row.runAt := by
  have htake (sorted : List Job) (hmem : row ∈ sorted) (hsorted : sorted.Pairwise fun a b => a.runAt ≤ b.runAt) :
      ∃ first ∈ sorted.take limit, first.runAt ≤ row.runAt := by
    obtain ⟨limit, rfl⟩ := Nat.exists_eq_succ_of_ne_zero hlimit.ne'
    cases sorted with
    | nil => exact absurd hmem List.not_mem_nil
    | cons first rest =>
      refine ⟨first, List.mem_cons_self, ?_⟩
      rcases List.mem_cons.1 hmem with rfl | hrest
      · exact le_rfl
      · exact List.rel_of_pairwise_cons hsorted hrest
  have hdue : row ∈ s.jobs.rows.filter fun other => Runnable queueName s.clock other ∧ other.id ∉ o.skips :=
    List.mem_filter.2 ⟨hrow, decide_eq_true ⟨hrun, hskip⟩⟩
  exact htake _ ((List.perm_insertionSort (fun a b : Job => a.runAt ≤ b.runAt) _).mem_iff.2 hdue)
    (List.pairwise_insertionSort (fun a b : Job => a.runAt ≤ b.runAt) _)

/-- A claim that does not pass it over takes a job that is put before it, or itself. -/
theorem ahead_claim {limit : Nat} {workerId : String} {jobs : List JobRecord} (hlimit : 0 < limit)
    (hclaim : (handle (.claimBatch queueName limit workerId) o s).1 = .ok jobs) (hrow : row ∈ s.jobs.rows)
    (hrun : Runnable queueName s.clock row) (hskip : row.id ∉ o.skips) :
    ahead queueName row (handle (.claimBatch queueName limit workerId) o s).2 < ahead queueName row s := by
  obtain ⟨first, hfirst, hle⟩ := runnable_first hlimit hrow hrun hskip
  obtain ⟨hmem, hfirstrun⟩ := mem_runnable hfirst
  obtain ⟨hdb, -⟩ := request_ok hclaim
  have hjobs : (handle (.claimBatch queueName limit workerId) o s).2.jobs = s.jobs.updateWhere
      (fun other => decide (other.id ∈ (runnable o queueName limit s).map Job.id)) (lock s.clock workerId)
      (lock_id s.clock workerId) := congrArg Db.jobs hdb
  have htaken : 0 < s.jobs.rows.countP fun r => decide (Before queueName row r) &&
      decide (r.id ∈ (runnable o queueName limit s).map Job.id) := by
    refine List.countP_pos_iff.2 ⟨first, hmem, Bool.and_eq_true_iff.2 ⟨?_, ?_⟩⟩
    · exact decide_eq_true ⟨hfirstrun.1, hfirstrun.2.1, hle⟩
    · exact decide_eq_true (List.mem_map_of_mem hfirst)
  have hsplit := List.countP_eq_countP_filter_add s.jobs.rows (fun other => decide (Before queueName row other))
    fun r => decide (r.id ∈ (runnable o queueName limit s).map Job.id)
  rw [List.countP_filter, List.countP_filter] at hsplit
  rw [ahead, hjobs, countP_updateWhere fun r _ _ => decide_eq_false fun h => absurd h.2.1 (by simp [lock])]
  change _ < s.jobs.rows.countP fun other => decide (Before queueName row other)
  rw [hsplit]
  omega

/-! ## What a turn makes of it -/

/-- A call that sets no time back, and writes outcomes of this job only. -/
def Call.For (job : JobRecord) (a : Call X) : Prop :=
  a.Onward ∧ ∀ other outcome, a = .writeOutcome other outcome → other = job

theorem fail_for (job : JobRecord) (attemptCount : Int) (error : JsError) :
    (fail options job attemptCount error none : Task X FailResult).Only (Call.For job) fun _ => True := by
  have hwrite (outcome : Outcome) (h : (Call.writeOutcome job outcome : Call X).Onward) :
      (Call.writeOutcome job outcome : Call X).For job := ⟨h, fun other outcome h => by cases h; rfl⟩
  unfold fail
  split
  · exact Prog.Only.bind (Prog.Only.await (hwrite _ trivial)) fun _ => Prog.Only.ret _
  · rw [retryDelay, Prog.bind_def, Prog.bind_def, Prog.bind_assoc]
    refine Prog.Only.bind (Prog.Only.await ⟨trivial, fun _ _ h => nomatch h⟩) fun random => ?_
    rw [Prog.pure_def, Prog.ret_bind]
    refine Prog.Only.bind (Prog.Only.await (hwrite _ ?_)) fun _ => Prog.Only.ret _
    exact zero_le_one.trans (one_le_computeBackoffMs ..)

theorem processJob_for (job : JobRecord) : (processJob options handlers job).Only (Call.For job) fun _ => True := by
  have hwithin {α : Type} (p : X.Prog α) : (within (some job) p).Only (Call.For job) fun _ => True := by
    induction p with
    | ret x => exact Prog.Only.ret x
    | throw e => exact Prog.Only.throw trivial
    | call b k ih => exact ⟨⟨trivial, fun _ _ h => nomatch h⟩, fun r _ => ih r⟩
  unfold processJob
  split
  · exact Prog.Only.bind (fail_for job _ _) fun _ => Prog.Only.ret _
  · refine Prog.Only.tryCatch (Prog.Only.bind (hwithin _) fun _ => Prog.Only.await ⟨trivial, ?_⟩) fun error _ => ?_
    · intro other outcome h
      cases h
      rfl
    · exact Prog.Only.bind (fail_for job _ _) fun _ => Prog.Only.ret _

/-- What follows the claim in a turn. -/
def worked (options : JobQueueOptions) (handlers : Handlers X) (batch : List JobRecord) : Task X Unit := do
  batch.forM (processJob options handlers)
  Task.sleep options.pollIntervalMs

theorem worked_for (batch : List JobRecord) : (worked options handlers batch).Only
    (fun a => a.Onward ∧ ∀ job outcome, a = .writeOutcome job outcome → job ∈ batch) fun _ => True := by
  refine Prog.Only.bind (Prog.Only.forM_mem fun job hjob => ?_) fun _ =>
    Prog.Only.await ⟨trivial, fun _ _ h => nomatch h⟩
  refine (processJob_for job).weaken fun a ha => ⟨ha.1, fun other outcome h => ?_⟩
  rw [ha.2 other outcome h]
  exact hjob

theorem cycle_eq : cycle options handlers queueName = (reclaimJobs options).bind fun _ =>
    (claim options options.concurrency queueName).bind (worked options handlers) := by
  unfold cycle runOnce
  simp only [Prog.bind_def, Prog.bind_assoc]
  rfl

/-- A turn that resolves: its first two statements are answered. -/
theorem cycle_cases (hok : ∃ x, ((cycle options handlers queueName).run (amid handle) ω m s).1 = .ok x) :
    ∃ (reclaimed : Nat) (s₁ : Db X) (batch : List JobRecord) (s₂ : Db X),
      amid handle (.reclaimStale options.visibilityTimeoutMs) (ω m) s = (.ok reclaimed, s₁) ∧
      amid handle (.claimBatch queueName options.concurrency options.workerId) (ω (m + 1)) s₁ = (.ok batch, s₂) ∧
      ((cycle options handlers queueName).run (amid handle) ω m s).2.2 =
        ((worked options handlers batch).run (amid handle) ω (m + 2) s₂).2.2 := by
  obtain ⟨x, hx⟩ := hok
  rw [cycle_eq] at hx ⊢
  rcases hreclaim : amid handle (.reclaimStale options.visibilityTimeoutMs) (ω m) s with ⟨_ | reclaimed, s₁⟩
  · have hrun := Prog.run_await_bind_of_error ω hreclaim fun _ =>
      (claim options options.concurrency queueName).bind (worked options handlers)
    cases (congrArg Prod.fst hrun).symm.trans hx
  · have hrun : ((reclaimJobs options).bind fun _ => (claim options options.concurrency queueName).bind
        (worked options handlers)).run (amid handle) ω m s = _ := Prog.run_await_bind_of_ok ω hreclaim _
    rw [hrun] at hx ⊢
    rcases hclaim : amid handle (.claimBatch queueName options.concurrency options.workerId) (ω (m + 1)) s₁ with
      ⟨_ | batch, s₂⟩
    · cases (congrArg Prod.fst (Prog.run_await_bind_of_error ω hclaim (worked options handlers))).symm.trans hx
    · exact ⟨reclaimed, s₁, batch, s₂, rfl, hclaim,
        congrArg (fun r => r.2.2) (Prog.run_await_bind_of_ok ω hclaim (worked options handlers))⟩

/-- The job is as it was, or it has been taken up since call `m₀`. -/
def Here (ω : Course X) (row : Job) (m₀ : Nat) (s₀ s : Db X) : Prop :=
  TakenUp ω row.id m₀ s₀ s ∨ row ∈ s.jobs.rows ∧ s₀.claimsOf row.id ≤ s.claimsOf row.id

/-- Its time is past, and at most `count` jobs are put before it, with itself. -/
structure Short (queueName : String) (row : Job) (count : Nat) (s : Db X) : Prop where
  past : row.runAt < s.clock
  few : ahead queueName row s ≤ count

variable {m₀ count : Nat} {s₀ : Db X} {turn : Turn (Call X) (Oracle X)}

theorem TakenUp.call {id : Id} (h : TakenUp ω id m₀ s₀ s) (a : Call X) (o : Oracle X) :
    TakenUp ω id m₀ s₀ (handle a o s).2 := h.imp_left fun hlt => hlt.trans_le (claimsOf_le a o s id)

theorem Here.call (hpending : row.status = .pending) (h : Here ω row m₀ s₀ s)
    (hwrite : ∀ job outcome, a = .writeOutcome job outcome → job.id = row.id → TakenUp ω row.id m₀ s₀ s) :
    Here ω row m₀ s₀ (handle a o s).2 := by
  rcases h with htaken | ⟨hrow, hclaims⟩
  · exact .inl (htaken.call a o)
  · obtain ⟨row', hrow', heffect⟩ := (handle_effect a o s).row hrow
    cases heffect with
    | same a row hsame => exact .inr ⟨hrow', hclaims.trans_eq hsame.symm⟩
    | claimed hrun hgrown => exact .inl (.inl (by omega))
    | wrote outcome hid => exact .inl ((hwrite _ _ rfl hid.symm).call _ o)
    | reclaimed hstale => exact absurd (hpending.symm.trans hstale.1) (by decide)

/-- An outcome that another worker writes takes it up. -/
theorem Here.kept (hpending : row.status = .pending) (h : Here ω row m₀ s₀ s) (hm : m₀ ≤ m)
    (hwrite : ∀ job outcome, a = .writeOutcome job outcome → job.id = row.id → TakenUp ω row.id m₀ s₀ s) :
    Here ω row m₀ s₀ (amid handle a (ω m) s).2 :=
  amid_keeps (I := Here ω row m₀ s₀) (h.call hpending hwrite) fun c hc _ hs =>
    hs.call hpending fun job outcome hcall hid => .inr ⟨m, hm, c, hc, job, outcome, hcall, hid⟩

theorem TakenUp.kept {id : Id} (h : TakenUp ω id m₀ s₀ s) : TakenUp ω id m₀ s₀ (amid handle a turn s).2 :=
  amid_keeps (I := TakenUp ω id m₀ s₀) (h.call _ _) fun c _ _ hs => hs.call c.1 c.2

theorem Short.call (ha : a.Onward) (h : Short queueName row count s) : Short queueName row count (handle a o s).2 :=
  ⟨h.past.trans_le (le_clock a o s), (ahead_le ha h.past).trans h.few⟩

theorem Short.kept (hothers : ∀ c ∈ turn.others, c.1.Onward) (ha : a.Onward) (h : Short queueName row count s) :
    Short queueName row count (amid handle a turn s).2 :=
  amid_keeps (I := Short queueName row count) (h.call ha) fun c hc _ hs => hs.call (hothers c hc)

/-- What is claimed has one claim more. -/
theorem claimsOf_lt {limit : Nat} {workerId : String} {jobs : List JobRecord} {job : JobRecord}
    (hclaim : (handle (.claimBatch queueName limit workerId) o s).1 = .ok jobs) (hjob : job ∈ jobs) :
    s.claimsOf job.id < (handle (.claimBatch queueName limit workerId) o s).2.claimsOf job.id := by
  obtain ⟨batch, rfl, -, hnodup, hdb⟩ := claimBatch_ok hclaim
  simp only [List.mem_map, exists_exists_and_eq_and] at hjob
  obtain ⟨claimed, hclaimed, rfl⟩ := hjob
  have hmem : claimed.id ∈ batch.map Job.id := List.mem_map_of_mem hclaimed
  have hcount := claimsOf_claim s hnodup claimed.id
  rw [if_pos hmem] at hcount
  rw [hdb]
  exact (Nat.lt_succ_self _).trans_eq hcount.symm

/-- What a turn comes to, once its first two statements are answered: the rest of it sets no time back, and writes
outcomes of the batch only. -/
theorem cycle_rule {I : Db X → Prop} {K : List JobRecord → Db X → Prop}
    (hok : ∃ x, ((cycle options handlers queueName).run (amid handle) ω m s).1 = .ok x)
    (hreclaim : I (amid handle (.reclaimStale options.visibilityTimeoutMs) (ω m) s).2)
    (hclaim : ∀ batch s₁, I s₁ →
      (handle (.claimBatch queueName options.concurrency options.workerId) (ω (m + 1)).own s₁).1 = .ok batch →
      K batch (amid handle (.claimBatch queueName options.concurrency options.workerId) (ω (m + 1)) s₁).2)
    (hworked : ∀ batch a m' s', m ≤ m' → a.Onward → (∀ job outcome, a = .writeOutcome job outcome → job ∈ batch) →
      K batch s' → K batch (amid handle a (ω m') s').2) :
    ∃ batch, K batch ((cycle options handlers queueName).run (amid handle) ω m s).2.2 := by
  obtain ⟨reclaimed, s₁, batch, s₂, hreclaimed, hclaimed, hrest⟩ := cycle_cases hok
  have hs₁ : I s₁ := by rwa [hreclaimed] at hreclaim
  have hs₂ : K batch s₂ := by
    have h := hclaim batch s₁ hs₁ (congrArg Prod.fst hclaimed)
    rwa [hclaimed] at h
  refine ⟨batch, ?_⟩
  rw [hrest]
  exact (worked_for batch).run_inv_from (fun a m' s' hm' ha => hworked batch a m' s' hm' ha.1 ha.2)
    (Nat.le_add_right m 2) hs₂

/-- A job that is in the batch has been taken up by the claim, and of any other the turn writes nothing. -/
theorem cycle_here (hok : ∃ x, ((cycle options handlers queueName).run (amid handle) ω m s).1 = .ok x) (hm : m₀ ≤ m)
    (hpending : row.status = .pending) (hhere : Here ω row m₀ s₀ s) :
    Here ω row m₀ s₀ ((cycle options handlers queueName).run (amid handle) ω m s).2.2 := by
  refine (cycle_rule hok (I := Here ω row m₀ s₀)
    (K := fun batch s => Here ω row m₀ s₀ s ∧ ∀ job ∈ batch, job.id = row.id → TakenUp ω row.id m₀ s₀ s)
    (hhere.kept hpending hm fun _ _ h => nomatch h) ?_ ?_).elim fun _ hend => hend.1
  · intro batch s₁ hs₁ hanswer
    refine ⟨hs₁.kept hpending (by omega) fun _ _ h => (nomatch h), fun job hjob hid => ?_⟩
    refine amid_keeps (I := TakenUp ω row.id m₀ s₀) ?_ fun c _ _ hs => hs.call c.1 c.2
    rcases hs₁ with htaken | ⟨-, hclaims⟩
    · exact htaken.call _ _
    · exact .inl (hclaims.trans_lt (hid ▸ claimsOf_lt hanswer hjob))
  · intro batch a m' s' hm' _ hwrite hs'
    refine ⟨?_, fun job hjob hid => (hs'.2 job hjob hid).kept⟩
    exact hs'.1.kept hpending (hm.trans hm') fun job outcome ha hid => hs'.2 job (hwrite job outcome ha) hid

theorem cycle_takenUp {id : Id} (hok : ∃ x, ((cycle options handlers queueName).run (amid handle) ω m s).1 = .ok x)
    (h : TakenUp ω id m₀ s₀ s) :
    TakenUp ω id m₀ s₀ ((cycle options handlers queueName).run (amid handle) ω m s).2.2 := by
  obtain ⟨-, hend⟩ := cycle_rule hok (I := TakenUp ω id m₀ s₀) (K := fun _ => TakenUp ω id m₀ s₀) h.kept
    (fun _ _ hs _ => hs.kept) fun _ _ _ _ _ _ _ hs => hs.kept
  exact hend

/-- No more jobs come to be put before it. -/
theorem cycle_short (hothers : ∀ n, ∀ c ∈ (ω n).others, c.1.Onward)
    (hok : ∃ x, ((cycle options handlers queueName).run (amid handle) ω m s).1 = .ok x)
    (h : Short queueName row count s) :
    Short queueName row count ((cycle options handlers queueName).run (amid handle) ω m s).2.2 := by
  obtain ⟨-, hend⟩ := cycle_rule hok (I := Short queueName row count) (K := fun _ => Short queueName row count)
    (h.kept (hothers m) trivial) (fun _ _ hs _ => hs.kept (hothers (m + 1)) trivial)
    fun _ _ m' _ _ ha _ hs => hs.kept (hothers m') ha
  exact hend

/-- **A turn that does not pass the job over** takes it up, or there is one job less that is put before it. -/
theorem cycle_drops (hlimit : 0 < options.concurrency) (hothers : ∀ n, ∀ c ∈ (ω n).others, c.1.Onward)
    (hok : ∃ x, ((cycle options handlers queueName).run (amid handle) ω m s).1 = .ok x) (hm : m₀ ≤ m)
    (hpending : row.status = .pending) (hqueue : row.queue = queueName) (hhere : Here ω row m₀ s₀ s)
    (hshort : Short queueName row (count + 1) s) (hskip : row.id ∉ (ω (m + 1)).own.skips) :
    TakenUp ω row.id m₀ s₀ ((cycle options handlers queueName).run (amid handle) ω m s).2.2 ∨
      Short queueName row count ((cycle options handlers queueName).run (amid handle) ω m s).2.2 := by
  refine (cycle_rule hok (I := fun s => Here ω row m₀ s₀ s ∧ Short queueName row (count + 1) s)
    (K := fun _ s => TakenUp ω row.id m₀ s₀ s ∨ Short queueName row count s)
    ⟨hhere.kept hpending hm fun _ _ h => (nomatch h), hshort.kept (hothers m) trivial⟩ ?_ ?_).elim fun _ hend => hend
  · rintro batch s₁ ⟨htaken | ⟨hrow, -⟩, hs₁⟩ hanswer
    · exact .inl htaken.kept
    · have hdropped := ahead_claim hlimit hanswer hrow ⟨hqueue, hpending, hs₁.past.le⟩ hskip
      have hfew := hs₁.few
      refine .inr (amid_keeps (I := Short queueName row count) ⟨hs₁.past.trans_le (le_clock _ _ s₁), by omega⟩ ?_)
      exact fun c hc _ hs => hs.call (hothers (m + 1) c hc)
  · rintro batch a m' s' - ha - (htaken | hs')
    · exact .inl htaken.kept
    · exact .inr (hs'.kept (hothers m') ha)

/-- **A job that is due is taken up.** -/
theorem takenUp_of_lives
    (hlives : ∀ n, ∃ x, ((run options handlers queueName n).run (amid handle) ω 0 db).1 = .ok x)
    (hfair : Fair options handlers queueName ω db) (k : Nat)
    (hrow : row ∈ (after options handlers queueName ω db k).2.jobs.rows)
    (hrun : Runnable queueName (after options handlers queueName ω db k).2.clock row) :
    ∃ j, k ≤ j ∧ TakenUp ω row.id (after options handlers queueName ω db k).1
      (after options handlers queueName ω db k).2 (after options handlers queueName ω db j).2 := by
  let at' := after options handlers queueName ω db
  have hlater (j : Nat) (hj : k ≤ j) : (at' k).1 ≤ (at' j).1 := by
    induction j, hj using Nat.le_induction with
    | base => exact le_rfl
    | succ j _ ih => exact ih.trans (Prog.le_run _ _ _)
  have hhere (j : Nat) (hj : k ≤ j) : Here ω row (at' k).1 (at' k).2 (at' j).2 := by
    induction j, hj using Nat.le_induction with
    | base => exact .inr ⟨hrow, le_rfl⟩
    | succ j hj ih => exact cycle_here (cycle_ok hlives j) (hlater j hj) hrun.2.1 ih
  -- the rank is the number of jobs that are put before it, once its time is past
  let waits (count j : Nat) : Prop := k ≤ j ∧
    (TakenUp ω row.id (at' k).1 (at' k).2 (at' j).2 ∨ Short queueName row count (at' j).2)
  have hkeep (count j : Nat) (h : waits count j) : waits count (j + 1) :=
    ⟨Nat.le_succ_of_le h.1, h.2.imp (cycle_takenUp (cycle_ok hlives j)) (cycle_short hfair.onward (cycle_ok hlives j))⟩
  have hdrop (count j : Nat) (hskip : row.id ∉ (ω ((at' j).1 + 1)).own.skips) (h : waits (count + 1) j) :
      waits count (j + 1) := by
    refine ⟨Nat.le_succ_of_le h.1, h.2.elim (fun htaken => .inl (cycle_takenUp (cycle_ok hlives j) htaken)) ?_⟩
    exact fun hshort => cycle_drops hfair.concurrency hfair.onward (cycle_ok hlives j) (hlater j h.1) hrun.2.1 hrun.1
      (hhere j h.1) hshort hskip
  obtain ⟨j₀, hj₀, hpast⟩ := hfair.time row.runAt k
  obtain ⟨j, -, hj, hend⟩ := exists_exhausted (hfair.unlocked row.id) hkeep hdrop (ahead queueName row (at' j₀).2) j₀
    ⟨hj₀, .inr ⟨hpast, le_rfl⟩⟩
  refine ⟨j, hj, hend.elim id fun hshort => ?_⟩
  rcases hhere j hj with htaken | ⟨hmem, -⟩
  · exact htaken
  · have hself : 0 < ahead queueName row (at' j).2 :=
      List.countP_pos_iff.2 ⟨row, hmem, decide_eq_true ⟨hrun.1, hrun.2.1, le_rfl⟩⟩
    exact absurd hself (Nat.not_lt.2 hshort.few)

end

/-- Calls that take time let it pass. -/
theorem clock_run (htook : ∀ n, 0 < (ω n).own.took) (p : Task X Unit) (m : Nat) (s : Db X) :
    s.clock + (p.run (amid handle) ω m s).2.1 ≤ (p.run (amid handle) ω m s).2.2.clock + m := by
  induction p generalizing m s with
  | ret x => exact le_rfl
  | throw e => exact le_rfl
  | call a k ih =>
    have hturn : s.clock + 1 ≤ (amid handle a (ω m) s).2.clock := by
      refine amid_keeps (I := fun t : Db X => s.clock + 1 ≤ t.clock) ?_ fun c _ t ht => ht.trans (le_clock c.1 c.2 t)
      rw [clock_handle]
      exact Int.add_le_add_left (by exact_mod_cast htook m) _
    have hrest := ih (amid handle a (ω m) s).1 (m + 1) (amid handle a (ω m) s).2
    rw [Prog.run_call]
    push_cast at hrest
    exact le_of_add_le_add_right (a := 1) (by linarith)

/-- Where calls take time and no row is locked, the loop runs as it needs to. -/
theorem fair_of_took (hlimit : 0 < options.concurrency) (honward : ∀ n, ∀ c ∈ (ω n).others, c.1.Onward)
    (htook : ∀ n, 0 < (ω n).own.took) (hskips : ∀ n, (ω n).own.skips = []) :
    Fair options handlers queueName ω db where
  concurrency := hlimit
  onward := honward
  time := by
    have hclock (j : Nat) : db.clock + j ≤ (after options handlers queueName ω db j).2.clock := by
      induction j with
      | zero => exact le_of_eq (add_zero _)
      | succ j ih =>
        let s := after options handlers queueName ω db j
        have hturn := clock_run htook (cycle options handlers queueName) s.1 s.2
        have hcalls : s.1 + 1 ≤ ((cycle options handlers queueName).run (amid handle) ω s.1 s.2).2.1 :=
          Prog.le_run _ _ _
        have hlater : (s.1 : ℤ) + 1 ≤ ((cycle options handlers queueName).run (amid handle) ω s.1 s.2).2.1 := by
          exact_mod_cast hcalls
        have ih : db.clock + j ≤ s.2.clock := ih
        change db.clock + ((j + 1 : ℕ) : ℤ) ≤ ((cycle options handlers queueName).run (amid handle) ω s.1 s.2).2.2.clock
        push_cast
        linarith
    intro t k
    refine ⟨k + (t - db.clock).toNat + 1, by omega, (?_ : t < _).trans_le (hclock _)⟩
    have ht := Int.self_le_toNat (t - db.clock)
    push_cast
    linarith
  unlocked := fun id k => ⟨k, le_rfl, by rw [hskips]; exact List.not_mem_nil⟩

/-- **The loop polls until it is aborted just when** every statement that is rejected is one of `complete`. -/
theorem polls_iff : Polls options handlers queueName ω db ↔
    ∀ n, ∀ c ∈ (run options handlers queueName n).calls (amid handle) ω 0 db, Rejected c → c.call.Completes := by
  constructor
  · exact fun h n => run_ok_iff.1 (h.lives n)
  · intro h
    have hlives (n : Nat) := run_ok_iff.2 (h n)
    exact ⟨hlives, fun hfair k _ row hrow hrun => takenUp_of_lives hlives hfair k hrow hrun⟩

end NexoraGateway.Jobs
