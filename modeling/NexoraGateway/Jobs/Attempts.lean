import NexoraGateway.Jobs.Consistency

/-!
# How often a job is attempted

`max_attempts` is only looked at by `fail`. A job whose worker died comes back through `reclaimStale`,
which does not count, and so it is attempted once more (`attempts_exceeded`); so does a retry written by
a worker that has lost the job meanwhile. `attempts_bounded` is what remains: while no job is put back to
`PENDING` after its last attempt, no job is claimed more often than `max_attempts`.
-/
namespace NexoraGateway.Jobs

open Async

variable {X : Outside}

/-- A statement that makes a job `PENDING` finds attempts left: a new job allows one, and a job that is
reclaimed or retried has not used up its own. -/
def AttemptsLeft (db : Db X) : Call X → Prop
  | .enqueue _ _ _ _ maxAttempts _ => 1 ≤ maxAttempts
  | .reclaimStale timeout => ∀ row ∈ db.jobs.rows, Stale timeout db.clock row →
    row.attemptCount < row.maxAttempts
  | .writeOutcome job (.retried ..) => ∀ row ∈ db.jobs.rows, row.id = job.id →
    row.attemptCount < row.maxAttempts
  | _ => True

instance (db : Db X) : DecidablePred (AttemptsLeft db)
  | .enqueue .. => inferInstanceAs (Decidable (_ ≤ _))
  | .reclaimStale timeout => inferInstanceAs (Decidable (∀ row ∈ db.jobs.rows, Stale timeout _ row → _ < _))
  | .writeOutcome job (.retried ..) =>
    inferInstanceAs (Decidable (∀ row ∈ db.jobs.rows, row.id = job.id → _ < _))
  | .writeOutcome _ .succeeded | .writeOutcome _ (.deadLettered _) => inferInstanceAs (Decidable True)
  | .claimBatch .. | .random | .sleep _ | .outer .. => inferInstanceAs (Decidable True)

/-- A job has not been attempted too often, and a waiting job may be attempted again. -/
def Within (row : Job) : Prop :=
  row.attemptCount ≤ row.maxAttempts ∧ (row.status = .pending → row.attemptCount < row.maxAttempts)

variable {db db' : Db X} {a : Call X} {row row' : Job}

theorem RowEffect.within (h : RowEffect db db' a row row') (hleft : AttemptsLeft db a)
    (hmem : row ∈ db.jobs.rows) (hrow : Within row) : Within row' := by
  cases h with
  | same => exact hrow
  | claimed hrun =>
    have hlt := hrow.2 hrun.2.1
    refine ⟨?_, fun hp => by simp [lock] at hp⟩
    show row.attemptCount + 1 ≤ row.maxAttempts
    omega
  | wrote outcome hid =>
    cases outcome with
    | succeeded => exact ⟨hrow.1, fun hp => by simp [Outcome.set] at hp⟩
    | deadLettered lastError => exact ⟨hrow.1, fun hp => by simp [Outcome.set] at hp⟩
    | retried delay lastError => exact ⟨hrow.1, fun _ => hleft row hmem hid⟩
  | reclaimed hstale => exact ⟨hrow.1, fun _ => hleft row hmem hstale⟩

theorem Effect.within (h : Effect db a db') (hleft : AttemptsLeft db a)
    (hdb : ∀ row ∈ db.jobs.rows, Within row) :
    ∀ row ∈ db'.jobs.rows, Within row := by
  intro row' hrow'
  rcases h.row_of hrow' with
    ⟨queue, jobType, payload, key, maxAttempts, delayMs, rfl, -, -, -, hnew⟩ | ⟨row, hrow, heff⟩
  · have hone : 1 ≤ maxAttempts := hleft
    rw [hnew]
    refine ⟨?_, fun _ => ?_⟩
    · show 0 ≤ maxAttempts
      omega
    · show 0 < maxAttempts
      omega
  · exact heff.within hleft hrow (hdb row hrow)

/-- What the tasks hold was claimed. -/
def HeldClaims (db : Db X) (gs : List (List JobRecord)) : Prop :=
  ∀ held ∈ gs, ∀ job ∈ held, (job.id, job.attemptCount) ∈ db.claims

theorem handle_heldClaims (db : Db X) (gs₁ : List (List JobRecord)) (held : List JobRecord)
    (gs₂ : List (List JobRecord)) (a : Call X) (o : Oracle X) (h : HeldClaims db (gs₁ ++ held :: gs₂)) :
    HeldClaims (handle a o db).2 (gs₁ ++ holding.next held a (handle a o db).1 :: gs₂) := by
  have hgrow := (handle_effect a o db).claims
  intro held' hheld' job hjob
  rcases List.mem_append.1 hheld' with hmem | hmem
  · exact hgrow.subset (h held' (List.mem_append_left _ hmem) job hjob)
  · rcases List.mem_cons.1 hmem with rfl | hmem
    · rcases held_or_claimed hjob with hold | ⟨queue, limit, workerId, row, -, -, -, -, hclaim⟩
      · exact hgrow.subset (h held (List.mem_append_right _ List.mem_cons_self) job hold)
      · exact hclaim
    · exact hgrow.subset (h held' (List.mem_append_right _ (List.mem_cons_of_mem _ hmem)) job hjob)

/-- A job with one attempt left: the worker of the first attempt dies, and another claims the job. -/
def secondClaim (maxAttempts : Int) : List BenchStep :=
  enqueued 0 "j" maxAttempts ++
    [.spawn (worker "A" 1), next 1 0, next 1 1001, .spawn (worker "B" 1), next 2 0, next 2 0]

end NexoraGateway.Jobs
