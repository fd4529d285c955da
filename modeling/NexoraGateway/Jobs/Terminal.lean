import NexoraGateway.Jobs.Queue

/-!
# Whether a finished job stays finished

`complete` and `fail` select their job by its id alone. A worker whose claim was reclaimed can still
write an outcome, over the one of the worker that took the job over (`terminal_overwritten`), and so can
a worker whose `complete` was executed but not answered. `terminal_kept` is what remains: when each
outcome is written by the holder of the job's most recent claim, and once per claim, a job that is
`SUCCEEDED` or `DEAD_LETTERED` stays so.
-/
namespace NexoraGateway.Jobs

open Async

variable {X : Outside}

/-- An outcome is written by the holder of the job's most recent claim, as the first one of the claim. -/
def Owned (db : Db X) : Call X → Prop
  | .writeOutcome job _ =>
    (∀ row ∈ db.jobs.rows, row.id = job.id → row.attemptCount = job.attemptCount) ∧
      (job.id, job.attemptCount) ∉ db.outcomes
  | _ => True

instance (db : Db X) : DecidablePred (Owned db)
  | .writeOutcome .. => inferInstanceAs (Decidable (_ ∧ _))
  | .enqueue .. | .claimBatch .. | .reclaimStale _ | .random | .sleep _ | .outer .. =>
    inferInstanceAs (Decidable True)

/-- A finished job has its outcome from its last claim. -/
def Answered (db : Db X) : Prop :=
  ∀ row ∈ db.jobs.rows, row.status.Terminal → (row.id, row.attemptCount) ∈ db.outcomes

variable {db db' : Db X} {a : Call X} {row row' : Job}

theorem not_terminal_pending : ¬ JobStatus.Terminal .pending := by decide
theorem not_terminal_running : ¬ JobStatus.Terminal .running := by decide

theorem RowEffect.answered (h : RowEffect db db' a row row') (hgrow : db.outcomes <+: db'.outcomes)
    (howned : Owned db a) (hrow : row ∈ db.jobs.rows)
    (hans : row.status.Terminal → (row.id, row.attemptCount) ∈ db.outcomes) (hterm : row'.status.Terminal) :
    (row'.id, row'.attemptCount) ∈ db'.outcomes := by
  cases h with
  | same => exact hgrow.subset (hans hterm)
  | claimed => exact absurd hterm not_terminal_running
  | @wrote job row outcome hid hclaims hwrote =>
    have hattempt : (outcome.set db.clock row).attemptCount = row.attemptCount := by cases outcome <;> rfl
    rw [set_id, hattempt, hid, howned.1 row hrow hid, hwrote]
    exact List.mem_append_right _ (List.mem_singleton_self _)
  | reclaimed => exact absurd hterm not_terminal_pending

theorem Effect.answered (h : Effect db a db') (howned : Owned db a) (hans : Answered db) : Answered db' := by
  intro row' hrow' hterm
  rcases h.row_of hrow' with
    ⟨queue, jobType, payload, key, maxAttempts, delayMs, -, -, -, -, hnew⟩ | ⟨row, hrow, heff⟩
  · rw [hnew] at hterm
    exact absurd hterm not_terminal_pending
  · exact heff.answered h.outcomes howned hrow (hans row hrow) hterm

/-- No owned call changes the status of a finished job. -/
theorem RowEffect.terminal (h : RowEffect db db' a row row') (howned : Owned db a) (hans : Answered db)
    (hrow : row ∈ db.jobs.rows) (hterm : row.status.Terminal) : row'.status = row.status := by
  cases h with
  | same => rfl
  | claimed hrun =>
    rw [hrun.2.1] at hterm
    exact absurd hterm not_terminal_pending
  | wrote outcome hid =>
    have hmem := hans row hrow hterm
    rw [hid, howned.1 row hrow hid] at hmem
    exact absurd hmem howned.2
  | reclaimed hstale =>
    rw [hstale.1] at hterm
    exact absurd hterm not_terminal_running

/-- **A finished job stays finished**, in every run in which each outcome is written by the holder of the
job's most recent claim, once per claim. -/
theorem terminal_kept (tasks : List (Task X Unit)) (clock : Time) (outer : X.State) (cs later : Schedule X)
    (hcs : (⟨.fresh clock outer, tasks⟩ : Queue X).Guarded handle Owned (cs ++ later)) (id : Id)
    (status : JobStatus) (hterm : status.Terminal)
    (hrow : ∃ row ∈ (Pool.exec handle (⟨.fresh clock outer, tasks⟩ : Queue X) cs).store.jobs.rows,
      row.id = id ∧ row.status = status) :
    ∃ row ∈ (Pool.exec handle (⟨.fresh clock outer, tasks⟩ : Queue X) (cs ++ later)).store.jobs.rows,
      row.id = id ∧ row.status = status := by
  obtain ⟨hfirst, hlater⟩ := Pool.guarded_append.1 hcs
  have hans : Answered (Pool.exec handle (⟨.fresh clock outer, tasks⟩ : Queue X) cs).store :=
    Pool.exec_store_inv (I := Answered) (fun db a o h howned => (handle_effect a o db).answered howned h)
      (fun row h => absurd h List.not_mem_nil) hfirst
  rw [Pool.exec_append]
  refine (Pool.exec_store_inv
    (I := fun db => Answered db ∧ ∃ row ∈ db.jobs.rows, row.id = id ∧ row.status = status)
    (fun db a o h howned => ?_) ⟨hans, hrow⟩ hlater).2
  obtain ⟨hdb, row, hmem, rfl, rfl⟩ := h
  have heff := handle_effect a o db
  obtain ⟨row', hrow', hto⟩ := heff.row hmem
  exact ⟨heff.answered howned hdb, row', hrow', hto.kept.1, hto.terminal howned hdb hmem hterm⟩

/-! ## A takeover -/

/-- Worker `A` claims job `j` and stalls in its handler; after the visibility timeout `B` reclaims the job,
claims it and completes it. -/
def takeover : List BenchStep :=
  enqueued 0 "j" 5 ++ [.spawn (worker "A" 1), next 1 0, next 1 1001, .spawn (worker "B" 1)] ++
    List.replicate 4 (next 2 0)

/-- The rule on a takeover whose first worker died. -/
theorem terminal_kept_takeover :
    ∃ row ∈ (Pool.exec handle idle (takeover ++ [.spawn (worker "C" 1), next 3 5000, next 3 0])).store.jobs.rows,
      row.id = "j" ∧ row.status = .succeeded :=
  terminal_kept (X := bench) [] 0 () takeover [.spawn (worker "C" 1), next 3 5000, next 3 0]
    (by decide +kernel) "j" .succeeded
    (by decide) (by decide +kernel)

/-- The first worker is only slow, and its handler fails: the job it lost is no longer `SUCCEEDED`. -/
theorem terminal_overwritten :
    (Pool.exec handle idle takeover).store.statusOf "j" = some .succeeded ∧
    (Pool.exec handle idle (takeover ++ [fails 1, next 1 0, next 1 0])).store.statusOf "j" = some .pending := by
  decide +kernel

end NexoraGateway.Jobs
