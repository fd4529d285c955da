import NexoraGateway.Jobs.Queue

/-!
# What every reachable jobs table satisfies

Any number of tasks may make any statements in any order, stale owners' writes included: the statements
alone keep the table consistent. A job is `RUNNING` exactly while it is locked, its attempts are its
claims, no two jobs share an idempotency key and no job vanishes. In particular an abandoned job is
locked since some time, and can be reclaimed once the visibility timeout has passed.
-/
namespace NexoraGateway.Jobs

open Async Store

variable {X : Outside}

structure Consistent (db : Db X) : Prop where
  locked : ∀ row ∈ db.jobs.rows, row.status = .running ↔ row.lockedAt.isSome ∧ row.lockedBy.isSome
  counted : ∀ row ∈ db.jobs.rows, row.attemptCount = db.claimsOf row.id
  known : ∀ c ∈ db.claims, ∃ row ∈ db.jobs.rows, row.id = c.1
  keys : (db.jobs.rows.map Job.idempotencyKey).Nodup

theorem consistent_fresh (clock : Time) (outer : X.State) : Consistent (Db.fresh clock outer) where
  locked _ h := absurd h List.not_mem_nil
  counted _ h := absurd h List.not_mem_nil
  known _ h := absurd h List.not_mem_nil
  keys := .nil

variable {db db' : Db X} {a : Call X}

theorem set_locks (outcome : Outcome) (now : Time) (row : Job) :
    (outcome.set now row).status ≠ .running ∧ (outcome.set now row).lockedAt = none := by
  cases outcome <;> exact ⟨by simp [Outcome.set], rfl⟩

@[simp] theorem set_attemptCount (outcome : Outcome) (now : Time) (row : Job) :
    (outcome.set now row).attemptCount = row.attemptCount := by
  cases outcome <;> rfl

theorem RowEffect.locked {row row' : Job} (h : RowEffect db db' a row row')
    (hrow : row.status = .running ↔ row.lockedAt.isSome ∧ row.lockedBy.isSome) :
    row'.status = .running ↔ row'.lockedAt.isSome ∧ row'.lockedBy.isSome := by
  cases h with
  | same => exact hrow
  | claimed => simp [lock]
  | wrote outcome =>
    obtain ⟨hstatus, hlock⟩ := set_locks outcome db.clock row
    simp [hstatus, hlock]
  | reclaimed => simp [reclaim]

theorem RowEffect.counted {row row' : Job} (h : RowEffect db db' a row row')
    (hrow : row.attemptCount = db.claimsOf row.id) : row'.attemptCount = db'.claimsOf row'.id := by
  cases h with
  | same a row hclaims => rw [hclaims, hrow]
  | claimed hrun hclaims =>
    rw [lock_id, hclaims]
    simp only [lock, hrow]
    push_cast
    rfl
  | wrote outcome hid hclaims =>
    rw [set_id, set_attemptCount, hrow, Db.claimsOf, Db.claimsOf, hclaims]
  | reclaimed hstale hclaims =>
    rw [reclaim_id, Db.claimsOf, hclaims]
    exact hrow

/-- A job that is not in the table was never claimed. -/
theorem Consistent.claimsOf_new (h : Consistent db) {id : Id} (hid : ∀ row ∈ db.jobs.rows, row.id ≠ id) :
    db.claimsOf id = 0 := by
  rw [Db.claimsOf, List.countP_eq_zero]
  intro c hc
  obtain ⟨row, hrow, hrid⟩ := h.known c hc
  simpa [hrid] using hid row hrow

theorem keys_updateWhere {jobs : Table Job.id} {p : Job → Bool} {f : Job → Job}
    (hf : ∀ row, (f row).id = row.id) (hkey : ∀ row, (f row).idempotencyKey = row.idempotencyKey)
    (hkeys : (jobs.rows.map Job.idempotencyKey).Nodup) :
    ((jobs.updateWhere p f hf).rows.map Job.idempotencyKey).Nodup := by
  rw [Table.map_updateWhere hkey]
  exact hkeys

theorem Effect.keys (h : Effect db a db') (hkeys : (db.jobs.rows.map Job.idempotencyKey).Nodup) :
    (db'.jobs.rows.map Job.idempotencyKey).Nodup := by
  cases h with
  | idle | outer => exact hkeys
  | enqueued clock hkey hins =>
    simp only [Table.rows_insert? hins, List.map_append, List.map_cons, List.map_nil]
    refine List.nodup_append.2 ⟨hkeys, List.nodup_singleton _, fun key hmem key' hnew heq => ?_⟩
    obtain ⟨row, hrow, rfl⟩ := List.mem_map.1 hmem
    rw [List.mem_singleton.1 hnew] at heq
    exact hkey row hrow heq
  | claimed => exact keys_updateWhere (lock_id _ _) (fun _ => rfl) hkeys
  | wrote job outcome => exact keys_updateWhere (set_id outcome _) (fun _ => by cases outcome <;> rfl) hkeys
  | reclaimed => exact keys_updateWhere (reclaim_id _) (fun _ => rfl) hkeys

theorem Effect.known (h : Effect db a db') {c : Id × Int} (hc : c ∈ db'.claims) :
    c ∈ db.claims ∨ ∃ row ∈ db.jobs.rows, row.id = c.1 := by
  cases h with
  | @claimed queue limit workerId batch clock hbatch hnodup =>
    rcases List.mem_append.1 hc with hc | hc
    · exact .inl hc
    · obtain ⟨row, hrow, rfl⟩ := List.mem_map.1 hc
      exact .inr ⟨row, (hbatch row hrow).1, rfl⟩
  | idle | enqueued | wrote | reclaimed | outer => exact .inl hc

theorem Effect.consistent (h : Effect db a db') (hdb : Consistent db) : Consistent db' where
  locked row' hrow' := by
    rcases h.row_of hrow' with
      ⟨queue, jobType, payload, key, maxAttempts, delayMs, -, -, -, -, hnew⟩ | ⟨row, hrow, heff⟩
    · rw [hnew]
      simp [newJob]
    · exact heff.locked (hdb.locked row hrow)
  counted row' hrow' := by
    rcases h.row_of hrow' with ⟨queue, jobType, payload, key, maxAttempts, delayMs, -, -, hclaims, hfree, hnew⟩ |
      ⟨row, hrow, heff⟩
    · rw [Db.claimsOf, hclaims, ← Db.claimsOf, hdb.claimsOf_new hfree, hnew]
      rfl
    · exact heff.counted (hdb.counted row hrow)
  known c hc := by
    have hold : ∃ row ∈ db.jobs.rows, row.id = c.1 := (h.known hc).elim (hdb.known c) fun hrow => hrow
    obtain ⟨row, hrow, hid⟩ := hold
    obtain ⟨row', hrow', heff⟩ := h.row hrow
    exact ⟨row', hrow', heff.kept.1.trans hid⟩
  keys := h.keys hdb.keys

/-- A later state of the same job: what identifies it has not changed. -/
def SameJob (row row' : Job) : Prop :=
  row'.id = row.id ∧ row'.queue = row.queue ∧ row'.jobType = row.jobType ∧ row'.payload = row.payload ∧
    row'.idempotencyKey = row.idempotencyKey ∧ row'.maxAttempts = row.maxAttempts

/-- No call removes a job. -/
theorem Effect.sameJob (h : Effect db a db') {row : Job} (hrow : ∃ r ∈ db.jobs.rows, SameJob row r) :
    ∃ r ∈ db'.jobs.rows, SameJob row r := by
  obtain ⟨r, hr, hid, hqueue, htype, hpayload, hkey, hmax⟩ := hrow
  obtain ⟨r', hr', heff⟩ := h.row hr
  obtain ⟨hid', hqueue', htype', hpayload', hkey', hmax'⟩ := heff.kept
  exact ⟨r', hr', hid'.trans hid, hqueue'.trans hqueue, htype'.trans htype, hpayload'.trans hpayload,
    hkey'.trans hkey, hmax'.trans hmax⟩

/-- A locked job can be reclaimed when its visibility timeout has passed. -/
theorem stale_of_locked {row : Job} {t timeout now : Time} (hrun : row.status = .running)
    (ht : row.lockedAt = some t) (hnow : t + timeout < now) : Stale timeout now row :=
  ⟨hrun, t, ht, lt_sub_iff_add_lt.2 hnow⟩

theorem exec_consistent (tasks : List (Task X Unit)) (clock : Time) (outer : X.State) (cs : Schedule X) :
    Consistent (Pool.exec handle (⟨.fresh clock outer, tasks⟩ : Queue X) cs).store :=
  Pool.exec_store_inv' (fun db a o hdb => (handle_effect a o db).consistent hdb) (consistent_fresh clock outer) cs

/-- **The jobs table is consistent in every reachable state**, whatever tasks make its statements in
whatever order. -/
theorem jobs_consistent (tasks : List (Task X Unit)) (clock : Time) (outer : X.State) (cs later : Schedule X) :
    let w : Queue X := ⟨.fresh clock outer, tasks⟩
    let db := (w.exec handle cs).store
    (∀ row ∈ db.jobs.rows, (row.status = .running ↔ row.lockedAt.isSome ∧ row.lockedBy.isSome) ∧
      row.attemptCount = db.claimsOf row.id) ∧
    (db.jobs.rows.map Job.idempotencyKey).Nodup ∧
    (∀ row ∈ db.jobs.rows, ∃ row' ∈ (w.exec handle (cs ++ later)).store.jobs.rows, SameJob row row') ∧
    (∀ row ∈ db.jobs.rows, row.status = .running → ∃ t, row.lockedAt = some t ∧
      ∀ timeout now, t + timeout < now → Stale timeout now row) := by
  intro w db
  have hdb : Consistent db := exec_consistent tasks clock outer cs
  refine ⟨?_, hdb.keys, ?_, ?_⟩
  · intro row hrow
    exact ⟨hdb.locked row hrow, hdb.counted row hrow⟩
  · intro row hrow
    rw [Pool.exec_append]
    refine Pool.exec_store_inv' (I := fun db => ∃ r ∈ db.jobs.rows, SameJob row r)
      (fun db a o h => (handle_effect a o db).sameJob h) ?_ later
    exact ⟨row, hrow, rfl, rfl, rfl, rfl, rfl, rfl⟩
  · intro row hrow hrun
    obtain ⟨t, ht⟩ := Option.isSome_iff_exists.1 ((hdb.locked row hrow).1 hrun).1
    exact ⟨t, ht, fun timeout now => stale_of_locked hrun ht⟩

end NexoraGateway.Jobs
