import NexoraGateway.Jobs.Queue

/-!
# Whether a job is handled by one worker at a time

A batch is locked at one instant and worked off one job after another, so a job late in its batch is
reclaimed, and started by another worker, while its owner is about to start it or already has
(`handled_twice`): it is not enough that each handler ends within the visibility timeout.
`handlers_exclusive` is what remains: while no poll finds a job that has been `RUNNING` for longer than
that, a job is handled by at most one worker.

The invariant is about what the tasks hold (`holding`): no two hold the same job, and no job that is held
is `PENDING`.
-/
namespace NexoraGateway.Jobs

open Async Store

variable {X : Outside}

/-- A poll finds no job that has been locked for longer than its visibility timeout. -/
def NoneStale (db : Db X) : Call X → Prop
  | .reclaimStale timeout => ∀ row ∈ db.jobs.rows, ¬ Stale timeout db.clock row
  | _ => True

instance (db : Db X) : DecidablePred (NoneStale db)
  | .reclaimStale timeout => inferInstanceAs (Decidable (∀ row ∈ db.jobs.rows, ¬ Stale timeout _ row))
  | .enqueue .. | .claimBatch .. | .writeOutcome .. | .random | .sleep _ | .outer .. =>
    inferInstanceAs (Decidable True)

structure Exclusive (db : Db X) (gs : List (List JobRecord)) : Prop where
  distinct : (gs.flatten.map JobRecord.id).Nodup
  busy : ∀ job ∈ gs.flatten, ∃ row ∈ db.jobs.rows, row.id = job.id ∧ row.status ≠ .pending

variable {db db' : Db X} {a : Call X} {o : Oracle X}

/-- A job that is held by the task at hand, or by another. -/
theorem mem_focus {gs₁ gs₂ : List (List JobRecord)} {held : List JobRecord} {job : JobRecord} :
    job ∈ (gs₁ ++ held :: gs₂).flatten ↔ job ∈ held ∨ job ∈ gs₁.flatten ++ gs₂.flatten := by
  simp only [List.flatten_append, List.flatten_cons, List.mem_append]
  tauto

theorem perm_left (xs ys zs : List JobRecord) : ((xs ++ ys) ++ zs).Perm (ys ++ (xs ++ zs)) := by
  rw [← List.append_assoc ys]
  exact List.perm_append_comm.append_right zs

theorem distinct_focus {gs₁ gs₂ : List (List JobRecord)} {held : List JobRecord} :
    ((gs₁ ++ held :: gs₂).flatten.map JobRecord.id).Nodup ↔
      ((held ++ (gs₁.flatten ++ gs₂.flatten)).map JobRecord.id).Nodup := by
  rw [List.flatten_append, List.flatten_cons, ← List.append_assoc]
  exact ((perm_left _ _ _).map _).nodup_iff

/-- A row that is not `PENDING` stays so, unless the job is written to as a retry. -/
theorem RowEffect.busy {row row' : Job} (h : RowEffect db db' a row row') (hmem : row ∈ db.jobs.rows)
    (hnone : NoneStale db a) (hrow : row.status ≠ .pending)
    (hother : ∀ job outcome, a = .writeOutcome job outcome → row.id = job.id → outcome = .succeeded) :
    row'.status ≠ .pending := by
  cases h with
  | same => exact hrow
  | claimed hrun => exact absurd hrun.2.1 hrow
  | wrote outcome hid =>
    obtain rfl := hother _ outcome rfl hid
    simp [Outcome.set]
  | reclaimed hstale => exact absurd hstale (hnone row hmem)

variable {gs₁ gs₂ : List (List JobRecord)} {held held' : List JobRecord}

/-- A call after which the task holds no more than before keeps the invariant, if it lets go of a job that
it may make `PENDING`. -/
theorem Exclusive.shrink (h : Exclusive db (gs₁ ++ held :: gs₂)) (heff : Effect db a db')
    (hnone : NoneStale db a) (hsub : held'.Sublist held)
    (hwrite : ∀ job outcome, a = .writeOutcome job outcome → job ∈ held ∧
      (outcome = .succeeded ∨ ∀ other ∈ held', other.id ≠ job.id)) :
    Exclusive db' (gs₁ ++ held' :: gs₂) := by
  have hdistinct := distinct_focus.1 h.distinct
  refine ⟨distinct_focus.2 (hdistinct.sublist ((hsub.append_right _).map _)), fun job hjob => ?_⟩
  have hold : job ∈ (gs₁ ++ held :: gs₂).flatten :=
    mem_focus.2 ((mem_focus.1 hjob).imp_left fun hmem => hsub.subset hmem)
  obtain ⟨row, hrow, hid, hbusy⟩ := h.busy job hold
  obtain ⟨row', hrow', hto⟩ := heff.row hrow
  refine ⟨row', hrow', hto.kept.1.trans hid, hto.busy hrow hnone hbusy fun job' outcome ha hid' => ?_⟩
  obtain ⟨hheld, hout⟩ := hwrite job' outcome ha
  refine hout.resolve_right fun hgone => ?_
  have hsame : job.id = job'.id := hid.symm.trans hid'
  rcases mem_focus.1 hjob with hmem | hmem
  · exact hgone job hmem hsame
  · -- another task cannot hold the job that this one writes to
    rw [List.map_append, List.nodup_append] at hdistinct
    exact hdistinct.2.2 _ (List.mem_map_of_mem hheld) _ (List.mem_map_of_mem hmem) hsame.symm

theorem Exclusive.claim (h : Exclusive db (gs₁ ++ held :: gs₂)) {queue : String} {limit : Nat}
    {workerId : String}
    {jobs : List JobRecord} (hjobs : (handle (.claimBatch queue limit workerId) o db).1 = .ok jobs) :
    Exclusive (handle (.claimBatch queue limit workerId) o db).2 (gs₁ ++ (held ++ jobs) :: gs₂) := by
  have heff := handle_effect (.claimBatch queue limit workerId) o db
  obtain ⟨batch, rfl, hbatch, hnodup, hdb⟩ := claimBatch_ok hjobs
  have hids : ((batch.map (lock db.clock workerId)).map mapJobRow).map JobRecord.id = batch.map Job.id := by
    rw [List.map_map, List.map_map]
    rfl
  -- what is claimed was `PENDING`, what is held was not
  have hfresh : ∀ row ∈ batch, ∀ job ∈ (gs₁ ++ held :: gs₂).flatten, row.id ≠ job.id := by
    intro row hrow job hjob hid
    obtain ⟨hmem, hrun⟩ := hbatch row hrow
    obtain ⟨row', hrow', hid', hbusy⟩ := h.busy job hjob
    obtain rfl := Table.eq_of_key hmem hrow' (hid.trans hid'.symm)
    exact hbusy hrun.2.1
  have hkept : ∀ job ∈ (gs₁ ++ held :: gs₂).flatten,
      ∃ row ∈ (handle (.claimBatch queue limit workerId) o db).2.jobs.rows, row.id = job.id ∧
        row.status ≠ .pending := by
    intro job hjob
    obtain ⟨row, hrow, hid, hbusy⟩ := h.busy job hjob
    obtain ⟨row', hrow', hto⟩ := heff.row hrow
    have hnone : NoneStale db (.claimBatch queue limit workerId) := trivial
    exact ⟨row', hrow', hto.kept.1.trans hid, hto.busy hrow hnone hbusy fun job outcome ha => by cases ha⟩
  refine ⟨distinct_focus.2 ?_, fun job hjob => ?_⟩
  · have hold := distinct_focus.1 h.distinct
    refine ((perm_left held _ _).map _).nodup_iff.2 ?_
    rw [List.map_append, hids]
    refine List.nodup_append.2 ⟨hnodup, hold, fun id hnew id' hmem heq => ?_⟩
    obtain ⟨row, hrow, rfl⟩ := List.mem_map.1 hnew
    obtain ⟨job, hjob, rfl⟩ := List.mem_map.1 hmem
    exact hfresh row hrow job (mem_focus.2 (List.mem_append.1 hjob)) heq
  · rcases mem_focus.1 hjob with hmem | hmem
    · rcases List.mem_append.1 hmem with hmem | hmem
      · exact hkept job (mem_focus.2 (.inl hmem))
      · obtain ⟨locked, hlocked, rfl⟩ := List.mem_map.1 hmem
        obtain ⟨row, hrow, rfl⟩ := List.mem_map.1 hlocked
        refine ⟨lock db.clock workerId row, ?_, rfl, by simp [lock]⟩
        rw [hdb, Table.mem_updateWhere]
        exact ⟨row, (hbatch row hrow).1, if_pos (decide_eq_true (List.mem_map_of_mem hrow))⟩
    · exact hkept job (mem_focus.2 (.inr hmem))

/-- But for a claim, a task holds no more after a call than before. -/
theorem holding_next_sublist (r : Answer a)
    (ha : ∀ queue limit workerId, a ≠ .claimBatch queue limit workerId) :
    (holding.next held a r).Sublist held := by
  cases a with
  | claimBatch queue limit workerId => exact absurd rfl (ha queue limit workerId)
  | writeOutcome job outcome =>
    cases outcome with
    | succeeded =>
      cases r with
      | error e => exact List.Sublist.refl _
      | ok _ => exact List.filter_sublist
    | deadLettered lastError => exact List.filter_sublist
    | retried delay lastError => exact List.filter_sublist
  | enqueue | reclaimStale | random | sleep | outer => exact List.Sublist.refl _

/-- A job that an outcome may make `PENDING` is let go. -/
theorem holding_next_gone {job : JobRecord} {outcome : Outcome}
    (r : Answer (.writeOutcome job outcome : Call X)) :
    outcome = .succeeded ∨ ∀ other ∈ holding.next held (.writeOutcome job outcome) r, other.id ≠ job.id := by
  have hgone : ∀ other ∈ held.filter (·.id ≠ job.id), other.id ≠ job.id := fun other hother => by
    simpa using (List.mem_filter.1 hother).2
  cases outcome with
  | succeeded => exact .inl rfl
  | deadLettered lastError => exact .inr hgone
  | retried delay lastError => exact .inr hgone

theorem handle_exclusive (db : Db X) (gs₁ : List (List JobRecord)) (held : List JobRecord)
    (gs₂ : List (List JobRecord))
    (a : Call X) (o : Oracle X) (h : Exclusive db (gs₁ ++ held :: gs₂)) (hok : holding.ok held a)
    (hnone : NoneStale db a) :
    Exclusive (handle a o db).2 (gs₁ ++ holding.next held a (handle a o db).1 :: gs₂) := by
  have heff := handle_effect a o db
  by_cases hclaim : ∃ queue limit workerId, a = .claimBatch queue limit workerId
  · obtain ⟨queue, limit, workerId, rfl⟩ := hclaim
    cases hr : (handle (.claimBatch queue limit workerId) o db).1 with
    | error e => exact h.shrink heff hnone (List.Sublist.refl _) fun job outcome ha => by cases ha
    | ok jobs => exact h.claim hr
  · have hsub : (holding.next held a (handle a o db).1).Sublist held :=
      holding_next_sublist _ fun queue limit workerId ha =>
      hclaim ⟨queue, limit, workerId, ha⟩
    refine h.shrink heff hnone hsub fun job outcome ha => ?_
    subst ha
    exact ⟨hok, holding_next_gone _⟩

/-- Two tasks that hold the same job are the same task. -/
theorem Exclusive.index {gs : List (List JobRecord)} (h : Exclusive db gs) {i j : Nat} (hi : gs[i]? = some held)
    (hj : gs[j]? = some held') {job job' : JobRecord} (hjob : job ∈ held) (hjob' : job' ∈ held')
    (hid : job.id = job'.id) : i = j := by
  by_contra hne
  have hdistinct := h.distinct
  rw [List.map_flatten, List.nodup_flatten] at hdistinct
  have hpair := hdistinct.2
  rw [List.pairwise_map] at hpair
  obtain ⟨hilt, hi⟩ := List.getElem?_eq_some_iff.1 hi
  obtain ⟨hjlt, hj⟩ := List.getElem?_eq_some_iff.1 hj
  have hmem : job.id ∈ held.map JobRecord.id := List.mem_map_of_mem hjob
  have hmem' : job.id ∈ held'.map JobRecord.id := hid ▸ List.mem_map_of_mem hjob'
  rcases Nat.lt_or_gt_of_ne hne with hlt | hlt
  · have hdis := List.pairwise_iff_getElem.1 hpair i j hilt hjlt hlt
    rw [hi, hj] at hdis
    exact hdis hmem hmem'
  · have hdis := List.pairwise_iff_getElem.1 hpair j i hjlt hilt hlt
    rw [hi, hj] at hdis
    exact hdis hmem' hmem

/-- **A job is handled by one worker at a time**, in every run of workers and producers in which no poll
finds a job that has been locked for longer than the visibility timeout. -/
theorem handlers_exclusive (clock : Time) (outer : X.State) (cs : Schedule X)
    (htasks : ∀ p, .spawn p ∈ cs → IsWorker p ∨ IsProducer p)
    (hcs : (⟨.fresh clock outer, []⟩ : Queue X).Guarded handle NoneStale cs) :
    let w : Queue X := Pool.exec handle ⟨.fresh clock outer, []⟩ cs
    ∀ i j job job' b b', w.pending i = some (.outer (some job) b) → w.pending j = some (.outer (some job') b') →
      job.id = job'.id → i = j := by
  intro w i j job job' b b' hi hj hid
  have hinit : (⟨.fresh clock outer, []⟩ : Queue X).GhostInv holding Exclusive :=
    ⟨[], .nil, .nil, fun job h => absurd h List.not_mem_nil⟩
  have hinv : w.GhostInv holding Exclusive := by
    refine Pool.exec_inv (fun p hp => ⟨[], task_obeys hp, fun db gs h => ?_⟩)
      (fun db gs₁ held gs₂ a o h hok hnone =>
        ⟨handle_rely a o db, handle_exclusive db gs₁ held gs₂ a o h hok hnone⟩)
      hinit htasks hcs
    have hflat : (gs ++ [[]]).flatten = gs.flatten := by simp
    exact ⟨hflat ▸ h.distinct, hflat ▸ h.busy⟩
  obtain ⟨gs, hexcl, hok⟩ := hinv.pending
  obtain ⟨held, hget, hjob⟩ := hok i _ hi
  obtain ⟨held', hget', hjob'⟩ := hok j _ hj
  exact hexcl.index hget hget' hjob hjob' hid

/-! ## A batch of two -/

/-- The job whose handler a task is in. -/
def handling (w : Queue X) (i : Nat) : Option Id :=
  match w.pending i with
  | some (.outer (some job) _) => some job.id
  | _ => none

theorem handling_eq {w : Queue X} {i : Nat} {id : Id} :
    handling w i = some id ↔ ∃ job b, w.pending i = some (.outer (some job) b) ∧ job.id = id := by
  unfold handling
  split
  · rename_i job b hpending
    simp [hpending]
  · rename_i hnot
    simp only [reduceCtorEq, false_iff, not_exists, not_and]
    exact fun job b hpending => absurd hpending (hnot job b)

/-- Worker `A` claims `j1` and `j2` at time 0 and starts with `j1`, whose handler is done at 1000, the
visibility timeout; `j2` follows. Worker `B` polls at 0, and again at 1001. -/
def batchOfTwo : List BenchStep :=
  enqueued 0 "j1" 5 ++ enqueued 1 "j2" 5 ++
    [.spawn (worker "A" 1), next 2 0, next 2 0, .spawn (worker "B" 2), next 3 0, next 3 0, next 3 1000,
     next 2 0, next 2 1, next 3 0, next 3 0]

/-- The rule while `A` handles `j1` and `B` has polled for the first time. -/
theorem handlers_exclusive_first :
    handling (Pool.exec handle idle (batchOfTwo.take 10)) 2 = some "j1" ∧
    handling (Pool.exec handle idle (batchOfTwo.take 10)) 3 ≠ some "j1" := by
  have hfirst : handling (Pool.exec handle idle (batchOfTwo.take 10)) 2 = some "j1" := by decide +kernel
  refine ⟨hfirst, fun hsecond => ?_⟩
  obtain ⟨job, b, hpending, hid⟩ := handling_eq.1 hfirst
  obtain ⟨job', b', hpending', hid'⟩ := handling_eq.1 hsecond
  have htasks : ∀ p, .spawn p ∈ batchOfTwo.take 10 → IsWorker p ∨ IsProducer p := by
    intro p hp
    simp only [batchOfTwo, enqueued, next, List.cons_append, List.nil_append, List.take_succ_cons,
      List.take_zero,
      List.mem_cons, Choice.spawn.injEq, reduceCtorEq, List.not_mem_nil, or_false, false_or] at hp
    rcases hp with rfl | rfl | rfl | rfl
    · exact .inr (isProducer_producer _ _)
    · exact .inr (isProducer_producer _ _)
    · exact .inl (isWorker_worker _ _)
    · exact .inl (isWorker_worker _ _)
  have hsame := handlers_exclusive (X := bench) 0 () (batchOfTwo.take 10) htasks
    (by decide +kernel) 2 3 job job' b b'
    hpending hpending' (hid.trans hid'.symm)
  omega

/-- Every handler has run for at most 1000, `j1` from 0 to 1000 and `j2` from 1000 to now, and both workers are in
the handler of `j2`. -/
theorem handled_twice :
    ([7, 11, 13, 15].map fun n =>
      let w := Pool.exec handle idle (batchOfTwo.take n)
      (w.store.clock, handling w 2, handling w 3)) =
      [(0, some "j1", none), (1000, some "j1", none), (1001, some "j2", none), (1001, some "j2", some "j2")] := by
  decide +kernel

end NexoraGateway.Jobs
