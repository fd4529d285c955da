import NexoraGateway.RateLocks.Service

/-!
# Whether a rate lock stays consumed, expired or cancelled

`cancelLock` writes the status of whatever lock it finds, and `consumeLock` looks for `EXPIRED` and `CONSUMED`
but not for `CANCELLED`. `lawful_iff` says what that comes to: the statuses obey the law along a history just when
no call of it cancels a lock that is consumed or expired, or asks to consume one that is cancelled.

* `Change` — what a call may do to a lock in the store.
* `step_kept` — one call; `kept_after` — a history.
* `spent_twice` — a history that consumes a lock twice.
-/
namespace NexoraGateway.RateLocks

open Store Async

variable {config : SpreadConfig} {locks : Locks} {lock lock' : RateLock} {call : Call} {calls : List Call}
  {intentId id : Id} {now consumedAt : Time}

/-! ## What a call does to a lock -/

/-- What a call may do to a lock in the store, other than remove it. -/
inductive Change (locks : Locks) : Call → RateLock → RateLock → Prop
  | same {call : Call} {lock : RateLock} : Change locks call lock lock
  | late {intentId : Id} {now consumedAt : Time} {lock : RateLock} (hget : getLock intentId locks = some lock)
      (hopen : lock.status ≠ .expired ∧ lock.status ≠ .consumed) (hlate : lock.Overdue now) :
      Change locks (.consumeLock intentId now consumedAt) lock { lock with status := .expired }
  | consumed {intentId : Id} {now consumedAt : Time} {lock : RateLock} (hget : getLock intentId locks = some lock)
      (hopen : lock.status ≠ .expired ∧ lock.status ≠ .consumed) (htime : ¬ lock.Overdue now) :
      Change locks (.consumeLock intentId now consumedAt) lock
        { lock with status := .consumed, consumedAt := some consumedAt }
  | cancelled {intentId : Id} {lock : RateLock} (hget : getLock intentId locks = some lock) :
      Change locks (.cancelLock intentId) lock { lock with status := .cancelled }
  | invalid {intentId : Id} {now : Time} {lock : RateLock} (hactive : lock.status = .active) :
      Change locks (.isLockValid intentId now) lock { lock with status := .expired }
  | swept {now : Time} {lock : RateLock} (hactive : lock.status = .active) :
      Change locks (.cleanupExpiredLocks now) lock { lock with status := .expired }

/-- The id that a call gives to a new lock. -/
def Call.uuid? : Call → Option Id
  | .createLock _ _ _ _ _ _ uuid _ => some uuid
  | _ => none

theorem Change.id_eq (h : Change locks call lock lock') : lock'.id = lock.id := by cases h <;> rfl

theorem swept_id : (swept now lock).id = lock.id := by
  unfold swept
  split <;> rfl

theorem mem_sweep {acc : Locks × Nat} (h : lock' ∈ (sweep now acc lock).1.rows) :
    lock' = swept now lock ∨ lock' ∈ acc.1.rows ∧ lock'.id ≠ lock.id := by
  have hput : lock' ∈ (acc.1.put (swept now lock)).rows := by
    by_cases hold : lock.Old now
    · rw [sweep, if_pos hold] at h
      exact (Table.mem_erase.1 h).1
    · rwa [sweep, if_neg hold] at h
  rwa [Table.mem_put, swept_id] at hput

/-- What the sweep leaves is a lock that it has come to, or one that it does not come to. -/
theorem mem_sweeps {rows : List RateLock} {acc : Locks × Nat} (h : lock' ∈ (rows.foldl (sweep now) acc).1.rows) :
    (∃ lock ∈ rows, lock' = swept now lock) ∨ lock' ∈ acc.1.rows ∧ ∀ lock ∈ rows, lock.id ≠ lock'.id := by
  induction rows generalizing acc with
  | nil => exact .inr ⟨h, fun _ hlock => absurd hlock List.not_mem_nil⟩
  | cons row rows ih =>
    rcases ih h with ⟨lock, hlock, rfl⟩ | ⟨hmem, hrest⟩
    · exact .inl ⟨lock, List.mem_cons_of_mem row hlock, rfl⟩
    · rcases mem_sweep hmem with rfl | ⟨hacc, hne⟩
      · exact .inl ⟨row, List.mem_cons_self, rfl⟩
      · refine .inr ⟨hacc, fun lock hlock => ?_⟩
        rcases List.mem_cons.1 hlock with rfl | hlock
        · exact hne.symm
        · exact hrest lock hlock

theorem mem_cleanup (h : lock' ∈ (cleanupExpiredLocks now locks).1.rows) :
    ∃ lock ∈ locks.rows, lock' = swept now lock := by
  rcases mem_sweeps h with hswept | ⟨hmem, hnone⟩
  · exact hswept
  · exact absurd rfl (hnone lock' hmem)

/-- A lock put in the place of one that was found. -/
theorem change_of_put {changed : RateLock} (hmem : lock ∈ locks.rows) (hchange : Change locks call lock changed)
    (h : lock' ∈ (locks.put changed).rows) : ∃ lock ∈ locks.rows, Change locks call lock lock' := by
  rcases Table.mem_put.1 h with rfl | ⟨hother, -⟩
  · exact ⟨lock, hmem, hchange⟩
  · exact ⟨lock', hother, .same⟩

theorem createLock_change {merchantId asset baseAsset : String} {ttlSeconds : Option ℚ}
    {price : Except String ℚ} {uuid : Id}
    (h : lock' ∈ (createLock config intentId merchantId asset baseAsset ttlSeconds price uuid now locks).1.rows) :
    lock'.id = uuid ∨ lock' ∈ locks.rows := by
  unfold createLock at h
  cases price with
  | error e => exact .inr h
  | ok liveRate =>
    dsimp only at h
    split at h
    · exact .inr h
    · rcases Table.mem_put.1 h with rfl | ⟨hold, -⟩
      · exact .inl rfl
      · exact .inr hold

theorem consumeLock_change (h : lock' ∈ (consumeLock intentId now consumedAt locks).1.rows) :
    ∃ lock ∈ locks.rows, Change locks (.consumeLock intentId now consumedAt) lock lock' := by
  unfold consumeLock at h
  cases hget : getLock intentId locks with
  | none =>
    rw [hget] at h
    exact ⟨lock', h, .same⟩
  | some lock =>
    have hmem := (getLock_mem hget).1
    simp only [hget] at h
    split_ifs at h with hexpired hconsumed hlate
    · exact ⟨lock', h, .same⟩
    · exact ⟨lock', h, .same⟩
    · exact change_of_put hmem (.late hget ⟨hexpired, hconsumed⟩ hlate) h
    · exact change_of_put hmem (.consumed hget ⟨hexpired, hconsumed⟩ hlate) h

theorem cancelLock_change (h : lock' ∈ (cancelLock intentId locks).rows) :
    ∃ lock ∈ locks.rows, Change locks (.cancelLock intentId) lock lock' := by
  unfold cancelLock at h
  cases hget : getLock intentId locks with
  | none =>
    rw [hget] at h
    exact ⟨lock', h, .same⟩
  | some lock =>
    rw [hget] at h
    exact change_of_put (getLock_mem hget).1 (.cancelled hget) h

theorem isLockValid_change (h : lock' ∈ (isLockValid intentId now locks).1.rows) :
    ∃ lock ∈ locks.rows, Change locks (.isLockValid intentId now) lock lock' := by
  unfold isLockValid at h
  cases hget : getLock intentId locks with
  | none =>
    rw [hget] at h
    exact ⟨lock', h, .same⟩
  | some lock =>
    simp only [hget] at h
    split_ifs at h with hactive hlate
    · exact ⟨lock', h, .same⟩
    · exact change_of_put (getLock_mem hget).1 (.invalid (not_not.1 hactive)) h
    · exact ⟨lock', h, .same⟩

theorem cleanup_change (h : lock' ∈ (cleanupExpiredLocks now locks).1.rows) :
    ∃ lock ∈ locks.rows, Change locks (.cleanupExpiredLocks now) lock lock' := by
  obtain ⟨lock, hmem, rfl⟩ := mem_cleanup h
  refine ⟨lock, hmem, ?_⟩
  unfold swept
  split
  · rename_i hlate
    exact .swept hlate.1
  · exact .same

/-- Every lock after a call is the one it created, or comes from a lock before it. -/
theorem step_change (h : lock' ∈ (step config locks call).rows) :
    call.uuid? = some lock'.id ∨ ∃ lock ∈ locks.rows, Change locks call lock lock' := by
  cases call with
  | createLock intentId merchantId asset baseAsset ttlSeconds price uuid now =>
    rcases createLock_change h with rfl | hold
    · exact .inl rfl
    · exact .inr ⟨lock', hold, .same⟩
  | getLock intentId => exact .inr ⟨lock', h, .same⟩
  | consumeLock intentId now consumedAt => exact .inr (consumeLock_change h)
  | cancelLock intentId => exact .inr (cancelLock_change h)
  | isLockValid intentId now => exact .inr (isLockValid_change h)
  | cleanupExpiredLocks now => exact .inr (cleanup_change h)

/-! ## The law -/

/-- The locks that the calls of a history have been given to consume. -/
def taken (locks : Locks) : Call → List RateLock
  | .consumeLock intentId now consumedAt => (consumeLock intentId now consumedAt locks).2.toOption.toList
  | _ => []

def takings (config : SpreadConfig) : Locks → List Call → List RateLock
  | _, [] => []
  | locks, call :: calls => taken locks call ++ takings config (step config locks call) calls

/-- The law of the statuses along a history. -/
structure Lawful (config : SpreadConfig) (calls : List Call) : Prop where
  /-- A lock that is no longer active keeps its status for as long as it is stored. -/
  absorbed : ∀ before between, before ++ between <+: calls → ∀ lock ∈ (after config before).rows,
    lock.status ≠ .active → ∀ lock' ∈ (after config (before ++ between)).rows, lock'.id = lock.id →
    lock'.status = lock.status
  /-- A lock is consumed at most once. -/
  once : ((takings config Table.empty calls).map RateLock.id).Nodup
  /-- A lock that is consumed was active and unexpired. -/
  live : ∀ before intentId now consumedAt lock, before ++ [.consumeLock intentId now consumedAt] <+: calls →
    lock ∈ taken (after config before) (.consumeLock intentId now consumedAt) →
    ∃ row ∈ (after config before).rows, row.id = lock.id ∧ row.status = .active ∧ ¬ row.Overdue now

/-- A call that cancels no lock that is consumed or expired, and asks to consume none that is cancelled. -/
def Regular (locks : Locks) : Call → Prop
  | .consumeLock intentId _ _ => ∀ lock ∈ getLock intentId locks, lock.status ≠ .cancelled
  | .cancelLock intentId => ∀ lock ∈ getLock intentId locks, lock.status ≠ .consumed ∧ lock.status ≠ .expired
  | _ => True

instance (locks : Locks) : DecidablePred (Regular locks)
  | .consumeLock .. => inferInstanceAs (Decidable (∀ lock ∈ getLock _ locks, lock.status ≠ .cancelled))
  | .cancelLock _ => inferInstanceAs (Decidable (∀ lock ∈ getLock _ locks, _ ∧ _))
  | .createLock .. | .getLock _ | .isLockValid .. | .cleanupExpiredLocks _ => inferInstanceAs (Decidable True)

/-- A regular call leaves the status of a lock that is no longer active. -/
theorem Change.status_eq (h : Change locks call lock lock') (hcall : Regular locks call)
    (hdone : lock.status ≠ .active) : lock'.status = lock.status := by
  cases h with
  | same => rfl
  | late hget hopen | consumed hget hopen =>
    have hcancelled := hcall lock hget
    cases hstatus : lock.status <;> simp_all
  | cancelled hget =>
    have hopen := hcall lock hget
    cases hstatus : lock.status <;> simp_all
  | invalid hactive | swept hactive => exact absurd hactive hdone

theorem mem_taken (h : lock ∈ taken locks call) : ∃ intentId now consumedAt,
    call = .consumeLock intentId now consumedAt ∧ (consumeLock intentId now consumedAt locks).2 = .ok lock := by
  cases call with
  | consumeLock intentId now consumedAt =>
    refine ⟨intentId, now, consumedAt, rfl, ?_⟩
    rw [taken] at h
    cases hanswer : (consumeLock intentId now consumedAt locks).2 with
    | error e => simp [hanswer, Except.toOption] at h
    | ok row =>
      rw [hanswer] at h
      exact congrArg Except.ok (List.mem_singleton.1 h).symm
  | _ => exact absurd h List.not_mem_nil

/-! ## Along a history -/

/-- The ids that a history gives to new locks. -/
def uuids (calls : List Call) : List Id := calls.filterMap Call.uuid?

theorem mem_uuids_cons : id ∈ uuids (call :: calls) ↔ call.uuid? = some id ∨ id ∈ uuids calls := by
  simp [uuids, List.mem_filterMap]

theorem uuids_nodup_cons (h : (uuids (call :: calls)).Nodup) :
    (uuids calls).Nodup ∧ ∀ id, call.uuid? = some id → id ∉ uuids calls := by
  cases huuid : call.uuid? with
  | none =>
    simp only [uuids, List.filterMap_cons, huuid] at h
    exact ⟨h, fun _ hid => nomatch hid⟩
  | some new =>
    simp only [uuids, List.filterMap_cons, huuid, List.nodup_cons] at h
    refine ⟨h.2, fun id hid => ?_⟩
    cases hid
    exact h.1

theorem id_after (h : lock ∈ (Runs.exec (step config) locks calls).rows) :
    lock.id ∈ locks.rows.map RateLock.id ∨ lock.id ∈ uuids calls := by
  induction calls generalizing locks with
  | nil => exact .inl (List.mem_map_of_mem h)
  | cons call calls ih =>
    rw [mem_uuids_cons]
    rcases ih h with hold | hnew
    · obtain ⟨row, hrow, hid⟩ := List.mem_map.1 hold
      rcases step_change hrow with huuid | ⟨origin, horigin, hchange⟩
      · exact .inr (.inl (hid ▸ huuid))
      · left
        rw [← hid, hchange.id_eq]
        exact List.mem_map_of_mem horigin
    · exact .inr (.inr hnew)

/-- Every stored lock with this id has this status, which is not `ACTIVE`. -/
def Rests (id : Id) (status : RateLockStatus) (locks : Locks) : Prop :=
  status ≠ .active ∧ ∀ lock ∈ locks.rows, lock.id = id → lock.status = status

/-- One regular call that creates no lock of this id. -/
theorem step_kept {status : RateLockStatus} (h : Rests id status locks) (hcall : Regular locks call)
    (huuid : call.uuid? ≠ some id) : Rests id status (step config locks call) := by
  refine ⟨h.1, fun lock' hlock' hid => ?_⟩
  rcases step_change hlock' with hnew | ⟨lock, hlock, hchange⟩
  · exact absurd (hid ▸ hnew) huuid
  · have hstatus := h.2 lock hlock (hchange.id_eq ▸ hid)
    rw [hchange.status_eq hcall (hstatus ▸ h.1), hstatus]

theorem kept_after {status : RateLockStatus} (h : Rests id status locks)
    (hcalls : Runs.Along (step config) Regular locks calls) (huuids : id ∉ uuids calls) :
    Rests id status (Runs.exec (step config) locks calls) := by
  induction calls generalizing locks with
  | nil => exact h
  | cons call calls ih =>
    rw [mem_uuids_cons, not_or] at huuids
    exact ih (step_kept h hcalls.1 huuids.1) hcalls.2 huuids.2

/-- A lock that rests is not taken. -/
theorem not_taken {status : RateLockStatus} (h : Rests id status locks)
    (hcalls : Runs.Along (step config) Regular locks calls) (huuids : id ∉ uuids calls) :
    id ∉ (takings config locks calls).map RateLock.id := by
  induction calls generalizing locks with
  | nil => exact List.not_mem_nil
  | cons call calls ih =>
    have hcons := huuids
    rw [mem_uuids_cons, not_or] at hcons
    rw [takings, List.map_append, List.mem_append, not_or]
    refine ⟨fun hmem => ?_, ih (step_kept h hcalls.1 hcons.1) hcalls.2 hcons.2⟩
    obtain ⟨lock, htaken, rfl⟩ := List.mem_map.1 hmem
    obtain ⟨intentId, now, consumedAt, rfl, hok⟩ := mem_taken htaken
    obtain ⟨row, hget, hopen, -, rfl⟩ := consumeLock_ok.1 hok
    have hcancelled := hcalls.1 row hget
    have hstatus := h.2 row (getLock_mem hget).1 rfl
    have hactive := h.1
    cases status <;> simp_all

/-- A lock that has been taken rests. -/
theorem rests_of_taken (h : lock ∈ taken locks call) : Rests lock.id .consumed (step config locks call) := by
  obtain ⟨intentId, now, consumedAt, rfl, hok⟩ := mem_taken h
  refine ⟨nofun, fun row hrow hid => ?_⟩
  rw [step, consumeLock_stored hok] at hrow
  rcases Table.mem_put.1 hrow with rfl | ⟨-, hne⟩
  · obtain ⟨_, -, -, -, rfl⟩ := consumeLock_ok.1 hok
    rfl
  · exact absurd hid hne

theorem takings_nodup (hcalls : Runs.Along (step config) Regular locks calls) (huuids : (uuids calls).Nodup)
    (hfresh : ∀ lock ∈ locks.rows, lock.id ∉ uuids calls) :
    ((takings config locks calls).map RateLock.id).Nodup := by
  induction calls generalizing locks with
  | nil => exact .nil
  | cons call calls ih =>
    obtain ⟨hnodup, hnew⟩ := uuids_nodup_cons huuids
    have hold : ∀ lock ∈ locks.rows, lock.id ∉ uuids calls := fun lock hlock hmem =>
      hfresh lock hlock (mem_uuids_cons.2 (.inr hmem))
    have hlater : ((takings config (step config locks call) calls).map RateLock.id).Nodup := by
      refine ih hcalls.2 hnodup fun lock hlock => ?_
      rcases step_change hlock with huuid | ⟨origin, horigin, hchange⟩
      · exact hnew lock.id huuid
      · rw [hchange.id_eq]
        exact hold origin horigin
    rw [takings, List.map_append, List.nodup_append]
    refine ⟨?_, hlater, fun id hid id' hid' e => ?_⟩
    · cases call with
      | consumeLock intentId now consumedAt =>
        rw [taken]
        cases (consumeLock intentId now consumedAt locks).2 <;> simp [Except.toOption]
      | _ => exact .nil
    · subst e
      obtain ⟨lock, htaken, rfl⟩ := List.mem_map.1 hid
      have hmem : lock.id ∉ uuids calls := by
        obtain ⟨intentId, now, consumedAt, rfl, hok⟩ := mem_taken htaken
        obtain ⟨row, hget, -, -, rfl⟩ := consumeLock_ok.1 hok
        exact hold row (getLock_mem hget).1
      exact not_taken (rests_of_taken htaken) hcalls.2 hmem hid'

/-- A call that keeps the status of every lock that is no longer active is regular. -/
theorem regular_of_kept (h : ∀ lock ∈ locks.rows, lock.status ≠ .active →
    ∀ lock' ∈ (step config locks call).rows, lock'.id = lock.id → lock'.status = lock.status) :
    Regular locks call := by
  cases call with
  | consumeLock intentId now consumedAt =>
    intro lock hget hcancelled
    have hkept := h lock (getLock_mem hget).1 (by rw [hcancelled]; decide)
    have hopen : lock.status ≠ .expired ∧ lock.status ≠ .consumed := by simp [hcancelled]
    by_cases hlate : lock.Overdue now
    · have hstep : step config locks (.consumeLock intentId now consumedAt) =
          locks.put { lock with status := .expired } := by
        simp only [step, consumeLock, Option.mem_def.1 hget]
        rw [if_neg hopen.1, if_neg hopen.2, if_pos hlate]
      rw [hstep, hcancelled] at hkept
      cases hkept _ (Table.mem_put.2 (.inl rfl)) rfl
    · have hok : (consumeLock intentId now consumedAt locks).2 = _ :=
        consumeLock_ok.2 ⟨lock, hget, hopen, hlate, rfl⟩
      rw [step, consumeLock_stored hok, hcancelled] at hkept
      cases hkept _ (Table.mem_put.2 (.inl rfl)) rfl
  | cancelLock intentId =>
    intro lock hget
    have hstep : step config locks (.cancelLock intentId) = locks.put { lock with status := .cancelled } := by
      rw [step, cancelLock, Option.mem_def.1 hget]
    have hkept : lock.status ≠ .active → .cancelled = lock.status := fun hdone =>
      h lock (getLock_mem hget).1 hdone { lock with status := .cancelled }
        (hstep ▸ Table.mem_put.2 (.inl rfl)) rfl
    constructor <;>
      · intro hstatus
        rw [hstatus] at hkept
        exact absurd (hkept (by decide)) (by decide)
  | _ => trivial

/-- **The statuses of rate locks obey their law along a history just when every call of it is regular**: `CONSUMED`,
`EXPIRED` and `CANCELLED` are kept, a lock is consumed at most once, and only while it is active and unexpired. -/
theorem lawful_iff (config : SpreadConfig) (calls : List Call) (huuids : (uuids calls).Nodup) :
    Lawful config calls ↔ Runs.Along (step config) Regular Table.empty calls := by
  constructor
  · intro h
    refine Runs.along_iff.2 fun before call hbefore => ?_
    have hkept := h.absorbed before [call] hbefore
    simp only [after, Runs.exec_append, Runs.exec_cons, Runs.exec_nil] at hkept
    exact regular_of_kept hkept
  · intro h
    refine ⟨?_, takings_nodup h huuids fun _ hlock => absurd hlock List.not_mem_nil, ?_⟩
    · rintro before between ⟨later, rfl⟩ lock hlock hdone lock' hlock' hid
      obtain ⟨hbefore, hbetween⟩ := Runs.along_append.1 (Runs.along_append.1 h).1
      have hrests : Rests lock.id lock.status (after config before) :=
        ⟨hdone, fun row hrow hrid => by rw [Table.eq_of_key hrow hlock hrid]⟩
      have hknown : lock.id ∈ uuids before := (id_after hlock).resolve_left List.not_mem_nil
      have hnew : lock.id ∉ uuids between := by
        rw [uuids, List.filterMap_append, List.filterMap_append] at huuids
        exact List.disjoint_of_nodup_append (List.nodup_append.1 huuids).1 hknown
      rw [after, Runs.exec_append] at hlock'
      exact (kept_after hrests hbetween hnew).2 lock' hlock' hid
    · intro before intentId now consumedAt lock hbefore htaken
      obtain ⟨_, _, _, hcall, hok⟩ := mem_taken htaken
      cases hcall
      obtain ⟨row, hget, hopen, htime, rfl⟩ := consumeLock_ok.1 hok
      have hcancelled := Runs.along_iff.1 h _ _ hbefore row hget
      refine ⟨row, (getLock_mem hget).1, rfl, ?_, htime⟩
      cases hstatus : row.status <;> simp_all

/-! ## A lock spent twice -/

/-- Calls about one intent: a lock of five minutes, consumed after one. -/
def spent : List Call :=
  [.createLock "pi" "shop" "ETH" "USD" none (.ok 2000) "lock" 0, .consumeLock "pi" 60000 60000]

/-- The rule on a history that ends with the sweep a day later. -/
theorem lawful_iff_spent : Lawful {} (spent ++ [.isLockValid "pi" 70000, .cleanupExpiredLocks 86400001]) ↔
    Runs.Along (step {}) Regular Table.empty (spent ++ [.isLockValid "pi" 70000, .cleanupExpiredLocks 86400001]) :=
  lawful_iff {} _ (by decide)

/-- The consumed lock is cancelled, and can be consumed once more. -/
theorem spent_twice : ¬ Lawful {} (spent ++ [.cancelLock "pi", .consumeLock "pi" 90000 90000]) := by
  intro h
  exact absurd h.once (by decide +kernel)

end NexoraGateway.RateLocks
