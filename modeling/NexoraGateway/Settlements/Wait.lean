import NexoraGateway.Settlements.Service

/-!
# Waiting for the confirmation depth

`Waited` lists the four ways in which `waitForConfirmation` ends, over any answers of the chain: at
the first poll that is deep enough, reports a failure or is rejected, or at the first check past
`maxWaitTime`. The loop calls `now`, `getTransactionStatus` and `delay` in turn, so with its first
call at `n` check `k` is call `n + 3 * k` and poll `k` the one after it.

The clock bounds the loop: check `k` is made at least `k * pollInterval` after the start, so there are
at most 150 polls and the fuel does not matter (`pollLoop_fuel`).
-/
namespace NexoraGateway.Settlements

open Async Chain

variable {ω : Nat → Oracle} {n : Nat} {db : Db} {txHash : Id} {depth : Int} {startTime : Time}

section
variable {α : Type}

theorem run_bind_now (f : Time → Task α) : (Task.now.bind f).run handle ω n db =
    (f (db.tick (ω n)).clock).run handle ω (n + 1) (db.tick (ω n)) := rfl

theorem run_bind_getTransactionStatus (f : TxStatus → Task α) :
    ((Task.getTransactionStatus txHash).bind f).run handle ω n db =
      ((Prog.ofExcept (lookupStatus (ω n) (db.tick (ω n))).1).bind f).run handle ω (n + 1)
        (lookupStatus (ω n) (db.tick (ω n))).2 := rfl

end

/-- One round of the loop. -/
theorem pollLoop_step (fuel : Nat) : (pollLoop txHash depth startTime (fuel + 1)).run handle ω n db =
    if (db.tick (ω n)).clock - startTime < maxWaitTime then
      let polled := (db.tick (ω n)).tick (ω (n + 1))
      match (ω (n + 1)).rejects with
      | some message => (.error (.rejected message), n + 2, polled)
      | none =>
        let reported := { polled with reports := polled.reports ++ [(ω (n + 1)).status] }
        if (ω (n + 1)).status.confirmations ≥ depth then (.ok (), n + 2, reported)
        else if (ω (n + 1)).status.status = .failed then
          (.error (.settlementFailed txHash "Transaction failed on-chain"), n + 2, reported)
        else
          let delayed := reported.tick (ω (n + 2))
          (pollLoop txHash depth startTime fuel).run handle ω (n + 3)
            { delayed with clock := delayed.clock + pollInterval }
    else (.error (.settlementFailed txHash "Confirmation timeout"), n + 1, db.tick (ω n)) := by
  rw [pollLoop, Prog.bind_def, run_bind_now]
  by_cases htime : (db.tick (ω n)).clock - startTime < maxWaitTime
  · rw [if_pos htime, if_pos htime, Prog.bind_def, run_bind_getTransactionStatus]
    unfold lookupStatus
    cases (ω (n + 1)).rejects with
    | some message => rfl
    | none =>
      simp only [Prog.ofExcept_ok, Prog.ret_bind]
      by_cases hdepth : (ω (n + 1)).status.confirmations ≥ depth
      · rw [if_pos hdepth, if_pos hdepth]
        rfl
      · rw [if_neg hdepth, if_neg hdepth]
        by_cases hfailed : (ω (n + 1)).status.status = .failed
        · rw [if_pos hfailed, if_pos hfailed]
          rfl
        · rw [if_neg hfailed, if_neg hfailed]
          rfl
  · rw [if_neg htime, if_neg htime]
    rfl

/-! ## How long the loop runs -/

/-- The time from the start to the beginning of round `k`. -/
def elapsed (ω : Nat → Oracle) (n : Nat) : Nat → Nat
  | 0 => 0
  | k + 1 =>
    elapsed ω n k + (ω (n + 3 * k)).took + (ω (n + 3 * k + 1)).took + (ω (n + 3 * k + 2)).took + pollInterval

/-- The time from the start to check `k`. -/
def checkTime (ω : Nat → Oracle) (n k : Nat) : Nat := elapsed ω n k + (ω (n + 3 * k)).took

theorem pollInterval_mul_le_elapsed (k : Nat) : k * pollInterval ≤ elapsed ω n k := by
  induction k with
  | zero => simp
  | succ k ih =>
    rw [Nat.succ_mul, elapsed]
    omega

theorem elapsed_of_prompt (h : ∀ i, (ω i).took = 0) (k : Nat) : elapsed ω n k = k * pollInterval := by
  induction k with
  | zero => simp [elapsed]
  | succ k ih => simp only [elapsed, ih, h, Nat.succ_mul, Nat.add_zero]

theorem checkTime_mono {k m : Nat} (h : k ≤ m) : checkTime ω n k ≤ checkTime ω n m := by
  induction m, h using Nat.le_induction with
  | base => exact Nat.le_refl _
  | succ m _ ih =>
    unfold checkTime at *
    rw [elapsed]
    omega

/-- A check is in time only for the first 150 polls. -/
theorem lt_of_checkTime {k : Nat} (h : checkTime ω n k < maxWaitTime) : k < 150 := by
  have hle : k * pollInterval ≤ elapsed ω n k := pollInterval_mul_le_elapsed k
  unfold checkTime maxWaitTime at h
  unfold pollInterval at hle
  omega

/-- A poll that leaves the loop running. -/
def Undecided (depth : Int) (o : Oracle) : Prop :=
  o.rejects = none ∧ o.status.confirmations < depth ∧ o.status.status ≠ .failed

theorem not_undecided_of_deep {o : Oracle} (h : depth ≤ o.status.confirmations) : ¬ Undecided depth o :=
  fun hu => absurd hu.2.1 (Int.not_lt.2 h)

/-- The statuses that the first `k` polls report. -/
def polls (ω : Nat → Oracle) (n k : Nat) : List TxStatus :=
    (List.range k).map fun i => (ω (n + 3 * i + 1)).status

theorem polls_succ (k : Nat) : polls ω n (k + 1) = polls ω n k ++ [(ω (n + 3 * k + 1)).status] := by
  simp [polls, List.range_succ]

/-- Poll `k` is made and answered. -/
structure Polled (ω : Nat → Oracle) (depth : Int) (n k : Nat) : Prop where
  prev : ∀ i < k, Undecided depth (ω (n + 3 * i + 1))
  time : checkTime ω n k < maxWaitTime
  answered : (ω (n + 3 * k + 1)).rejects = none

theorem Polled.of_le {k m : Nat} (h : Polled ω depth n m) (hk : k ≤ m) : Polled ω depth n k where
  prev i hi := h.prev i (Nat.lt_of_lt_of_le hi hk)
  time := Nat.lt_of_le_of_lt (checkTime_mono hk) h.time
  answered := by
    rcases Nat.lt_or_eq_of_le hk with hlt | rfl
    · exact (h.prev k hlt).1
    · exact h.answered

/-- Two polls that both end the loop are the same one. -/
theorem Polled.unique {k m : Nat} (hk : Polled ω depth n k) (hm : Polled ω depth n m)
    (hk' : ¬ Undecided depth (ω (n + 3 * k + 1))) (hm' : ¬ Undecided depth (ω (n + 3 * m + 1))) : k = m := by
  rcases Nat.lt_trichotomy k m with hlt | heq | hlt
  · exact absurd (hm.prev k hlt) hk'
  · exact heq
  · exact absurd (hk.prev m hlt) hm'

/-- A loop that stays undecided up to a poll that is not made or not answered is never decided. -/
theorem Polled.undecided {k m : Nat} (hm : Polled ω depth n m)
    (hprev : ∀ i < k, Undecided depth (ω (n + 3 * i + 1)))
    (hk : ¬ Polled ω depth n k) : Undecided depth (ω (n + 3 * m + 1)) := by
  rcases Nat.lt_or_ge m k with hlt | hge
  · exact hprev m hlt
  · exact absurd (hm.of_le hge) hk

/-- How a loop whose first call is `n` ends: its outcome, the next call, and what it was told. -/
inductive Waited (ω : Nat → Oracle) (txHash : Id) (depth : Int) (n : Nat) :
    Except SettlementError Unit → Nat → List TxStatus → Prop
  | confirmed {k : Nat} (hk : Polled ω depth n k) (hdepth : depth ≤ (ω (n + 3 * k + 1)).status.confirmations) :
      Waited ω txHash depth n (.ok ()) (n + 3 * k + 2) (polls ω n (k + 1))
  | reverted {k : Nat} (hk : Polled ω depth n k) (hdepth : (ω (n + 3 * k + 1)).status.confirmations < depth)
      (hfailed : (ω (n + 3 * k + 1)).status.status = .failed) :
      Waited ω txHash depth n (.error (.settlementFailed txHash "Transaction failed on-chain"))
        (n + 3 * k + 2) (polls ω n (k + 1))
  | rejected {k : Nat} {message : String} (hprev : ∀ i < k, Undecided depth (ω (n + 3 * i + 1)))
      (htime : checkTime ω n k < maxWaitTime) (hpoll : (ω (n + 3 * k + 1)).rejects = some message) :
      Waited ω txHash depth n (.error (.rejected message)) (n + 3 * k + 2) (polls ω n k)
  | timedOut {k : Nat} (hprev : ∀ i < k, Undecided depth (ω (n + 3 * i + 1)))
      (htime : maxWaitTime ≤ checkTime ω n k) :
      Waited ω txHash depth n (.error (.settlementFailed txHash "Confirmation timeout")) (n + 3 * k + 1)
        (polls ω n k)

theorem inTime_iff {k : Nat} (hclock : db.clock = startTime + elapsed ω n k) :
    (db.tick (ω (n + 3 * k))).clock - startTime < maxWaitTime ↔ checkTime ω n k < maxWaitTime := by
  have hshift : (db.tick (ω (n + 3 * k))).clock - startTime = (checkTime ω n k : Int) := by
    simp only [Db.tick, hclock, checkTime]
    push_cast
    ring
  rw [hshift]
  exact Int.ofNat_lt

/-- The loop from round `k` on: only the clock moves and the reports are added. -/
theorem pollLoop_run (fuel k : Nat) (hfuel : 150 ≤ fuel + k)
    (hprev : ∀ i < k, Undecided depth (ω (n + 3 * i + 1)))
    (reports : List TxStatus) (hreports : db.reports = reports ++ polls ω n k)
    (hclock : db.clock = startTime + elapsed ω n k) :
    ∃ out m told clock, Waited ω txHash depth n out m told ∧
      (pollLoop txHash depth startTime (fuel + 1)).run handle ω (n + 3 * k) db =
        (out, m, { db with reports := reports ++ told, clock }) := by
  induction fuel generalizing k db with
  | zero =>
    have htime : ¬ checkTime ω n k < maxWaitTime := fun h => by
      have := lt_of_checkTime h
      omega
    refine ⟨_, _, _, (db.tick (ω (n + 3 * k))).clock, .timedOut hprev (Nat.le_of_not_lt htime), ?_⟩
    rw [pollLoop_step, if_neg fun h => htime ((inTime_iff hclock).1 h), ← hreports]
    rfl
  | succ fuel ih =>
    rw [pollLoop_step]
    by_cases htime : checkTime ω n k < maxWaitTime
    swap
    · refine ⟨_, _, _, (db.tick (ω (n + 3 * k))).clock, .timedOut hprev (Nat.le_of_not_lt htime), ?_⟩
      rw [if_neg fun h => htime ((inTime_iff hclock).1 h), ← hreports]
      rfl
    rw [if_pos ((inTime_iff hclock).2 htime)]
    let polled := (db.tick (ω (n + 3 * k))).tick (ω (n + 3 * k + 1))
    cases hpoll : (ω (n + 3 * k + 1)).rejects with
    | some message =>
      refine ⟨_, _, _, polled.clock, .rejected hprev htime hpoll, ?_⟩
      rw [← hreports]
      rfl
    | none =>
      have htold : db.reports ++ [(ω (n + 3 * k + 1)).status] = reports ++ polls ω n (k + 1) := by
        rw [hreports, polls_succ, List.append_assoc]
      dsimp only
      by_cases hdepth : depth ≤ (ω (n + 3 * k + 1)).status.confirmations
      · refine ⟨_, _, _, polled.clock, .confirmed ⟨hprev, htime, hpoll⟩ hdepth, ?_⟩
        rw [if_pos hdepth, ← htold]
        rfl
      by_cases hfailed : (ω (n + 3 * k + 1)).status.status = .failed
      · refine ⟨_, _, _, polled.clock, .reverted ⟨hprev, htime, hpoll⟩ (Int.lt_of_not_ge hdepth) hfailed, ?_⟩
        rw [if_neg hdepth, if_pos hfailed, ← htold]
        rfl
      -- the poll leaves the loop running: the next round starts a poll and an interval later
      rw [if_neg hdepth, if_neg hfailed]
      have hundecided : ∀ i < k + 1, Undecided depth (ω (n + 3 * i + 1)) := fun i hi => by
        rcases Nat.lt_succ_iff_lt_or_eq.1 hi with hi | rfl
        · exact hprev i hi
        · exact ⟨hpoll, Int.lt_of_not_ge hdepth, hfailed⟩
      refine ih (k + 1) (by omega) hundecided htold ?_
      simp only [Db.tick, hclock, elapsed]
      push_cast
      ring

/-- Rounds that the clock does not allow change nothing. -/
theorem pollLoop_fuel (fuel fuel' k : Nat) (hfuel : 150 ≤ fuel + k) (hfuel' : 150 ≤ fuel' + k)
    (hclock : db.clock = startTime + elapsed ω n k) :
    (pollLoop txHash depth startTime (fuel + 1)).run handle ω (n + 3 * k) db =
      (pollLoop txHash depth startTime (fuel' + 1)).run handle ω (n + 3 * k) db := by
  induction fuel generalizing fuel' k db with
  | zero =>
    have htime : ¬ checkTime ω n k < maxWaitTime := fun h => by
      have := lt_of_checkTime h
      omega
    have hlate := fun h => htime ((inTime_iff hclock).1 h)
    rw [pollLoop_step, pollLoop_step, if_neg hlate, if_neg hlate]
  | succ fuel ih =>
    rw [pollLoop_step, pollLoop_step]
    by_cases htime : checkTime ω n k < maxWaitTime
    · obtain ⟨m, rfl⟩ : ∃ m, fuel' = m + 1 := ⟨fuel' - 1, by
        have := lt_of_checkTime htime
        omega⟩
      rw [if_pos ((inTime_iff hclock).2 htime), if_pos ((inTime_iff hclock).2 htime)]
      dsimp only
      cases (ω (n + 3 * k + 1)).rejects with
      | some message => rfl
      | none =>
        dsimp only
        split
        · rfl
        · split
          · rfl
          · refine ih m (k + 1) (by omega) (by omega) ?_
            simp only [Db.tick, hclock, elapsed]
            push_cast
            ring
    · have hlate := fun h => htime ((inTime_iff hclock).1 h)
      rw [if_neg hlate, if_neg hlate]

/-- How `waitForConfirmation` ends. -/
theorem waitForConfirmation_run (ω : Nat → Oracle) (n : Nat) (db : Db) (txHash : Id) (client : ChainClient) :
    ∃ out m told clock, Waited ω txHash client.confirmationDepth (n + 1) out m told ∧
      (waitForConfirmation txHash client).run handle ω n db =
        (out, m, { db with reports := db.reports ++ told, clock }) := by
  rw [waitForConfirmation, Prog.bind_def, run_bind_now]
  refine pollLoop_run (n := n + 1) 150 0 (Nat.le_refl _)
    (fun i hi => absurd hi (Nat.not_lt_zero i)) db.reports ?_ ?_
  · simp [Db.tick, polls]
  · simp [Db.tick, elapsed]

end NexoraGateway.Settlements
