import NexoraGateway.Jobs.Polling
import NexoraGateway.Worker.Shutdown

/-!
# The queue loop of a worker (composition.ts:145-153)

`start` only logs that the loop has settled: watcher, tracker and health endpoint go on without it.

* `Goes` — the invariant on the loop.
* `loop_lasts` — when the loop lasts.
-/
namespace NexoraGateway.Worker

open Async Store

namespace Shutdown

variable {config : WorkerConfig} {w w' : WorkerRuntime}

/-- The loop runs, and will go on doing so, or it has been aborted. -/
def Loop.GoesOn (aborted : Bool) : Loop → Prop
  | cycle p => p.Strict Jobs.Call.Critical
  | asleep => True
  | ended => aborted = true

def Goes (w : WorkerRuntime) : Prop := ∀ l ∈ w.queueLoop, l.GoesOn (w.queueAbort = some true)

/-- A step at which no statement of the loop is rejected but those of `complete`. -/
def Spared (w : WorkerRuntime) : Step → Prop
  | .turned o => ∀ a k, w.queueLoop = some (.cycle (.call a k)) → a.IsStatement → o.rejects ≠ none → a.Completes
  | _ => True

theorem Goes.frame (h : Goes w) (hloop : w'.queueLoop = w.queueLoop) (habort : w'.queueAbort = w.queueAbort) :
    Goes w' := by
  intro l hl
  rw [hloop] at hl
  rw [habort]
  exact h l hl

theorem strict_cycle : (cycle config).Strict Jobs.Call.Critical :=
  Prog.Strict.bind (Prog.Strict.await trivial) fun _ => Prog.Strict.bind Jobs.strict_runOnce fun _ => trivial

/-- A call that is spared leaves a turn that does not fail. -/
theorem strict_turned {a : Jobs.Call worker} {k : Jobs.Answer a → Task Unit} {o : Jobs.Oracle worker}
    (hturn : (Prog.call a k : Task Unit).Strict Jobs.Call.Critical)
    (hspared : a.IsStatement → o.rejects ≠ none → a.Completes) (s : Jobs.Db worker) :
    (k (Jobs.handle a o s).1).Strict Jobs.Call.Critical := by
  cases hr : (Jobs.handle a o s).1 with
  | ok x => exact hturn.1 x
  | error e =>
    rcases hturn.2 e with ⟨hcritical, -⟩ | ⟨-, hrest⟩
    · have hrejected : Jobs.Rejected ⟨a, { own := o }, s⟩ := by
        by_contra hnot
        obtain ⟨x, hx⟩ := (Jobs.critical_ok_iff hcritical).2 hnot
        cases hr.symm.trans hx
      exact absurd (hspared hrejected.1 hrejected.2) ((Jobs.critical_iff hrejected.1).1 hcritical)
    · exact hrest

theorem goesOn_settled {p : Task Unit} (hp : p.Strict Jobs.Call.Critical) (aborted : Bool) :
    (settled aborted p).GoesOn aborted := by
  cases p with
  | ret x =>
    cases aborted with
    | true => exact rfl
    | false => trivial
  | throw e => exact hp.elim
  | call a k => exact hp

theorem goes_turned (h : Goes w) {o : Jobs.Oracle worker} (hspared : Spared w (.turned o)) : Goes (turned w o) := by
  unfold turned
  split
  · rename_i a k hloop
    rintro l hl
    obtain rfl := Option.some.inj hl
    exact goesOn_settled (strict_turned (h _ hloop) (hspared a k hloop) w.pool.store) _
  · exact h

theorem goes_woken (h : Goes w) : Goes (woken config w) := by
  unfold woken
  split
  · rintro l hl
    obtain rfl := Option.some.inj hl
    split
    · rename_i haborted
      exact decide_eq_true haborted
    · exact strict_cycle
  · exact h

theorem goes_watched (h : Goes w) : Goes (watched config w) := by
  unfold watched
  split
  · rintro l hl
    obtain rfl := Option.some.inj hl
    exact strict_cycle
  · exact h

theorem goes_stop (h : Goes w) : Goes (stop w) := by
  unfold stop
  split
  · intro l hl
    have hgoes := h l hl
    cases l with
    | cycle p => exact hgoes
    | asleep => trivial
    | ended =>
      have haborted : w.queueAbort = some true := of_decide_eq_true hgoes
      simp [Loop.GoesOn, haborted]
  · exact h

/-- One step. -/
theorem goes_step (h : Goes w) {x : Step} (hspared : Spared w x) : Goes (step config w x) := by
  cases x with
  | watched => exact goes_watched h
  | turned o => exact goes_turned h hspared
  | woken => exact goes_woken h
  | stop => exact goes_stop h
  | resumed | ticked | called => exact h.frame rfl rfl
  | listened ok =>
    simp only [step, listened]
    split
    · split <;> exact h.frame rfl rfl
    · exact h
  | swept =>
    simp only [step, swept]
    split
    · exact h.frame rfl rfl
    · exact h
  | deposited s event =>
    simp only [step, deposited]
    split
    · exact h.frame rfl rfl
    · exact h
  | drained =>
    simp only [step, drained]
    split
    · exact h.frame rfl rfl
    · exact h.frame rfl rfl
    · exact h
  | healthClosed =>
    simp only [step, healthClosed]
    split
    · exact h.frame rfl rfl
    · exact h
  | closePool =>
    simp only [step, closePool]
    split
    · exact h.frame rfl rfl
    · exact h

end Shutdown

open Shutdown

/-- **A queue loop lasts just when** every statement of it that is rejected is one of `complete`: it polls until it is
aborted, and once nothing is rejected any more every job that is due is taken up; and no worker whose loop is so spared
stays up without it. -/
theorem loop_lasts {X : Jobs.Outside} (options : Jobs.JobQueueOptions) (handlers : Jobs.Handlers X) (queueName : String)
    (ω : Jobs.Course X) (db : Jobs.Db X) :
    (Jobs.Polls options handlers queueName ω db ↔
      ∀ n, ∀ c ∈ (Jobs.run options handlers queueName n).calls (amid Jobs.handle) ω 0 db,
        Jobs.Rejected c → c.call.Completes) ∧
    ∀ (config : WorkerConfig) (db : Jobs.Db worker) (xs : List Step),
      Runs.Along (Shutdown.step config) Spared { pool := ⟨db, []⟩ } xs →
        let w := Runs.exec (Shutdown.step config) { pool := ⟨db, []⟩ } xs
        w.queueLoop = some .ended → w.queueAbort = some true := by
  refine ⟨Jobs.polls_iff, fun config db xs hxs => ?_⟩
  intro w hended
  have hw : Goes w := Runs.exec_inv (fun w x hw hx => goes_step hw hx) (fun l hl => by cases hl) hxs
  exact of_decide_eq_true (hw _ hended)

/-- A job that is due. -/
def dueDb : Jobs.Db Jobs.bench := (Pool.exec Jobs.handle Jobs.idle (Jobs.enqueued 0 "job" 5)).store

/-- Call `k` is rejected; handlers fail as `outer` says. -/
def rejectedAt (k : Option Nat) (outer : Option Jobs.JsError) : Jobs.Course Jobs.bench := fun n =>
  { own := { outer, took := 1, rejects := if k = some n then some { message := "Connection terminated" } else none } }

/-- The rule where nothing is rejected. -/
theorem loop_lasts_quiet :
    (Jobs.Fair (Jobs.benchOptions "w") Jobs.benchHandlers Jobs.defaultQueue (rejectedAt none none) dueDb ∧
      Jobs.Polls (Jobs.benchOptions "w") Jobs.benchHandlers Jobs.defaultQueue (rejectedAt none none) dueDb) ∧
    let w := Runs.exec (Shutdown.step config) { pool := ⟨.fresh 0 { intents := Intent.quotedDb }, []⟩ } Shutdown.served
    w.queueAbort = some true := by
  have hrule := loop_lasts (Jobs.benchOptions "w") Jobs.benchHandlers Jobs.defaultQueue (rejectedAt none none) dueDb
  refine ⟨⟨?_, hrule.1.2 fun n c hc hrejected => ?_⟩, hrule.2 config (.fresh 0 { intents := Intent.quotedDb })
    Shutdown.served ?_ rfl⟩
  · exact Jobs.fair_of_took (by decide) (fun _ c hc => absurd hc List.not_mem_nil) (fun _ => Nat.one_pos) fun _ => rfl
  · obtain ⟨m, hm⟩ := Prog.calls_oracle hc
    refine absurd ?_ hrejected.2
    rw [hm]
    rfl
  · have hanswered (a : Jobs.Call worker) (hrejected : Shutdown.answer.rejects ≠ none) : a.Completes :=
      absurd rfl hrejected
    exact ⟨trivial, trivial, trivial, trivial, trivial, trivial, trivial, trivial, trivial,
      fun a _ _ _ => hanswered a, fun a _ _ _ => hanswered a, trivial, trivial, trivial, trivial, trivial, trivial⟩

/-- One rejection of `reclaimStale`, of `claimBatch` or of what `fail` writes ends the loop, with a job due; the worker
stays up. -/
theorem loop_ends :
    (¬ Jobs.Polls (Jobs.benchOptions "w") Jobs.benchHandlers Jobs.defaultQueue (rejectedAt (some 0) none) dueDb ∧
      ¬ Jobs.Polls (Jobs.benchOptions "w") Jobs.benchHandlers Jobs.defaultQueue (rejectedAt (some 1) none) dueDb ∧
      ¬ Jobs.Polls (Jobs.benchOptions "w") Jobs.benchHandlers Jobs.defaultQueue
        (rejectedAt (some 4) (some { message := "boom" })) dueDb) ∧
    let w := Runs.exec (Shutdown.step config) { pool := ⟨.fresh 0 { intents := Intent.quotedDb }, []⟩ }
      [.listened true, .resumed 0 (some []), .resumed 0 none, .watched,
       .turned { outer := {}, rejects := some { message := "Connection terminated" } }]
    w.queueLoop = some .ended ∧ w.stopping = none ∧ w.sweepTimer = true := by
  have hends (k : Nat) (outer : Option Jobs.JsError)
      (hrun : ((Jobs.run (Jobs.benchOptions "w") Jobs.benchHandlers Jobs.defaultQueue 1).run (amid Jobs.handle)
        (rejectedAt (some k) outer) 0 dueDb).1.toBool = false) :
      ¬ Jobs.Polls (Jobs.benchOptions "w") Jobs.benchHandlers Jobs.defaultQueue (rejectedAt (some k) outer) dueDb := by
    intro h
    obtain ⟨x, hx⟩ := h.lives 1
    rw [hx] at hrun
    cases hrun
  refine ⟨⟨hends 0 _ (by decide +kernel), hends 1 _ (by decide +kernel), hends 4 _ (by decide +kernel)⟩, rfl, ?_, ?_⟩
  · decide +kernel
  · decide +kernel

end NexoraGateway.Worker
