import NexoraGateway.Worker.Composition
import NexoraGateway.Worker.Watcher

/-!
# Starting and stopping the worker (`worker/src/composition.ts:140-180`, `worker/src/index.ts:30-62`)

The entry point calls `start` once, `stop` when a signal arrives, and closes the pool when `stop` has resolved.
`stop` waits for the queue loop alone. What else waits then goes on as if nothing had happened: `start` and `refresh`
(deposit-watcher.ts:93, :111), sweeps and the callbacks of deposits.

* `listened`, `watched` — what `start` does after each of its two `await`s.
* `stop`, `drained`, `healthClosed` — the same for `stop`.
* `Orderly` — the condition on one step.
* `Stopped` — the invariant from the call of `stop` on.
-/
namespace NexoraGateway.Worker.Shutdown

open Async Store
open Intent (PaymentIntent)

/-- The queue loop: in a cycle, between two cycles, or ended. -/
inductive Loop where
  | cycle (p : Task Unit)
  | asleep
  | ended

/-- Where `start` waits. -/
inductive Starting where
  | listening
  | watching
  deriving DecidableEq

/-- Where `stop` waits, whether it has resolved, and whether the pool is closed. -/
inductive Stopping where
  | loop (awaited : Bool)
  | health
  | resolved
  | poolClosed
  deriving DecidableEq

/-- The runtime that `compose` returns: the watcher, the tracker's timer, the sweeps and callbacks that are under
way with the store, `queueAbort` with its signal, and `queueLoop`. -/
structure WorkerRuntime where
  pool : Jobs.Queue worker
  watcher : Watcher.Runtime := {}
  sweepTimer : Bool := false
  queueAbort : Option Bool := none
  queueLoop : Option Loop := none
  starting : Option Starting := some .listening
  stopping : Option Stopping := none

section
variable (config : WorkerConfig)

/-- One turn of `queue.run` (job-queue.ts:337). -/
def cycle : Task Unit := do
  let _ ← Jobs.reclaimJobs (queueOptions config)
  let _ ← Jobs.runOnce (queueOptions config) jobHandlers Jobs.defaultQueue

/-- What follows a turn that has ended; an error ends the loop, and is logged. -/
def settled (aborted : Bool) : Task Unit → Loop
  | .ret _ => if aborted then .ended else .asleep
  | .throw _ => .ended
  | p => .cycle p

variable (w : WorkerRuntime)

/-- `health.listen` has been answered. -/
def listened (ok : Bool) : WorkerRuntime :=
  if w.starting = some .listening then
    if ok then { w with watcher := Watcher.start w.watcher, starting := some .watching }
    else { w with starting := none }
  else w

/-- `watcher.start` has resolved. -/
def watched : WorkerRuntime :=
  if w.starting = some .watching ∧ .startRefresh ∉ w.watcher.pending ∧ .start ∉ w.watcher.pending then
    { w with
      sweepTimer := true, queueAbort := some false, queueLoop := some (.cycle (cycle config)), starting := none }
  else w

/-- An activation of the watcher goes on. When the first refresh is rejected so are both `start`s. -/
def resumed (i : Nat) (answer : Option (List PaymentIntent)) : WorkerRuntime :=
  { w with
    watcher := Watcher.resumed config.chains i answer w.watcher
    starting := if w.watcher.pending[i]? = some .startRefresh ∧ answer = none then none else w.starting }

/-- A sweep or a callback begins. -/
def spawn (p : Task Unit) : WorkerRuntime := { w with pool := w.pool.next Jobs.handle (.spawn p) }

/-- The tracker's interval fires (confirmation-tracker.ts:52). -/
def swept : WorkerRuntime :=
  if w.sweepTimer then spawn w (logged (do let _ ← sweep (queueOptions config) config.chains none)) else w

/-- A client tells a subscriber of a deposit (deposit-watcher.ts:130). -/
def deposited (s : Watcher.Subscription) (event : DepositEvent) : WorkerRuntime :=
  if s ∈ w.watcher.live then spawn w (logged (onDeposit (queueOptions config) s.chainId event)) else w

/-- The queue loop makes its next call. -/
def turned (o : Jobs.Oracle worker) : WorkerRuntime :=
  match w.queueLoop with
  | some (.cycle (.call a k)) =>
    { w with
      pool := ⟨(Jobs.handle a o w.pool.store).2, w.pool.tasks⟩
      queueLoop := some (settled (w.queueAbort = some true) (k (Jobs.handle a o w.pool.store).1)) }
  | _ => w

/-- The sleep between two turns is over, in time or because the signal is aborted. -/
def woken : WorkerRuntime :=
  match w.queueLoop with
  | some .asleep => { w with queueLoop := some (if w.queueAbort = some true then .ended else .cycle (cycle config)) }
  | _ => w

/-- `stop` up to its first `await`. -/
def stop : WorkerRuntime :=
  if w.stopping = none then
    { w with
      sweepTimer := false
      watcher := Watcher.stop w.watcher
      queueAbort := w.queueAbort.map fun _ => true
      stopping := some (.loop w.queueLoop.isSome) }
  else w

/-- `queueLoop`, if `stop` has found one, has resolved. -/
def drained : WorkerRuntime :=
  match w.stopping, w.queueLoop with
  | some (.loop true), some .ended | some (.loop false), _ => { w with stopping := some .health }
  | _, _ => w

/-- `health.close` has resolved, and so does `stop`. -/
def healthClosed : WorkerRuntime :=
  if w.stopping = some .health then { w with stopping := some .resolved } else w

/-- The entry point closes the pool. -/
def closePool : WorkerRuntime :=
  if w.stopping = some .resolved then { w with stopping := some .poolClosed } else w

inductive Step where
  | listened (ok : Bool)
  | resumed (i : Nat) (answer : Option (List PaymentIntent))
  | ticked (timer : Nat)
  | watched
  | swept
  | deposited (s : Watcher.Subscription) (event : DepositEvent)
  | called (i : Nat) (o : Jobs.Oracle worker)
  | turned (o : Jobs.Oracle worker)
  | woken
  | stop
  | drained
  | healthClosed
  | closePool

def step : Step → WorkerRuntime
  | .listened ok => listened w ok
  | .resumed i answer => resumed config w i answer
  | .ticked timer => { w with watcher := Watcher.tick timer w.watcher }
  | .watched => watched config w
  | .swept => swept config w
  | .deposited s event => deposited config w s event
  | .called i o => { w with pool := w.pool.next Jobs.handle (.step i o) }
  | .turned o => turned w o
  | .woken => woken config w
  | .stop => stop w
  | .drained => drained w
  | .healthClosed => healthClosed w
  | .closePool => closePool w

/-! ## What is under way -/

/-- The task is about to make a call. -/
def waits : Task Unit → Bool
  | .call .. => true
  | _ => false

/-- Nothing of the worker is live: no subscription, no interval, no queue loop, no refresh, and no sweep or callback
that is to make a call. -/
structure Quiet : Prop where
  subscriptions : w.watcher.live = []
  refreshTimer : w.watcher.timers = []
  sweepTimer : w.sweepTimer = false
  loop : ∀ l ∈ w.queueLoop, l = .ended
  refreshes : w.watcher.pending = []
  tasks : ∀ p ∈ w.pool.tasks, waits p = false

/-- After `stop`, a step with which no start goes on, no refresh subscribes to anything, and the pool is closed
only when nothing is under way any more. -/
def Orderly : Step → Prop
  | .listened ok => ok = true → w.stopping ≠ some .poolClosed
  | .watched => w.stopping = none
  | .resumed i answer => w.stopping ≠ none → w.watcher.pending[i]? ≠ some .start ∧
      ∀ awaiting ∈ answer, ∀ client ∈ config.chains, Watcher.wanted awaiting client.chainId = []
  | .closePool => w.stopping = some .resolved → w.watcher.pending = [] ∧ ∀ p ∈ w.pool.tasks, waits p = false
  | _ => True

instance : (x : Step) → Decidable (Orderly config w x)
  | .listened ok => inferInstanceAs (Decidable (ok = true → w.stopping ≠ some .poolClosed))
  | .watched => inferInstanceAs (Decidable (w.stopping = none))
  | .resumed i answer => inferInstanceAs (Decidable (w.stopping ≠ none → w.watcher.pending[i]? ≠ some .start ∧
      ∀ awaiting ∈ answer, ∀ client ∈ config.chains, Watcher.wanted awaiting client.chainId = []))
  | .closePool => inferInstanceAs (Decidable (w.stopping = some .resolved →
      w.watcher.pending = [] ∧ ∀ p ∈ w.pool.tasks, waits p = false))
  | .ticked _ | .swept | .deposited .. | .called .. | .turned _ | .woken | .stop | .drained | .healthClosed =>
    inferInstanceAs (Decidable True)

end

/-! ## One start of the watcher -/

section
variable {r : Watcher.Runtime} {chains : List ChainClient}

/-- The activation is of `watcher.start`. -/
def starts : Watcher.Activation → Bool
  | .refresh => false
  | .startRefresh | .start => true

/-- How many `watcher.start`s are under way or have set their interval. -/
def launches (r : Watcher.Runtime) : Nat := r.pending.countP starts + r.timers.length

/-- There is one of them at most, and its interval is the one that `watcher.stop` clears. -/
structure Single (r : Watcher.Runtime) : Prop where
  one : launches r ≤ 1
  timer : ∀ t ∈ r.timers, r.refreshTimer = some t

theorem refreshed_timer (awaiting : List PaymentIntent) (d : Watcher.DepositWatcher) :
    (Watcher.refreshed chains awaiting d).1.refreshTimer = d.refreshTimer := by
  have hclient (s : Watcher.DepositWatcher × List Watcher.ClientCall) (client : ChainClient)
      (hs : s.1.refreshTimer = d.refreshTimer) :
      (Watcher.refreshClient awaiting s client).1.refreshTimer = d.refreshTimer := hs
  exact Runs.exec_inv' hclient rfl chains

theorem countP_eraseIdx {i : Nat} {x : Watcher.Activation} (hx : r.pending[i]? = some x) :
    (r.pending.eraseIdx i).countP starts + (if starts x then 1 else 0) = r.pending.countP starts := by
  obtain ⟨hi, rfl⟩ := List.getElem?_eq_some_iff.1 hx
  have hperm := (List.getElem_cons_eraseIdx_perm hi).countP_eq starts
  rwa [List.countP_cons] at hperm

theorem resumed_launches (i : Nat) (answer : Option (List PaymentIntent)) :
    launches (Watcher.resumed chains i answer r) ≤ launches r := by
  unfold launches Watcher.resumed
  split
  · exact le_refl _
  · rename_i hi
    have herase := countP_eraseIdx hi
    simp only [starts, if_true] at herase
    simp only [Watcher.startTimer, List.length_append, List.length_singleton]
    omega
  · rename_i hi
    have herase := countP_eraseIdx hi
    dsimp only
    omega
  · rename_i hi
    have herase := countP_eraseIdx hi
    simp only [Watcher.Runtime.perform]
    omega
  · rename_i hi
    have herase := countP_eraseIdx hi
    have hset := (List.set_perm_cons_eraseIdx (List.getElem?_eq_some_iff.1 hi).1
      Watcher.Activation.start).countP_eq starts
    rw [List.countP_cons] at hset
    simp only [starts, if_true] at herase hset
    simp only [Watcher.Runtime.perform]
    omega

theorem resumed_single (h : Single r) (i : Nat) (answer : Option (List PaymentIntent)) :
    Single (Watcher.resumed chains i answer r) := by
  refine ⟨(resumed_launches i answer).trans h.one, ?_⟩
  unfold Watcher.resumed
  split
  · exact h.timer
  · rename_i hi
    have herase := countP_eraseIdx hi
    have hone := h.one
    simp only [starts, if_true] at herase
    have htimers : r.timers = [] := List.eq_nil_of_length_eq_zero (by unfold launches at hone; omega)
    simp only [Watcher.startTimer, htimers, List.nil_append]
    intro t ht
    rw [List.mem_singleton.1 ht]
  · exact h.timer
  · exact fun t ht => (refreshed_timer _ _).trans (h.timer t ht)
  · exact fun t ht => (refreshed_timer _ _).trans (h.timer t ht)

theorem stop_timers (h : Single r) : (Watcher.stop r).timers = [] := by
  refine List.filter_eq_nil_iff.2 fun t ht => ?_
  simp [h.timer t ht]

/-- A refresh by which nothing is wanted, where nothing is tracked, subscribes to nothing. -/
theorem refreshed_nothing {awaiting : List PaymentIntent}
    (hnothing : ∀ client ∈ chains, Watcher.wanted awaiting client.chainId = []) {d : Watcher.DepositWatcher}
    (hidle : ∀ x, ¬ Watcher.Tracks d.subscriptions x) : (Watcher.refreshed chains awaiting d).2 = [] := by
  have hloop (s : Watcher.DepositWatcher × List Watcher.ClientCall) (hs : ∀ x, ¬ Watcher.Tracks s.1.subscriptions x) :
      (chains.foldl (Watcher.refreshClient awaiting) s).2 = s.2 := by
    induction chains generalizing s with
    | nil => rfl
    | cons client chains ih =>
      let current : Dict String Nat := (s.1.subscriptions.get? client.chainId).getD .empty
      have hrows : current.rows = [] :=
        List.eq_nil_iff_forall_not_mem.2 fun entry hentry => hs _ (Watcher.tracks_current.1 hentry)
      have hsame : Watcher.refreshClient awaiting s client =
          ({ s.1 with subscriptions := s.1.subscriptions.put (client.chainId, current) }, s.2) := by
        simp only [Watcher.refreshClient, Watcher.reconcile, hnothing client List.mem_cons_self, List.foldl_nil]
        rw [hrows]
        rfl
      rw [List.foldl_cons, ih (fun client' hclient => hnothing client' (List.mem_cons_of_mem _ hclient)), hsame]
      intro x hx
      rw [hsame] at hx
      rcases Watcher.tracks_put.1 hx with ⟨-, hin⟩ | ⟨-, hin⟩
      · rw [hrows] at hin
        exact absurd hin List.not_mem_nil
      · exact hs x hin
  exact hloop (d, []) hidle

end

/-! ## Runs -/

section
variable {config : WorkerConfig} {w : WorkerRuntime}

/-- What holds from the call of `stop` on. -/
structure Stopped (w : WorkerRuntime) : Prop where
  live : w.watcher.live = []
  timers : w.watcher.timers = []
  sweepTimer : w.sweepTimer = false
  loop : w.stopping ≠ some (.loop true) → ∀ l ∈ w.queueLoop, l = .ended
  done : w.stopping = some .poolClosed → w.watcher.pending = [] ∧ ∀ p ∈ w.pool.tasks, waits p = false

/-- What holds all the time. -/
structure Sound (w : WorkerRuntime) : Prop where
  keeps : Watcher.Keeps w.watcher.subscriptions w.watcher.nextId w.watcher.live
  single : Single w.watcher
  listening : w.starting = some .listening → launches w.watcher = 0
  stopped : w.stopping ≠ none → Stopped w

theorem Stopped.quiet (h : Stopped w) (hclosed : w.stopping = some .poolClosed) : Quiet w where
  subscriptions := h.live
  refreshTimer := h.timers
  sweepTimer := h.sweepTimer
  loop := h.loop (by rw [hclosed]; nofun)
  refreshes := (h.done hclosed).1
  tasks := (h.done hclosed).2

theorem start_keeps (h : Sound w) : Watcher.Keeps (Watcher.start w.watcher).subscriptions
    (Watcher.start w.watcher).nextId (Watcher.start w.watcher).live := by
  unfold Watcher.start
  split <;> exact h.keeps

theorem start_single (h : Sound w) (hlistening : w.starting = some .listening) : Single (Watcher.start w.watcher) := by
  have hzero := h.listening hlistening
  unfold Watcher.start
  split
  · exact h.single
  · refine ⟨?_, h.single.timer⟩
    unfold launches at hzero ⊢
    simp [starts]
    omega

theorem sound_listened (h : Sound w) {ok : Bool} (hok : ok = true → w.stopping ≠ some .poolClosed) :
    Sound (listened w ok) := by
  unfold listened
  split
  · rename_i hlistening
    cases ok with
    | false => exact ⟨h.keeps, h.single, nofun, fun hstop => ⟨(h.stopped hstop).live, (h.stopped hstop).timers,
        (h.stopped hstop).sweepTimer, (h.stopped hstop).loop, (h.stopped hstop).done⟩⟩
    | true =>
      refine ⟨start_keeps h, start_single h hlistening, nofun, fun hstop => ?_⟩
      have hstopped := h.stopped hstop
      refine ⟨?_, ?_, hstopped.sweepTimer, hstopped.loop, fun hclosed => absurd hclosed (hok rfl)⟩
      · simp only [if_true, Watcher.start]
        split <;> exact hstopped.live
      · simp only [if_true, Watcher.start]
        split <;> exact hstopped.timers
  · exact h

theorem sound_resumed (h : Sound w) {i : Nat} {answer : Option (List PaymentIntent)}
    (hc : Orderly config w (.resumed i answer)) : Sound (resumed config w i answer) := by
  refine ⟨Watcher.resumed_keeps h.keeps i answer, resumed_single h.single i answer, fun hlistening => ?_,
    fun hstop => ?_⟩
  · have hbefore : w.starting = some .listening := by
      simp only [resumed] at hlistening
      split at hlistening
      · cases hlistening
      · exact hlistening
    exact Nat.le_zero.1 ((resumed_launches i answer).trans (Nat.le_of_eq (h.listening hbefore)))
  · have hstopped := h.stopped hstop
    obtain ⟨hstart, hnothing⟩ := hc hstop
    have hidle : ∀ x, ¬ Watcher.Tracks w.watcher.subscriptions x := by
      intro x hx
      have hlive := (h.keeps.tracked x).2 hx
      rw [hstopped.live] at hlive
      exact absurd hlive List.not_mem_nil
    refine ⟨?_, ?_, hstopped.sweepTimer, hstopped.loop, fun hclosed => ?_⟩
    · simp only [resumed, Watcher.resumed]
      split
      · exact hstopped.live
      · exact hstopped.live
      · exact hstopped.live
      · simp only [Watcher.Runtime.perform, refreshed_nothing (hnothing _ rfl) hidle, List.foldl_nil, hstopped.live]
      · simp only [Watcher.Runtime.perform, refreshed_nothing (hnothing _ rfl) hidle, List.foldl_nil, hstopped.live]
    · simp only [resumed, Watcher.resumed]
      split
      · exact hstopped.timers
      · rename_i hi
        exact absurd hi hstart
      · exact hstopped.timers
      · exact hstopped.timers
      · exact hstopped.timers
    · obtain ⟨hpending, htasks⟩ := hstopped.done hclosed
      refine ⟨?_, htasks⟩
      simp only [resumed, Watcher.resumed, hpending, List.getElem?_nil]

theorem sound_stop (h : Sound w) : Sound (stop w) := by
  unfold stop
  split
  · refine ⟨Watcher.stop_keeps h.keeps, ⟨?_, by simp [stop_timers h.single]⟩, fun hlistening => ?_, fun _ => ?_⟩
    · have hone := h.single.one
      simp only [launches, stop_timers h.single, List.length_nil] at hone ⊢
      simp only [Watcher.stop, Watcher.Runtime.perform]
      omega
    · have hzero := h.listening hlistening
      simp only [launches, stop_timers h.single, List.length_nil] at hzero ⊢
      simp only [Watcher.stop, Watcher.Runtime.perform]
      omega
    · refine ⟨Watcher.stop_live h.keeps, stop_timers h.single, rfl, fun hloop l hl => ?_, fun h => by cases h⟩
      -- `stop` has found no loop
      have hsome : w.queueLoop.isSome = true := by
        rw [Option.mem_def.1 hl]
        rfl
      exact absurd (by rw [hsome]) hloop
  · exact h

/-- A step that leaves the watcher and the start alone. -/
theorem Sound.frame (h : Sound w) {w' : WorkerRuntime} (hwatcher : w'.watcher = w.watcher)
    (hstarting : w'.starting = w.starting) (hstopped : w'.stopping ≠ none → Stopped w') : Sound w' where
  keeps := by rw [hwatcher]; exact h.keeps
  single := by rw [hwatcher]; exact h.single
  listening := by rw [hwatcher, hstarting]; exact h.listening
  stopped := hstopped

theorem sound_ticked (h : Sound w) (timer : Nat) :
    Sound { w with watcher := Watcher.tick timer w.watcher } := by
  unfold Watcher.tick
  split
  · rename_i htimer
    have hone := h.single.one
    have hlen : 0 < w.watcher.timers.length := List.length_pos_of_mem htimer
    refine ⟨h.keeps, ⟨?_, h.single.timer⟩, fun hlistening => ?_, fun hstop => ?_⟩
    · simpa [launches, starts] using hone
    · simpa [launches, starts] using h.listening hlistening
    · rw [(h.stopped hstop).timers] at htimer
      exact absurd htimer List.not_mem_nil
  · exact h

/-- After `stop` nothing begins. -/
theorem sound_spawn (h : Sound w) (hnone : w.stopping = none) (p : Task Unit) : Sound (spawn w p) :=
  h.frame rfl rfl fun hstop => absurd hnone hstop

theorem sound_swept (h : Sound w) : Sound (swept config w) := by
  unfold swept
  split
  · rename_i htimer
    by_cases hstop : w.stopping = none
    · exact sound_spawn h hstop _
    · exact absurd ((h.stopped hstop).sweepTimer.symm.trans htimer) nofun
  · exact h

theorem sound_deposited (h : Sound w) (s : Watcher.Subscription) (event : DepositEvent) :
    Sound (deposited config w s event) := by
  unfold deposited
  split
  · rename_i hlive
    by_cases hstop : w.stopping = none
    · exact sound_spawn h hstop _
    · rw [(h.stopped hstop).live] at hlive
      exact absurd hlive List.not_mem_nil
  · exact h

theorem sound_called (h : Sound w) (i : Nat) (o : Jobs.Oracle worker) :
    Sound { w with pool := w.pool.next Jobs.handle (.step i o) } := by
  refine h.frame rfl rfl fun hstop => ?_
  have hstopped := h.stopped hstop
  refine ⟨hstopped.live, hstopped.timers, hstopped.sweepTimer, hstopped.loop, fun hclosed => ?_⟩
  obtain ⟨hpending, htasks⟩ := hstopped.done hclosed
  refine ⟨hpending, ?_⟩
  rcases w.pool.next_cases (h := Jobs.handle) (.step i o) with ⟨p, hc, -⟩ | ⟨j, o', a, k, -, hj, -⟩ | hnext
  · cases hc
  · exact absurd (htasks _ (List.mem_of_getElem? hj)) nofun
  · rw [hnext]
    exact htasks

theorem sound_turned (h : Sound w) (o : Jobs.Oracle worker) : Sound (turned w o) := by
  unfold turned
  split
  · rename_i a k hloop
    refine h.frame rfl rfl fun hstop => ?_
    have hstopped := h.stopped hstop
    refine ⟨hstopped.live, hstopped.timers, hstopped.sweepTimer, fun hawaited => ?_, hstopped.done⟩
    exact absurd (hstopped.loop hawaited _ hloop) nofun
  · exact h

theorem sound_woken (h : Sound w) : Sound (woken config w) := by
  unfold woken
  split
  · rename_i hloop
    refine h.frame rfl rfl fun hstop => ?_
    have hstopped := h.stopped hstop
    refine ⟨hstopped.live, hstopped.timers, hstopped.sweepTimer, fun hawaited => ?_, hstopped.done⟩
    exact absurd (hstopped.loop hawaited _ hloop) nofun
  · exact h

theorem sound_drained (h : Sound w) : Sound (drained w) := by
  unfold drained
  split
  · rename_i hstop hloop
    have hstopped := h.stopped (by rw [hstop]; nofun)
    refine h.frame rfl rfl fun _ => ⟨hstopped.live, hstopped.timers, hstopped.sweepTimer, fun _ l hl => ?_, nofun⟩
    exact Option.some.inj (hl.symm.trans hloop)
  · rename_i hstop
    have hstopped := h.stopped (by rw [hstop]; nofun)
    exact h.frame rfl rfl fun _ => ⟨hstopped.live, hstopped.timers, hstopped.sweepTimer,
      fun _ => hstopped.loop (by rw [hstop]; nofun), nofun⟩
  · exact h

theorem sound_healthClosed (h : Sound w) : Sound (healthClosed w) := by
  unfold healthClosed
  split
  · rename_i hstop
    have hstopped := h.stopped (by rw [hstop]; nofun)
    exact h.frame rfl rfl fun _ => ⟨hstopped.live, hstopped.timers, hstopped.sweepTimer,
      fun _ => hstopped.loop (by rw [hstop]; nofun), nofun⟩
  · exact h

theorem sound_closePool (h : Sound w) (hc : Orderly config w .closePool) : Sound (closePool w) := by
  unfold closePool
  split
  · rename_i hstop
    have hstopped := h.stopped (by rw [hstop]; nofun)
    exact h.frame rfl rfl fun _ => ⟨hstopped.live, hstopped.timers, hstopped.sweepTimer,
      fun _ => hstopped.loop (by rw [hstop]; nofun), fun _ => hc hstop⟩
  · exact h

theorem sound_step (h : Sound w) (x : Step) (hc : Orderly config w x) : Sound (step config w x) := by
  cases x with
  | listened ok => exact sound_listened h hc
  | resumed i answer => exact sound_resumed h hc
  | ticked timer => exact sound_ticked h timer
  | watched =>
    have hnone : w.stopping = none := hc
    simp only [step, watched]
    split
    · exact ⟨h.keeps, h.single, nofun, fun hstop => absurd hnone hstop⟩
    · exact h
  | swept => exact sound_swept h
  | deposited s event => exact sound_deposited h s event
  | called i o => exact sound_called h i o
  | turned o => exact sound_turned h o
  | woken => exact sound_woken h
  | stop => exact sound_stop h
  | drained => exact sound_drained h
  | healthClosed => exact sound_healthClosed h
  | closePool => exact sound_closePool h hc

end

/-- **Nothing outlives a shutdown**: in every run whose steps are `Orderly`, from the moment `start` is called, once
`stop` has resolved and the pool has been closed, nothing of the worker is live or under way. -/
theorem closed_quiet (config : WorkerConfig) (db : Jobs.Db worker) (xs : List Step)
    (hxs : Runs.Along (step config) (Orderly config) { pool := ⟨db, []⟩ } xs) :
    let w := Runs.exec (step config) { pool := ⟨db, []⟩ } xs
    w.stopping = some .poolClosed → Quiet w := by
  intro w hclosed
  have hstart : Sound { pool := ⟨db, []⟩ } :=
    ⟨Watcher.fresh_keeps, ⟨Nat.zero_le _, nofun⟩, fun _ => rfl, fun hstop => absurd rfl hstop⟩
  have hw : Sound w := Runs.exec_inv (fun w x hw hx => sound_step hw x hx) hstart hxs
  exact (hw.stopped (by rw [hclosed]; nofun)).quiet hclosed

/-- A statement is answered. -/
def answer : Jobs.Oracle worker := { outer := {}, uuid := "job" }

/-- The worker starts, hears of a deposit, sweeps, polls, and is stopped while its loop sleeps. -/
def served : List Step :=
  [.listened true, .resumed 0 (some [Watcher.quoted "pi" "ethereum" "0xdeposit"]), .resumed 0 none, .watched,
   .deposited ⟨"ethereum", "0xdeposit", 0⟩ transfer, .called 0 answer, .called 0 answer, .swept, .called 1 answer,
   .turned answer, .turned answer, .stop, .woken, .drained, .healthClosed, .closePool]

/-- The rule in that run. -/
theorem closed_quiet_served :
    let w := Runs.exec (step config) { pool := ⟨.fresh 0 { intents := Intent.quotedDb }, []⟩ } served
    w.stopping = some .poolClosed ∧ Quiet w := by
  have hclosed : (Runs.exec (step config) { pool := ⟨.fresh 0 { intents := Intent.quotedDb }, []⟩ } served).stopping =
    some .poolClosed := by decide +kernel
  exact ⟨hclosed, closed_quiet config (.fresh 0 { intents := Intent.quotedDb }) served (by decide +kernel) hclosed⟩

/-- `stop` is called while the first refresh waits, and `start` goes on. -/
def stoppedEarly : List Step :=
  [.listened true, .stop, .resumed 0 (some [Watcher.quoted "pi" "ethereum" "0xdeposit"]), .drained, .healthClosed,
   .resumed 0 none, .watched, .closePool]

/-- The pool is closed under a subscription, both intervals and a queue loop that is to make its first statement. -/
theorem worker_outlives_shutdown :
    let w := Runs.exec (step config) { pool := ⟨.fresh 0 { intents := Intent.quotedDb }, []⟩ } stoppedEarly
    w.stopping = some .poolClosed ∧ w.watcher.live = [⟨"ethereum", "0xdeposit", 0⟩] ∧ w.watcher.timers = [0] ∧
      w.sweepTimer = true ∧ ∃ p, w.queueLoop = some (.cycle p) ∧ waits p = true := by
  refine ⟨by decide +kernel, by decide +kernel, by decide +kernel, by decide +kernel, cycle config, rfl, rfl⟩

end NexoraGateway.Worker.Shutdown
