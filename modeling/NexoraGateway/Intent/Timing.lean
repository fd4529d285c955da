import NexoraGateway.Intent.Repeats
import NexoraGateway.Intent.Replay

/-!
# When a queued deposit is executed (service.ts:188-302, job-queue.ts:204-323)

The worker may attempt the `deposit.record` job of a transfer any number of times: after a poll, after a backoff
because the last attempt failed, or after a reclaim because the last worker died. Nothing in the job says when the
transfer was observed; each attempt compares the expiry of the quote with its own clock.

* `attempts_run` — how the attempts end when they all see the quote on the same side of its expiry.
* `recordDeposit_timing_iff` — the times of the attempts do not matter exactly when they are all on one side.
-/
namespace NexoraGateway.Intent

open Async Store

variable {ω : Nat → Oracle} {ωs : List (Nat → Oracle)} {db : Db} {row : PaymentIntent} {id : Id} {x : Transfer}
variable {now : Time} {nows : List Time} {event : EventType}

/-- Attempts at the job of one transfer. An attempt that was cut short is one whose later calls are rejected. -/
def attempts (id : Id) (x : Transfer) (db : Db) (ωs : List (Nat → Oracle)) : Db :=
  recordDeposits id db (ωs.map fun ω => (x, ω))

/-- Attempt by attempt, the time that the expiry of the quote is compared with. -/
def CheckedAt (id : Id) (x : Transfer) : Db → List (Nat → Oracle) → List Time → Prop
  | _, [], [] => True
  | db, ω :: ωs, now :: nows =>
    (∀ row, db.intents.find? id = some row → (ω (expiryCheck row 0)).now = now) ∧
      CheckedAt id x (attempts id x db [ω]) ωs nows
  | _, _, _ => False

/-- Some attempt is not cut short. -/
def Executed (ωs : List (Nat → Oracle)) : Prop := ∃ ω ∈ ωs, ¬ Faulty ω

theorem attempts_cons (id : Id) (x : Transfer) (db : Db) (ω : Nat → Oracle) (ωs : List (Nat → Oracle)) :
    attempts id x db (ω :: ωs) = attempts id x (attempts id x db [ω]) ωs := rfl

/-! ## One attempt -/

/-- The states in which a deposit can move the intent. -/
def Undecided (row : PaymentIntent) : Prop := row.state = .quoted ∨ row.state = .awaitingPayment

theorem Undecided.accepts (h : Undecided row) : acceptsDeposit.contains row.state = true := by
  rcases h with h | h <;> rw [h] <;> rfl

theorem Undecided.detection (h : Undecided row) : detectionState row = .awaitingPayment := by
  unfold detectionState
  rcases h with h | h <;> simp [h]

/-- The event of hopping out of `QUOTED`, as logged. -/
def hops (row : PaymentIntent) : List (Nat × EventType) :=
  if row.state = .quoted then [(row.version + 1, .paymentAwaited)] else []

theorem logOf_record {t : Tables} (o : Oracle) (eventType : EventType) (payload : Payload)
    (hrow : t.intents.find? id = some row) :
    (t.record o row eventType payload).logOf id = t.logOf id ++ [(row.version + 1, eventType)] := by
  obtain ⟨-, hid⟩ := Table.find?_eq_some.1 hrow
  rw [Tables.record, logOf_append, if_pos hid]

theorem Hop.log {t t₁ : Tables} {row₁ : PaymentIntent} (h : Hop t row t₁ row₁)
    (hrow : t.intents.find? id = some row) :
    t₁.logOf id = t.logOf id ++ hops row ∧ row₁.version = row.version + (hops row).length := by
  cases h with
  | stay hstate => simp [hops, hstate]
  | awaited hstate => exact ⟨by rw [logOf_record _ _ _ hrow, hops, if_pos hstate], by simp [hops, hstate]⟩

/-- An attempt is cut short before it moves the intent, or hops and then records its event if there is an edge. -/
theorem attempt_cases (hrow : db.intents.find? id = some row) (hundecided : Undecided row)
    (hnow : (ω (expiryCheck row 0)).now = now) :
    let event := depositEvent row now x.amount
    let t := (attempts id x db [ω]).toTables
    (Faulty ω ∧ t = db.toTables) ∨ ∃ t₁ row₁, Hop db.toTables row t₁ row₁ ∧
      ((t = t₁ ∧ (Valid .awaitingPayment (getExpectedNextState event) → Faulty ω)) ∨
        Valid .awaitingPayment (getExpectedNextState event) ∧
          ∃ o payload, t = t₁.record o row₁ event payload) := by
  intro event t
  have hrun :=
    @recordDeposit_run ω 0 db row id x.txHash x.sourceChain x.sourceAsset x.amount hrow hundecided.accepts
  rcases hrun with ⟨e, hfault, -, -, htables⟩ | ⟨t₁, row₁, hhop, hatt⟩
  · exact .inl ⟨hfault, htables⟩
  · refine .inr ⟨t₁, row₁, hhop, ?_⟩
    rw [hnow] at hatt
    have hstate₁ : row₁.state = .awaitingPayment := (hhop.facts hrow).2.1.trans hundecided.detection
    rw [← hstate₁]
    rcases hatt.inv with ⟨e, hfault, -, -, htables⟩ | ⟨hedge, -, htables⟩ | ⟨hedge, -, o, payload, -, htables⟩
    · exact .inl ⟨htables, fun _ => hfault⟩
    · exact .inl ⟨htables, fun h => absurd h hedge⟩
    · exact .inr ⟨hedge, o, payload, htables⟩

/-- An intent whose state a deposit cannot move is left alone. -/
theorem attempt_decided (hrow : db.intents.find? id = some row) (hdecided : ¬ Undecided row)
    (ω : Nat → Oracle) :
    (attempts id x db [ω]).toTables = db.toTables := by
  cases hacc : acceptsDeposit.contains row.state with
  | false =>
    refine congrArg Db.toTables (recordDeposit_ignored fun row' hrow' => ?_)
    rwa [← Option.some.inj (hrow.symm.trans hrow')]
  | true =>
    have hunder : row.state = .underpaid := by
      unfold Undecided at hdecided
      revert hacc hdecided
      cases row.state <;> simp [acceptsDeposit]
    have hrun := @recordDeposit_run ω 0 db row id x.txHash x.sourceChain x.sourceAsset x.amount hrow hacc
    rcases hrun with ⟨e, -, -, -, htables⟩ | ⟨t₁, row₁, hhop, hatt⟩
    · exact htables
    · obtain rfl : t₁ = db.toTables := by
        cases hhop with
        | stay => rfl
        | awaited hstate => exact absurd (.inl hstate) hdecided
      rcases hatt.inv with ⟨e, -, -, -, htables⟩ | ⟨-, -, htables⟩ | ⟨hedge, -⟩
      · exact htables
      · exact htables
      · rw [(hhop.facts hrow).2.1] at hedge
        exact absurd hunder ((valid_depositEvent_iff hacc _ _).1 hedge).1

theorem attempts_decided (hrow : db.intents.find? id = some row) (hdecided : ¬ Undecided row)
    (ωs : List (Nat → Oracle)) : (attempts id x db ωs).toTables = db.toTables := by
  induction ωs generalizing db with
  | nil => rfl
  | cons ω ωs ih =>
    have hstep : (attempts id x db [ω]).toTables = db.toTables := attempt_decided hrow hdecided ω
    have hrow' : (attempts id x db [ω]).intents.find? id = some row := by rw [hstep]; exact hrow
    rw [attempts_cons, ih hrow', hstep]

/-! ## All attempts -/

/-- Where attempts that would all record `event` leave an undecided intent. -/
def decidedState (event : EventType) : IntentState :=
  if Valid .awaitingPayment (getExpectedNextState event) then getExpectedNextState event else .awaitingPayment

/-- What they add to its log. -/
def decidedLog (row : PaymentIntent) (event : EventType) : List (Nat × EventType) :=
  hops row ++
    if Valid .awaitingPayment (getExpectedNextState event) then
      [(row.version + (hops row).length + 1, event)]
    else []

theorem hops_awaiting (h : row.state = .awaitingPayment) : hops row = [] := by simp [hops, h]

/-- The intent waits for a payment, and the event is none that it accepts. -/
def Stuck (row : PaymentIntent) (event : EventType) : Prop :=
  row.state = .awaitingPayment ∧ ¬ Valid .awaitingPayment (getExpectedNextState event)

/-- One attempt leaves the intent undecided, with what is then missing in its log, or decides it. -/
theorem attempt_run (hrow : db.intents.find? id = some row) (hundecided : Undecided row)
    (hnow : (ω (expiryCheck row 0)).now = now) (hevent : depositEvent row now x.amount = event) :
    ∃ row', (attempts id x db [ω]).intents.find? id = some row' ∧
      ((Undecided row' ∧ (∀ now, depositEvent row' now x.amount = depositEvent row now x.amount) ∧
        (attempts id x db [ω]).logOf id ++ decidedLog row' event = db.logOf id ++ decidedLog row event ∧
        (¬ Faulty ω ∨ Stuck row event → Stuck row' event)) ∨
      (¬ Undecided row' ∧ row'.state = decidedState event ∧
        (attempts id x db [ω]).logOf id = db.logOf id ++ decidedLog row event)) := by
  have hcases := attempt_cases (x := x) hrow hundecided hnow
  rw [hevent] at hcases
  rcases hcases with ⟨hfault, htables⟩ | ⟨t₁, row₁, hhop, hcases⟩
  · rw [htables]
    exact ⟨row, hrow, .inl ⟨hundecided, fun _ => rfl, rfl, fun h => h.resolve_left (not_not_intro hfault)⟩⟩
  · obtain ⟨hrow₁, hstate₁, htarget, hexpires⟩ := hhop.facts hrow
    obtain ⟨hlog₁, hversion₁⟩ := hhop.log hrow
    rw [hundecided.detection] at hstate₁
    rcases hcases with ⟨htables, hfault⟩ | ⟨hedge, o, payload, htables⟩
    · rw [htables]
      refine ⟨row₁, hrow₁, .inl ⟨.inr hstate₁, fun now => ?_, ?_, fun h => ⟨hstate₁, fun hedge => ?_⟩⟩⟩
      · simp only [depositEvent, hexpires, htarget]
      · rw [hlog₁, decidedLog, hops_awaiting hstate₁, hversion₁, decidedLog]
        simp
      · rcases h with hhealthy | hstuck
        · exact hhealthy (hfault hedge)
        · exact hstuck.2 hedge
    · rw [htables]
      refine ⟨_, Tables.find?_recorded o event payload hrow₁, .inr ⟨fun h => ?_, ?_, ?_⟩⟩
      · have hacc := h.accepts
        rw [advance_state, awaiting_edge hedge] at hacc
        cases hacc
      · rw [advance_state, decidedState, if_pos hedge]
      · rw [logOf_record o event payload hrow₁, hlog₁, hversion₁]
        simp [decidedLog, hedge]

/-- **How attempts that agree on the event end**: as if the executed one had been the only one. -/
theorem attempts_run (hrow : db.intents.find? id = some row) (hundecided : Undecided row)
    (hevent : ∀ now ∈ nows, depositEvent row now x.amount = event) (hchecked : CheckedAt id x db ωs nows)
    (hexec : Executed ωs ∨ Stuck row event) :
    stateOf (attempts id x db ωs) id = some (decidedState event) ∧
      (attempts id x db ωs).logOf id = db.logOf id ++ decidedLog row event := by
  induction ωs generalizing db row nows with
  | nil =>
    obtain ⟨hstate, hedge⟩ := hexec.resolve_left fun ⟨_, hmem, _⟩ => absurd hmem List.not_mem_nil
    have hdb : attempts id x db [] = db := rfl
    rw [hdb, stateOf, hrow]
    simp [decidedState, decidedLog, hops_awaiting hstate, hedge, hstate]
  | cons ω ωs ih =>
    cases nows with
    | nil => exact hchecked.elim
    | cons now nows =>
      obtain ⟨hnow, hrest⟩ := hchecked
      have hlater : ∀ now' ∈ nows, depositEvent row now' x.amount = event :=
        fun now' hmem => hevent now' (List.mem_cons_of_mem _ hmem)
      rw [attempts_cons]
      obtain ⟨row', hrow', ⟨hundecided', hsame, hlog, hstuck⟩ | ⟨hdecided, hstate, hlog⟩⟩ :=
        attempt_run hrow hundecided (hnow row hrow) (hevent now List.mem_cons_self)
      · have hexec' : Executed ωs ∨ Stuck row' event := by
          rcases hexec with ⟨ω', hmem, hhealthy⟩ | h
          · rcases List.mem_cons.1 hmem with rfl | hmem
            · exact .inr (hstuck (.inl hhealthy))
            · exact .inl ⟨ω', hmem, hhealthy⟩
          · exact .inr (hstuck (.inr h))
        obtain ⟨hstate, hlog'⟩ := ih hrow' hundecided'
          (fun now' hmem => (hsame now').trans (hlater now' hmem)) hrest hexec'
        exact ⟨hstate, hlog'.trans hlog⟩
      · -- the intent has moved on, and the later attempts find nothing to do
        rw [stateOf, attempts_decided hrow' hdecided ωs, hrow']
        exact ⟨congrArg some hstate, hlog⟩

/-! ## Which times matter -/

/-- An attempt that does not reach the database. -/
def rejected (now : Time) : Nat → Oracle := fun _ => { now, fault := some .query }

theorem attempt_rejected (id : Id) (x : Transfer) (db : Db) (now : Time) :
    attempts id x db [rejected now] = db := by
  change ((recordDeposit id x.txHash x.amount x.sourceChain x.sourceAsset).run handle (rejected now) 0 db).2.2 = db
  simp only [recordDeposit, Prog.bind_def, run_bind_findById, findById, query_pure, rejected, if_true]
  rfl

theorem attempts_rejected (id : Id) (x : Transfer) (db : Db) (nows : List Time) :
    attempts id x db (nows.map rejected) = db ∧ CheckedAt id x db (nows.map rejected) nows := by
  induction nows with
  | nil => exact ⟨rfl, trivial⟩
  | cons now nows ih =>
    rw [List.map_cons, attempts_cons, attempt_rejected]
    refine ⟨ih.1, fun _ _ => rfl, ?_⟩
    rw [attempt_rejected]
    exact ih.2

/-- Any attempt may be the one that is executed. -/
theorem executed_at (hrow : db.intents.find? id = some row) (hundecided : Undecided row) (hmem : now ∈ nows) :
    ∃ ωs, CheckedAt id x db ωs nows ∧ Executed ωs ∧
      stateOf (attempts id x db ωs) id = some (decidedState (depositEvent row now x.amount)) := by
  have hhealthy : ¬ Faulty (calm now) := fun ⟨_, hk⟩ => hk rfl
  induction nows with
  | nil => cases hmem
  | cons first nows ih =>
    rcases List.mem_cons.1 hmem with rfl | hmem
    · obtain ⟨hsame, hchecked⟩ := attempts_rejected id x (attempts id x db [calm now]) nows
      refine ⟨calm now :: nows.map rejected, ⟨fun _ _ => rfl, hchecked⟩, ⟨_, List.mem_cons_self, hhealthy⟩, ?_⟩
      have hone : CheckedAt id x db [calm now] [now] := ⟨fun _ _ => rfl, trivial⟩
      rw [attempts_cons, hsame]
      exact (attempts_run hrow hundecided (fun now' h => by rw [List.mem_singleton.1 h]) hone
        (.inl ⟨_, List.mem_singleton_self _, hhealthy⟩)).1
    · obtain ⟨ωs, hchecked, ⟨ω, hω, hdone⟩, hstate⟩ := ih hmem
      refine ⟨rejected first :: ωs, ⟨fun _ _ => rfl, ?_⟩, ⟨ω, List.mem_cons_of_mem _ hω, hdone⟩, ?_⟩
      · rwa [attempt_rejected]
      · rwa [attempts_cons, attempt_rejected]

/-- The state tells whether the transfer was taken for late. -/
theorem decidedState_expired (row : PaymentIntent) (now : Time) (amount : ℚ) :
    decidedState (depositEvent row now amount) = .expired ↔ QuoteExpired row now := by
  rcases depositEvent_cases row now amount with ⟨hx, he⟩ | ⟨hx, he⟩ <;> rw [he]
  · exact iff_of_true (by decide) hx
  · refine iff_of_false (fun h => ?_) hx
    revert h
    unfold classify
    split
    · decide
    · split <;> decide

/-- Runs that end alike whichever attempt is executed see the quote on one side of its expiry. -/
theorem checks_agree (hrow : db.intents.find? id = some row) (hundecided : Undecided row)
    {nows₁ nows₂ : List Time}
    (hsame : ∀ ωs₁ ωs₂, CheckedAt id x db ωs₁ nows₁ → CheckedAt id x db ωs₂ nows₂ → Executed ωs₁ → Executed ωs₂ →
      stateOf (attempts id x db ωs₁) id = stateOf (attempts id x db ωs₂) id) :
    ∀ now₁ ∈ nows₁, ∀ now₂ ∈ nows₂, QuoteExpired row now₁ ↔ QuoteExpired row now₂ := by
  intro now₁ hnow₁ now₂ hnow₂
  obtain ⟨ωs₁, hchecked₁, hexec₁, hstate₁⟩ := executed_at (x := x) hrow hundecided hnow₁
  obtain ⟨ωs₂, hchecked₂, hexec₂, hstate₂⟩ := executed_at (x := x) hrow hundecided hnow₂
  have hstate := hsame ωs₁ ωs₂ hchecked₁ hchecked₂ hexec₁ hexec₂
  rw [hstate₁, hstate₂] at hstate
  rw [← decidedState_expired row now₁ x.amount, ← decidedState_expired row now₂ x.amount,
    Option.some.inj hstate]

/-- Checks on one side of the expiry give one event. -/
theorem one_event (hside : (∀ now ∈ nows, QuoteExpired row now) ∨ ∀ now ∈ nows, ¬ QuoteExpired row now)
    (amount : ℚ) :
    ∃ event, ∀ now ∈ nows, depositEvent row now amount = event := by
  rcases hside with hlate | hearly
  · refine ⟨.quoteExpired, fun now hnow => ?_⟩
    exact ((depositEvent_cases row now amount).resolve_right fun h => h.1 (hlate now hnow)).2
  · refine ⟨classify row.targetAmount amount, fun now hnow => ?_⟩
    exact ((depositEvent_cases row now amount).resolve_left fun h => hearly now hnow h.1).2

/-- **The outcome of a deposit depends on when its job is attempted** unless every attempt sees the quote on
the same side of its expiry, or the intent is past the deposit. -/
theorem recordDeposit_timing_iff (hrow : db.intents.find? id = some row) (x : Transfer)
    {nows₁ nows₂ : List Time} (h₁ : nows₁ ≠ []) (h₂ : nows₂ ≠ []) :
    (∀ ωs₁ ωs₂, CheckedAt id x db ωs₁ nows₁ → CheckedAt id x db ωs₂ nows₂ → Executed ωs₁ → Executed ωs₂ →
      stateOf (attempts id x db ωs₁) id = stateOf (attempts id x db ωs₂) id ∧
        (attempts id x db ωs₁).logOf id = (attempts id x db ωs₂).logOf id) ↔
    ¬ Undecided row ∨ (∀ now ∈ nows₁ ++ nows₂, QuoteExpired row now) ∨
      ∀ now ∈ nows₁ ++ nows₂, ¬ QuoteExpired row now := by
  constructor
  · intro h
    by_cases hundecided : Undecided row
    swap
    · exact .inl hundecided
    right
    have hagree := checks_agree hrow hundecided fun ωs₁ ωs₂ hchecked₁ hchecked₂ hexec₁ hexec₂ =>
      (h ωs₁ ωs₂ hchecked₁ hchecked₂ hexec₁ hexec₂).1
    obtain ⟨first₁, hfirst₁⟩ := List.exists_mem_of_ne_nil nows₁ h₁
    obtain ⟨first₂, hfirst₂⟩ := List.exists_mem_of_ne_nil nows₂ h₂
    have hall : ∀ now ∈ nows₁ ++ nows₂, QuoteExpired row now ↔ QuoteExpired row first₂ := by
      intro now hnow
      rcases List.mem_append.1 hnow with hnow | hnow
      · exact hagree now hnow first₂ hfirst₂
      · exact (hagree first₁ hfirst₁ now hnow).symm.trans (hagree first₁ hfirst₁ first₂ hfirst₂)
    by_cases hx : QuoteExpired row first₂
    · exact .inl fun now hnow => (hall now hnow).2 hx
    · exact .inr fun now hnow h => hx ((hall now hnow).1 h)
  · intro hcond ωs₁ ωs₂ hchecked₁ hchecked₂ hexec₁ hexec₂
    by_cases hundecided : Undecided row
    swap
    · have htables₁ := attempts_decided (x := x) hrow hundecided ωs₁
      have htables₂ := attempts_decided (x := x) hrow hundecided ωs₂
      rw [stateOf, stateOf, htables₁, htables₂]
      exact ⟨rfl, rfl⟩
    obtain ⟨event, hevent⟩ := one_event (hcond.resolve_left fun h => h hundecided) x.amount
    obtain ⟨hstate₁, hlog₁⟩ := attempts_run hrow hundecided
      (fun now h => hevent now (List.mem_append_left _ h)) hchecked₁ (.inl hexec₁)
    obtain ⟨hstate₂, hlog₂⟩ := attempts_run hrow hundecided
      (fun now h => hevent now (List.mem_append_right _ h)) hchecked₂ (.inl hexec₂)
    exact ⟨hstate₁.trans hstate₂.symm, hlog₁.trans hlog₂.symm⟩

/-- The transfer of the whole price. -/
def payment : Transfer := ⟨"0xa", 100, "ethereum", "USDC"⟩

/-- The rule at `pi`, whose quote expires at 300001: one run attempts the payment at 2, the other at 3 and 4. -/
theorem recordDeposit_timing_quoted :
    (∀ ωs₁ ωs₂, CheckedAt "pi" payment quotedDb ωs₁ [2] → CheckedAt "pi" payment quotedDb ωs₂ [3, 4] →
      Executed ωs₁ → Executed ωs₂ →
      stateOf (attempts "pi" payment quotedDb ωs₁) "pi" = stateOf (attempts "pi" payment quotedDb ωs₂) "pi" ∧
        (attempts "pi" payment quotedDb ωs₁).logOf "pi" = (attempts "pi" payment quotedDb ωs₂).logOf "pi") ↔
    ¬ Undecided quotedRow ∨ (∀ now ∈ [2, 3, 4], QuoteExpired quotedRow now) ∨
      ∀ now ∈ [2, 3, 4], ¬ QuoteExpired quotedRow now :=
  recordDeposit_timing_iff quotedDb_row payment (by decide) (by decide)

/-- The payment observed at 2 is detected by a worker that runs at 2 and late for one that runs at 300002. -/
theorem recordDeposit_backlog_expires :
    CheckedAt "pi" payment quotedDb [calm 2] [2] ∧ CheckedAt "pi" payment quotedDb [calm 300002] [300002] ∧
    stateOf (attempts "pi" payment quotedDb [calm 2]) "pi" = some .detected ∧
    stateOf (attempts "pi" payment quotedDb [calm 300002]) "pi" = some .expired ∧
    (attempts "pi" payment quotedDb [calm 2]).logOf "pi" =
      quotedDb.logOf "pi" ++ [(3, .paymentAwaited), (4, .depositDetected)] ∧
    (attempts "pi" payment quotedDb [calm 300002]).logOf "pi" =
      quotedDb.logOf "pi" ++ [(3, .paymentAwaited), (4, .quoteExpired)] :=
  ⟨⟨fun _ _ => rfl, trivial⟩, ⟨fun _ _ => rfl, trivial⟩, by decide +kernel, by decide +kernel, by decide +kernel,
    by decide +kernel⟩

end NexoraGateway.Intent
