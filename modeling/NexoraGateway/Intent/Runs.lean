import NexoraGateway.Intent.Service

/-!
# Recording a deposit, run alone

`recordDeposit_run` says how a `recordDeposit` for an intent that accepts deposits can end, whatever
the clock, the database and the webhooks do: a call is rejected from outside before anything is
recorded, or the intent is first moved out of `QUOTED` (`Hop`) and then one event is attempted
(`Attempt`), `QUOTE_EXPIRED` or the classification of the amount.
-/
namespace NexoraGateway.Intent

open Async Store
open Ecma (Double)

variable {ω : Nat → Oracle} {n : Nat} {db : Db} {row : PaymentIntent}

section
variable {α : Type} (ω : Nat → Oracle) (n : Nat) (db : Db)

theorem run_bind_now (f : Time → Task α) :
    (Task.now.bind f).run handle ω n db = (f (ω n).now).run handle ω (n + 1) db := rfl

theorem run_bind_findById (id : Id) (f : Option PaymentIntent → Task α) :
    ((Task.findById id).bind f).run handle ω n db =
      ((Prog.ofExcept (findById (ω n) id db).1).bind f).run handle ω (n + 1) (findById (ω n) id db).2 := rfl

theorem run_bind_transition (id : Id) (eventType : EventType) (payload : Payload)
    (f : PaymentIntent → Task α) :
    ((Task.transition id eventType payload).bind f).run handle ω n db =
      ((Prog.ofExcept (transition (ω n) id eventType payload db).1).bind f).run handle ω (n + 1)
        (transition (ω n) id eventType payload db).2 := rfl

theorem run_transition (id : Id) (eventType : EventType) (payload : Payload) :
    (Task.transition id eventType payload).run handle ω n db =
      ((transition (ω n) id eventType payload db).1, n + 1, (transition (ω n) id eventType payload db).2) :=
  Prog.run_await ..

end

/-- Some call is answered with a rejection by the database. -/
def Faulty (ω : Nat → Oracle) : Prop := ∃ k, (ω k).fault ≠ none

/-- The event that an amount is classified as. -/
def classify (targetAmount amount : ℚ) : EventType :=
  if Double.ofRat amount < .ofRat targetAmount * (1 - tolerance) then .underpaymentDetected
  else if Double.ofRat amount > .ofRat targetAmount * (1 + tolerance) then .overpaymentDetected
  else .depositDetected

/-- How attempting to record one event for `row` ends, with a payload satisfying `good`. -/
inductive Attempt (ω : Nat → Oracle) (t : Tables) (row : PaymentIntent) (eventType : EventType)
    (good : Payload → Prop) : Except IntentError PaymentIntent → Tables → Prop
  | failed {e : IntentError} (hfault : Faulty ω) (he : e.External) :
      Attempt ω t row eventType good (.error e) t
  | refused (hedge : ¬ Valid row.state (getExpectedNextState eventType)) :
      Attempt ω t row eventType good
        (.error (.invalidTransition row.state (getExpectedNextState eventType))) t
  | recorded {o : Oracle} {payload : Payload} {out : Except IntentError PaymentIntent}
      (hedge : Valid row.state (getExpectedNextState eventType)) (hgood : good payload)
      (hout : ∀ e, out = .error e → e.External) :
      Attempt ω t row eventType good out (t.record o row eventType payload)

theorem Attempt.inv {t t' : Tables} {eventType : EventType} {good : Payload → Prop}
    {out : Except IntentError PaymentIntent} (h : Attempt ω t row eventType good out t') :
    (∃ e, Faulty ω ∧ e.External ∧ out = .error e ∧ t' = t) ∨
    (¬ Valid row.state (getExpectedNextState eventType) ∧
      out = .error (.invalidTransition row.state (getExpectedNextState eventType)) ∧ t' = t) ∨
    (Valid row.state (getExpectedNextState eventType) ∧ (∀ e, out = .error e → e.External) ∧
      ∃ o payload, good payload ∧ t' = t.record o row eventType payload) := by
  cases h with
  | failed hfault he => exact .inl ⟨_, hfault, he, rfl, rfl⟩
  | refused hedge => exact .inr (.inl ⟨hedge, rfl, rfl⟩)
  | recorded hedge hgood hout => exact .inr (.inr ⟨hedge, hout, _, _, hgood, rfl⟩)

theorem findById_eq (o : Oracle) (id : Id) (db : Db) :
    findById o id db = (.ok ((db.intents.find? id).map mapRow), db) ∨
      o.fault ≠ none ∧ findById o id db = (.error (.database .query), db) := by
  rw [findById, query_pure]
  by_cases h : o.fault = some .query
  · exact .inr ⟨by simp [h], if_pos h⟩
  · exact .inl (if_neg h)

theorem transitionAndNotify_run {good : Payload → Prop} {id : Id} {eventType : EventType}
    {payload : Payload} (data : Payload) (hrow : db.intents.find? id = some row) (hgood : good payload) :
    Attempt ω db.toTables row eventType good
      ((transitionAndNotify id eventType payload data).run handle ω n db).1
      ((transitionAndNotify id eventType payload data).run handle ω n db).2.2.toTables := by
  simp only [transitionAndNotify, Prog.bind_def, run_bind_transition]
  rcases transition_cases (ω n) eventType payload hrow with
    ⟨s, hs, h⟩ | ⟨hedge, h⟩ | ⟨hedge, h⟩
  · rw [h]
    exact .failed ⟨n, by simp [hs]⟩ trivial
  · rw [h]
    exact .refused hedge
  · obtain ⟨herr, htables⟩ := run_keepsIntents (deliverWebhook_only (fun _ => trivial)
      (mapRow (advance (ω n) (mapRow row) (getExpectedNextState eventType) row)) eventType data) ω (n + 1)
      { db with toTables := db.toTables.record (ω n) row eventType payload }
    simp only [h, Prog.ofExcept_ok, Prog.ret_bind, Prog.run_bind]
    split
    · rename_i x m t hrun
      rw [hrun] at htables
      simp only [Prog.pure_def, Prog.run_ret]
      rw [htables]
      exact .recorded hedge hgood nofun
    · rename_i e m t hrun
      rw [hrun] at herr htables
      dsimp only
      rw [htables]
      exact .recorded hedge hgood fun e' h => herr e' (congrArg _ (Except.error.inj h))

/-- An event other than the expiry says which transfer it is about. -/
def NamesTransfer (eventType : EventType) (txHash sourceChain sourceAsset : String)
    (payload : Payload) : Prop :=
  eventType ≠ .quoteExpired →
    payload.get? "tx_hash" = some (.str txHash) ∧ payload.get? "source_chain" = some (.str sourceChain) ∧
      payload.get? "source_asset" = some (.str sourceAsset)

variable {id : Id} {txHash sourceChain sourceAsset : String} {amount : ℚ}

theorem classifyDeposit_run {intent : PaymentIntent} (hrow : db.intents.find? id = some row)
    (htarget : intent.targetAmount = row.targetAmount) :
    Attempt ω db.toTables row (classify row.targetAmount amount)
      (NamesTransfer (classify row.targetAmount amount) txHash sourceChain sourceAsset)
      ((classifyDeposit intent id txHash amount sourceChain sourceAsset).run handle ω n db).1
      ((classifyDeposit intent id txHash amount sourceChain sourceAsset).run handle ω n db).2.2.toTables := by
  unfold classifyDeposit classify
  rw [htarget]
  dsimp only
  split
  · exact transitionAndNotify_run _ hrow fun _ => ⟨rfl, rfl, rfl⟩
  · split
    · exact transitionAndNotify_run _ hrow fun _ => ⟨rfl, rfl, rfl⟩
    · exact transitionAndNotify_run (n := n + 1) _ hrow fun _ => ⟨rfl, rfl, rfl⟩

/-- What a deposit that meets an expired quote is recorded as, read from a clock. -/
def depositEvent (row : PaymentIntent) (now : Time) (amount : ℚ) : EventType :=
  if row.quoteExpiresAt.any (· < now) then .quoteExpired else classify row.targetAmount amount

/-- An attempt never ends in an expired quote, so the `catch` of `recordDeposit` rethrows its errors. -/
theorem Attempt.rethrown {t t' : Tables} {eventType : EventType} {good : Payload → Prop} {e : IntentError}
    {out : Except IntentError PaymentIntent} (h : Attempt ω t row eventType good out t') (he : out = .error e) :
    recoverExpired id e = .throw e := by
  have hext : ∀ e : IntentError, e.External → recoverExpired id e = .throw e := by
    intro e he
    cases e with
    | quoteExpired => exact he.elim
    | _ => rfl
  cases h with
  | failed _ h => cases he; exact hext e h
  | refused => cases he; rfl
  | recorded _ _ h => exact hext e (h e he)

theorem Attempt.tryCatch {t : Tables} {eventType : EventType} {good : Payload → Prop} {p : Task PaymentIntent}
    (h : Attempt ω t row eventType good (p.run handle ω n db).1 (p.run handle ω n db).2.2.toTables) :
    Attempt ω t row eventType good ((p.tryCatch (recoverExpired id)).run handle ω n db).1
      ((p.tryCatch (recoverExpired id)).run handle ω n db).2.2.toTables := by
  rw [Prog.run_tryCatch]
  split
  · rename_i x m db' hrun
    rwa [hrun] at h
  · rename_i e m db' hrun
    rw [hrun] at h
    rw [h.rethrown rfl]
    exact h

/-- The recovery from an expired quote reads the intent back. -/
theorem recoverExpired_run (ω : Nat → Oracle) (n : Nat) (db : Db) (hrow : db.intents.find? id = some row) :
    (∀ e, ((recoverExpired id (.quoteExpired id)).run handle ω n db).1 = .error e → e.External) ∧
      ((recoverExpired id (.quoteExpired id)).run handle ω n db).2.2 = db := by
  simp only [recoverExpired, Prog.bind_def, run_bind_findById]
  rcases findById_eq (ω n) id db with hfind | ⟨-, hfind⟩
  · simp [hfind, hrow]
  · rw [hfind]
    exact ⟨fun e he => by cases he; trivial, rfl⟩

/-- The guarded part of `recordDeposit`. -/
theorem detectDeposit_run (ω : Nat → Oracle) (n : Nat) (db : Db) (hrow : db.intents.find? id = some row) :
    let p := (detectDeposit id txHash amount sourceChain sourceAsset).tryCatch (recoverExpired id)
    Attempt ω db.toTables row (depositEvent row (ω (n + 1)).now amount)
      (NamesTransfer (depositEvent row (ω (n + 1)).now amount) txHash sourceChain sourceAsset)
      (p.run handle ω n db).1 (p.run handle ω n db).2.2.toTables := by
  intro p
  have hid : (mapRow row).quoteExpiresAt = row.quoteExpiresAt := rfl
  rcases findById_eq (ω n) id db with hfind | ⟨hfault, hfind⟩
  swap
  · refine Attempt.tryCatch ?_
    simp only [detectDeposit, Prog.bind_def, run_bind_findById, hfind]
    exact .failed ⟨n, hfault⟩ trivial
  by_cases hexp : ∃ e, row.quoteExpiresAt = some e ∧ e < (ω (n + 1)).now
  · obtain ⟨e, he, hlt⟩ := hexp
    have hevent : depositEvent row (ω (n + 1)).now amount = .quoteExpired := by simp [depositEvent, he, hlt]
    rw [hevent]
    simp only [p, Prog.run_tryCatch, detectDeposit, Prog.bind_def, run_bind_findById, hfind, hrow,
      Option.map_some, Prog.ofExcept_ok, Prog.ret_bind, hid, he, run_bind_now, if_pos hlt, run_bind_transition]
    rcases transition_cases (ω (n + 3)) .quoteExpired [("expired_at", .date (ω (n + 2)).now)] hrow with
      ⟨s, hs, h⟩ | ⟨hedge, h⟩ | ⟨hedge, h⟩
    · rw [h]
      exact .failed ⟨n + 3, by simp [hs]⟩ trivial
    · rw [h]
      exact .refused hedge
    · simp only [h, Prog.ofExcept_ok, Prog.ret_bind, Prog.throw_def, Prog.run_throw]
      have hback := Tables.find?_recorded (ω (n + 3)) .quoteExpired [("expired_at", .date (ω (n + 2)).now)] hrow
      obtain ⟨herr, hdb⟩ := recoverExpired_run ω (n + 4)
        { db with toTables := db.toTables.record (ω (n + 3)) row .quoteExpired _ } hback
      rw [hdb]
      exact .recorded hedge (fun h => absurd rfl h) herr
  · have hevent : depositEvent row (ω (n + 1)).now amount = classify row.targetAmount amount := by
      simp only [depositEvent]
      cases he : row.quoteExpiresAt with
      | none => simp
      | some e =>
        have hlt : ¬ e < (ω (n + 1)).now := by simpa [he] using hexp
        simp [hlt]
    rw [hevent]
    refine Attempt.tryCatch ?_
    simp only [detectDeposit, Prog.bind_def, run_bind_findById, hfind, hrow, Option.map_some,
      Prog.ofExcept_ok, Prog.ret_bind, hid]
    cases he : row.quoteExpiresAt with
    | none => exact classifyDeposit_run hrow rfl
    | some e =>
      simp only [run_bind_now]
      have hlt : ¬ e < (ω (n + 1)).now := by simpa [he] using hexp
      rw [if_neg hlt]
      exact classifyDeposit_run hrow rfl

/-- The hop that `recordDeposit` makes before it looks at the deposit. -/
inductive Hop (t : Tables) (row : PaymentIntent) : Tables → PaymentIntent → Prop
  | stay (hstate : row.state ≠ .quoted) : Hop t row t row
  | awaited {o : Oracle} {payload : Payload} (hstate : row.state = .quoted) :
      Hop t row (t.record o row .paymentAwaited payload) (advance o (mapRow row) .awaitingPayment row)

/-- The state in which the deposit is looked at. -/
def detectionState (row : PaymentIntent) : IntentState :=
  if row.state = .quoted then .awaitingPayment else row.state

/-- The number of the call that reads the clock for the expiry check. -/
def expiryCheck (row : PaymentIntent) (n : Nat) : Nat := if row.state = .quoted then n + 5 else n + 2

theorem Hop.facts {t t₁ : Tables} {row₁ : PaymentIntent} (h : Hop t row t₁ row₁)
    (hrow : t.intents.find? id = some row) :
    t₁.intents.find? id = some row₁ ∧ row₁.state = detectionState row ∧
      row₁.targetAmount = row.targetAmount ∧ row₁.quoteExpiresAt = row.quoteExpiresAt := by
  cases h with
  | stay hstate => exact ⟨hrow, by simp [detectionState, hstate], rfl, rfl⟩
  | @awaited o payload hstate =>
    exact ⟨Tables.find?_recorded o .paymentAwaited payload hrow, by simp [detectionState, hstate], rfl, rfl⟩

theorem Hop.events {t t₁ : Tables} {row₁ : PaymentIntent} (h : Hop t row t₁ row₁) :
    ∃ hops, t₁.events = t.events ++ hops ∧ ∀ e ∈ hops, e.eventType = .paymentAwaited := by
  cases h with
  | stay => exact ⟨[], (List.append_nil _).symm, fun _ h => absurd h List.not_mem_nil⟩
  | awaited => exact ⟨_, rfl, fun e he => by rw [List.mem_singleton.1 he]⟩

theorem awaitPayment_run (ω : Nat → Oracle) (n : Nat) (hrow : db.intents.find? id = some row)
    (hstate : row.state = .quoted) :
    (∃ e m, Faulty ω ∧ e.External ∧ (awaitPayment id).run handle ω n db = (.error e, m, db)) ∨
    ∃ intent payload, (awaitPayment id).run handle ω n db =
      (.ok intent, n + 3, { db with toTables := db.toTables.record (ω (n + 2)) row .paymentAwaited payload }) := by
  simp only [awaitPayment, Prog.bind_def, run_bind_findById]
  rcases findById_eq (ω n) id db with hfind | ⟨hfault, hfind⟩
  swap
  · rw [hfind]
    exact .inl ⟨.database .query, n + 1, ⟨n, hfault⟩, trivial, rfl⟩
  have hvalid : isValidTransition validTransitions row.state .awaitingPayment = true := by rw [hstate]; rfl
  simp only [hfind, hrow, Option.map_some, Prog.ofExcept_ok, Prog.ret_bind]
  have hc : ¬ (!isValidTransition validTransitions (mapRow row).state .awaitingPayment) = true := by
    simp only [mapRow_state, hvalid, Bool.not_true, Bool.false_eq_true, not_false_eq_true]
  rw [if_neg hc, run_bind_now, run_transition]
  generalize (_ :: _ : Payload) = payload
  rcases transition_cases (ω (n + 2)) .paymentAwaited payload hrow with ⟨s, hs, h⟩ | ⟨hedge, -⟩ | ⟨-, h⟩
  · rw [h]
    exact .inl ⟨.database s, n + 3, ⟨n + 2, by simp [hs]⟩, trivial, rfl⟩
  · exact absurd hvalid hedge
  · rw [h]
    exact .inr ⟨_, payload, rfl⟩

/-- **How recording a deposit ends**, for an intent that accepts deposits. -/
theorem recordDeposit_run (hrow : db.intents.find? id = some row)
    (hacc : acceptsDeposit.contains row.state = true) :
    let r := (recordDeposit id txHash amount sourceChain sourceAsset).run handle ω n db
    let event := depositEvent row (ω (expiryCheck row n)).now amount
    (∃ e, Faulty ω ∧ e.External ∧ r.1 = .error e ∧ r.2.2.toTables = db.toTables) ∨
    ∃ t₁ row₁, Hop db.toTables row t₁ row₁ ∧
      Attempt ω t₁ row₁ event (NamesTransfer event txHash sourceChain sourceAsset) r.1 r.2.2.toTables := by
  intro r event
  rcases findById_eq (ω n) id db with hfind | ⟨hfault, hfind⟩
  swap
  · refine .inl ⟨.database .query, ⟨n, hfault⟩, trivial, ?_⟩
    simp only [r, recordDeposit, Prog.bind_def, run_bind_findById, hfind]
    exact ⟨rfl, rfl⟩
  by_cases hq : row.state = .quoted
  · have hrun : r = ((awaitPayment id).bind fun _ =>
        (detectDeposit id txHash amount sourceChain sourceAsset).tryCatch
          (recoverExpired id)).run handle ω (n + 1) db := by
      simp only [r, recordDeposit, Prog.bind_def, run_bind_findById, hfind, hrow, Option.map_some,
        Prog.ofExcept_ok, Prog.ret_bind, mapRow_state, hq]
      rfl
    rw [Prog.run_bind] at hrun
    rcases awaitPayment_run ω (n + 1) hrow hq with ⟨e, m, hfault, he, h⟩ | ⟨intent, payload, h⟩
    · rw [h] at hrun
      exact .inl ⟨e, hfault, he, by rw [hrun], by rw [hrun]⟩
    · rw [h] at hrun
      have hhop := @Hop.awaited db.toTables row (ω (n + 1 + 2)) payload hq
      obtain ⟨hrow₁, -, htarget, hexpires⟩ := hhop.facts hrow
      refine .inr ⟨_, _, hhop, ?_⟩
      rw [hrun]
      have hevent : event = depositEvent (advance (ω (n + 1 + 2)) (mapRow row) .awaitingPayment row)
          (ω (n + 1 + 3 + 1)).now amount := by
        simp only [event, expiryCheck, if_pos hq]
        rfl
      rw [hevent]
      exact detectDeposit_run ω (n + 1 + 3)
        { db with toTables := db.toTables.record (ω (n + 1 + 2)) row .paymentAwaited payload } hrow₁
  · have hrun : r = ((detectDeposit id txHash amount sourceChain sourceAsset).tryCatch
        (recoverExpired id)).run handle ω (n + 1) db := by
      simp only [r, recordDeposit, Prog.bind_def, run_bind_findById, hfind, hrow, Option.map_some,
        Prog.ofExcept_ok, Prog.ret_bind, mapRow_state, hacc, Bool.not_true, Bool.false_eq_true, if_false, hq]
      rfl
    right
    refine ⟨db.toTables, row, .stay hq, ?_⟩
    rw [hrun]
    simp only [event, expiryCheck, if_neg hq]
    exact detectDeposit_run ω (n + 1) db hrow

end NexoraGateway.Intent
