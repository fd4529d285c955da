import Mathlib.Computability.DFA
import Mathlib.Tactic.Linarith
import NexoraGateway.Intent.Settled
import NexoraGateway.Intent.Timing

/-!
# Which logs the service can write

`lifecycle` is the automaton of an intent's log: after `INTENT_CREATED` the events that some operation records, along
the edges of `validTransitions`. In every run of the service the automaton is in the state of the intent's row
(`service_tracks`), and each word that it accepts is the log that some operations, one after another, leave behind.

* `logs_exact` — the logs of the service are the words of the automaton.
-/
namespace NexoraGateway.Intent

open Async Events Store
open Ecma (Double)

/-- How far an intent has got, as far as its log tells. -/
inductive Progress where
  | absent
  | reached (s : IntentState)
  | off
  deriving DecidableEq

def Progress.next : Progress → EventType → Progress
  | absent, e => if e = .intentCreated then .reached .created else .off
  | reached s, e =>
    if e ∈ served ∧ Valid s (getExpectedNextState e) then .reached (getExpectedNextState e) else .off
  | off, _ => .off

def lifecycle : DFA EventType Progress where
  step := Progress.next
  start := .absent
  accept := {p | p ≠ .off}

@[simp] theorem lifecycle_step : lifecycle.step = Progress.next := rfl

theorem next_reached {s : IntentState} {e : EventType} (he : e ∈ served) (hedge : Valid s (getExpectedNextState e)) :
    (Progress.reached s).next e = .reached (getExpectedNextState e) := if_pos ⟨he, hedge⟩

/-- A word that is followed by another event is one itself. -/
theorem eval_of_append {ws : List EventType} {e : EventType} (h : lifecycle.eval (ws ++ [e]) ≠ .off) :
    (ws = [] ∧ e = .intentCreated) ∨
      ∃ s, lifecycle.eval ws = .reached s ∧ e ∈ served ∧ Valid s (getExpectedNextState e) := by
  rw [DFA.eval_append_singleton, lifecycle_step] at h
  cases hws : lifecycle.eval ws with
  | absent =>
    rw [hws, Progress.next] at h
    refine .inl ⟨?_, ?_⟩
    · -- only the empty word leaves the automaton where it starts
      rcases List.eq_nil_or_concat ws with hnil | ⟨init, last, rfl⟩
      · exact hnil
      · rw [List.concat_eq_append, DFA.eval_append_singleton, lifecycle_step] at hws
        revert hws
        unfold Progress.next
        split <;> (try split) <;> simp
    · by_contra he
      exact h (if_neg he)
  | reached s =>
    rw [hws, Progress.next] at h
    refine .inr ⟨s, rfl, ?_⟩
    by_contra hedge
    exact h (if_neg hedge)
  | off =>
    rw [hws] at h
    exact absurd rfl h

/-! ## The automaton follows the row -/

/-- Where the row of intent `id` stands. -/
def Tables.progress (t : Tables) (id : Id) : Progress := (t.intents.find? id).elim .absent fun row => .reached row.state

/-- The types of an intent's events, oldest first. -/
def Tables.typesOf (t : Tables) (id : Id) : List EventType := (t.logOf id).map Prod.snd

def Tracks (t : Tables) : Prop := ∀ id, lifecycle.eval (t.typesOf id) = t.progress id

theorem typesOf_append (t : Tables) (intents : Table PaymentIntent.id) (e : IntentEvent) (id : Id) :
    (⟨intents, t.events ++ [e]⟩ : Tables).typesOf id =
      t.typesOf id ++ if e.intentId = id then [e.eventType] else [] := by
  unfold Tables.typesOf
  rw [logOf_append, List.map_append]
  split <;> rfl

theorem tracks_empty : Tracks Tables.empty := fun _ => rfl

/-- **One call of an operation keeps the automaton in step with the rows.** -/
theorem Effect.tracks {t t' : Tables} {a : Call} (h : Effect t a t') (ha : a.Within served) (ht : Tracks t) :
    Tracks t' := by
  intro id
  cases h with
  | unchanged => exact ht id
  | @created data row intents now hstate hversion hinsert =>
    rw [typesOf_append, Tables.progress, Table.find?_insert? hinsert]
    have hfresh : t.intents.find? row.id = none := Table.insert?_isSome.1 (hinsert ▸ rfl)
    by_cases hid : row.id = id
    · subst hid
      have hbefore : lifecycle.eval (t.typesOf row.id) = .absent := by rw [ht, Tables.progress, hfresh]; rfl
      rw [if_pos rfl, if_pos rfl, DFA.eval_append_singleton, hbefore, Option.elim_some, hstate]
      rfl
    · rw [if_neg hid, if_neg hid, List.append_nil]
      exact ht id
  | @transitioned id' eventType payload row o hrow hedge =>
    obtain ⟨-, hid'⟩ := Table.find?_eq_some.1 hrow
    rw [Tables.progress, Tables.find?_record o eventType payload hrow, Tables.record, typesOf_append, hid']
    by_cases hid : id' = id
    · subst hid
      have hbefore : lifecycle.eval (t.typesOf id') = .reached row.state := by rw [ht, Tables.progress, hrow]; rfl
      rw [if_pos rfl, if_pos rfl, DFA.eval_append_singleton, hbefore]
      exact next_reached ha hedge
    · rw [if_neg hid, if_neg (Ne.symm hid), List.append_nil]
      exact ht id
  | @requoted id' rate expires deposit o =>
    rw [Tables.progress, Table.find?_updateWhere]
    refine (ht id).trans ?_
    rw [Tables.progress]
    cases t.intents.find? id with
    | none => rfl
    | some row =>
      simp only [Option.map_some, Option.elim_some]
      split <;> rfl

theorem service_tracks {w : Service} (htasks : w.tasks = []) (hempty : w.store.toTables = .empty)
    {cs : List (Choice Call Answer IntentError Unit Oracle)} (hops : ∀ p, .spawn p ∈ cs → IsOp p) :
    Tracks (w.exec handle cs).store.toTables := by
  have hstart : Tracks w.store.toTables := hempty ▸ tracks_empty
  have hinit : w.GhostInv (only (Call.Within served) fun _ => True) fun db _ => Tracks db.toTables :=
    ⟨[], by rw [htasks]; exact .nil, hstart⟩
  have hall : w.Guarded handle (fun _ _ => True) cs := Pool.guarded_of_forall (fun _ _ => trivial) w cs
  have hspawn (p : Task Unit) (hp : IsOp p) :
      ∃ g, p.Obeys (only (Call.Within served) fun _ => True) (fun _ _ => True) g ∧
        ∀ (db : Db) (gs : List Unit), Tracks db.toTables → Tracks db.toTables := by
    obtain ⟨op, rfl⟩ := hp
    exact ⟨(), (op_served op).mono fun _ _ _ => trivial, fun _ _ h => h⟩
  obtain ⟨_, -, ht⟩ := Pool.exec_inv hspawn
    (fun db _ _ _ a o ht ha _ => ⟨fun _ _ => trivial, (handle_effect a o db).tracks ha ht⟩) hinit hops hall
  exact ht

/-! ## Writing a word -/

variable {α : Type} {ω : Nat → Oracle} {n : Nat} {db : Db} {row : PaymentIntent} {ws : List EventType}

/-- The shop's intent with a quote and a log. -/
structure Written (db : Db) (row : PaymentIntent) (ws : List EventType) : Prop where
  found : db.intents.find? "pi" = some row
  log : db.typesOf "pi" = ws
  target : 0 < row.targetAmount
  quoted : ∃ expires, row.quoteExpiresAt = some expires

theorem not_faulty_calm (now : Time) : ¬ Faulty (calm now) := fun ⟨_, hk⟩ => hk rfl

theorem serve_one (op : Op) (ω : Nat → Oracle) (db : Db) : serve db [(op, ω)] = (op.task.run handle ω 0 db).2.2 := rfl

/-- The result of an operation is dropped. -/
theorem run_dropped {β : Type} (p : Task α) (x : β) (n : Nat) (db : Db) :
    ((p.bind fun _ => Prog.ret x).run handle ω n db).2.2 = (p.run handle ω n db).2.2 := by
  rw [Prog.run_bind]
  split <;> rename_i hrun <;> rw [hrun]
  rfl

/-- The word is extended by the event, which leads to its state. -/
def Extends (db : Db) (ws : List EventType) (e : EventType) : Prop :=
  ∃ row, Written db row (ws ++ [e]) ∧ row.state = getExpectedNextState e

theorem Written.record {db' : Db} {o : Oracle} {e : EventType} {payload : Payload} (h : Written db row ws)
    (hdb' : db'.toTables = db.toTables.record o row e payload) : Extends db' ws e := by
  refine ⟨advance o (mapRow row) (getExpectedNextState e) row, ⟨?_, ?_, h.target, h.quoted⟩, rfl⟩
  · rw [hdb', Tables.find?_recorded o e payload h.found]
  · rw [hdb', Tables.record, typesOf_append, if_pos (Table.find?_eq_some.1 h.found).2, h.log]

/-- An attempt that nothing hinders records its event. -/
theorem Attempt.written {t' : Tables} {e : EventType} {good : Payload → Prop} {out : Except IntentError PaymentIntent}
    (h : Attempt ω db.toTables row e good out t') (hω : ¬ Faulty ω) (hedge : Valid row.state (getExpectedNextState e)) :
    ∃ o payload, t' = db.toTables.record o row e payload := by
  rcases h.inv with ⟨_, hfault, -⟩ | ⟨hrefused, -⟩ | ⟨-, -, o, payload, -, htables⟩
  · exact absurd hfault hω
  · exact absurd hedge hrefused
  · exact ⟨o, payload, htables⟩

theorem calm_findById (now : Time) (k : Nat) (id : Id) (db : Db) :
    findById (calm now k) id db = (.ok ((db.intents.find? id).map mapRow), db) := by
  rcases findById_eq (calm now k) id db with h | ⟨hfault, -⟩
  · exact h
  · exact absurd rfl hfault

theorem run_bind_getById (id : Id) (f : Option MerchantConfig → Task α) :
    ((Task.getById id).bind f).run handle ω n db =
      ((Prog.ofExcept (getById (ω n) id db).1).bind f).run handle ω (n + 1) (getById (ω n) id db).2 := rfl

theorem run_bind_updateQuote (id : Id) (rate : ℚ) (expires : Time) (deposit : Option Deposit)
    (f : PaymentIntent → Task α) : ((Task.updateQuote id rate expires deposit).bind f).run handle ω n db =
      ((Prog.ofExcept (updateQuote (ω n) id rate expires deposit db).1).bind f).run handle ω (n + 1)
        (updateQuote (ω n) id rate expires deposit db).2 := rfl

theorem calm_getById (now : Time) (k : Nat) (id : Id) (db : Db) :
    ∃ merchant, getById (calm now k) id db = (.ok merchant, db) := by
  rw [getById, query_pure]
  exact ⟨_, if_neg fun hfault => by cases hfault⟩

theorem calm_transition {now : Time} {k : Nat} {id : Id} {e : EventType} (payload : Payload)
    (hrow : db.intents.find? id = some row) (hedge : Valid row.state (getExpectedNextState e)) :
    transition (calm now k) id e payload db =
      (.ok (mapRow (advance (calm now k) (mapRow row) (getExpectedNextState e) row)),
        { db with toTables := db.toTables.record (calm now k) row e payload }) := by
  rcases transition_cases (calm now k) e payload hrow with ⟨_, hs, -⟩ | ⟨hrefused, -⟩ | ⟨-, h⟩
  · cases hs
  · exact absurd hedge hrefused
  · exact h

section
variable (h : Written db row ws)
include h

theorem Written.notify {e : EventType} (hedge : Valid row.state (getExpectedNextState e)) (payload data : Payload)
    (now : Time) (n : Nat) :
    Extends ((transitionAndNotify "pi" e payload data).run handle (calm now) n db).2.2 ws e := by
  have hattempt : Attempt (calm now) db.toTables row e (fun _ => True)
      ((transitionAndNotify "pi" e payload data).run handle (calm now) n db).1
      ((transitionAndNotify "pi" e payload data).run handle (calm now) n db).2.2.toTables :=
    transitionAndNotify_run data h.found trivial
  obtain ⟨o, payload', htables⟩ := hattempt.written (not_faulty_calm now) hedge
  exact h.record htables

theorem Written.advance {e : EventType} (hedge : Valid row.state (getExpectedNextState e)) (data : Payload)
    (stamp : String) : Extends ((advanceIntent "pi" e data stamp).run handle (calm 0) 0 db).2.2 ws e := by
  simp only [advanceIntent, Prog.bind_def, run_bind_findById, calm_findById, h.found, Option.map_some,
    Prog.ofExcept_ok, Prog.ret_bind, run_bind_now]
  exact h.notify hedge _ data 0 2

theorem Written.await (hedge : Valid row.state .awaitingPayment) :
    Extends ((awaitPayment "pi").run handle (calm 0) 0 db).2.2 ws .paymentAwaited := by
  have hallowed : ¬ (!isValidTransition validTransitions (mapRow row).state .awaitingPayment) = true := by
    rw [mapRow_state, show isValidTransition validTransitions row.state .awaitingPayment = true from hedge]
    decide
  simp only [awaitPayment, Prog.bind_def, run_bind_findById, calm_findById, h.found, Option.map_some,
    Prog.ofExcept_ok, Prog.ret_bind]
  rw [if_neg hallowed, run_bind_now, run_transition]
  generalize (_ :: _ : Payload) = payload
  rw [calm_transition (e := .paymentAwaited) payload h.found hedge]
  exact h.record rfl

theorem Written.detect {e : EventType} {amount : ℚ} (he : classify row.targetAmount amount = e)
    (hedge : Valid row.state (getExpectedNextState e)) : ∃ now,
    Extends ((detectDeposit "pi" "0xa" amount "ethereum" "USDC").run handle (calm now) 0 db).2.2 ws e := by
  obtain ⟨expires, hexpires⟩ := h.quoted
  have hquote : (mapRow row).quoteExpiresAt = some expires := hexpires
  have hlive : ¬ expires < (calm expires 1).now := lt_irrefl expires
  refine ⟨expires, ?_⟩
  simp only [detectDeposit, Prog.bind_def, run_bind_findById, calm_findById, h.found, Option.map_some,
    Prog.ofExcept_ok, Prog.ret_bind, hquote, run_bind_now]
  rw [if_neg hlive]
  have hattempt : Attempt (calm expires) db.toTables row (classify row.targetAmount amount)
      (NamesTransfer (classify row.targetAmount amount) "0xa" "ethereum" "USDC")
      ((classifyDeposit (mapRow row) "pi" "0xa" amount "ethereum" "USDC").run handle (calm expires) 2 db).1
      ((classifyDeposit (mapRow row) "pi" "0xa" amount "ethereum" "USDC").run handle (calm expires) 2
        db).2.2.toTables :=
    classifyDeposit_run h.found rfl
  rw [he] at hattempt
  obtain ⟨o, payload, htables⟩ := hattempt.written (not_faulty_calm expires) hedge
  exact h.record htables

theorem Written.expire (hedge : Valid row.state .expired) : ∃ now,
    Extends ((detectDeposit "pi" "0xa" 0 "ethereum" "USDC").run handle (calm now) 0 db).2.2 ws .quoteExpired := by
  obtain ⟨expires, hexpires⟩ := h.quoted
  have hquote : (mapRow row).quoteExpiresAt = some expires := hexpires
  have hpast : expires < (calm (expires + 1) 1).now := Int.lt_succ expires
  refine ⟨expires + 1, ?_⟩
  simp only [detectDeposit, Prog.bind_def, run_bind_findById, calm_findById, h.found, Option.map_some,
    Prog.ofExcept_ok, Prog.ret_bind, hquote, run_bind_now]
  rw [if_pos hpast, run_bind_now, run_bind_transition, calm_transition (e := .quoteExpired) _ h.found hedge]
  exact h.record rfl

/-- The quote is written, and the log is as it was. -/
theorem Written.requoted (now : Time) (k : Nat) (rate : ℚ) (expires : Time) (deposit : Option Deposit) :
    ∃ intent db', updateQuote (calm now k) "pi" rate expires deposit db = (.ok intent, db') ∧
      Written db' (requote (calm now k) rate expires deposit row) ws := by
  cases hout : (updateQuote (calm now k) "pi" rate expires deposit db).1 with
  | error e =>
    rcases query_rejected hout with ⟨hfault, -⟩ | hbody
    · cases hfault
    · simp only [Table.returning_of_find? h.found, List.head?_cons] at hbody
      cases hbody
  | ok intent =>
    obtain ⟨-, -, -, hdb⟩ := updateQuote_ok hout
    have hlog : (updateQuote (calm now k) "pi" rate expires deposit db).2.typesOf "pi" = ws := by
      rw [hdb]
      exact h.log
    exact ⟨intent, _, Prod.ext hout rfl, requoted_row h.found hout, hlog, h.target, expires, rfl⟩

theorem Written.quote (hedge : Valid row.state .quoted) :
    Extends ((generateQuote "pi" 1 "0xdeposit" "USDC" "ethereum").run handle (calm 1) 0 db).2.2 ws .quoteGenerated := by
  have hallowed : ¬ (!isValidTransition validTransitions (mapRow row).state .quoted) = true := by
    rw [mapRow_state, show isValidTransition validTransitions row.state .quoted = true from hedge]
    decide
  simp only [generateQuote, Prog.bind_def, run_bind_findById, calm_findById, h.found, Option.map_some,
    Prog.ofExcept_ok, Prog.ret_bind]
  obtain ⟨merchant, hmerchant⟩ := calm_getById 1 1 (mapRow row).merchantId db
  obtain ⟨intent, db', hupdate, h'⟩ := h.requoted 1 3 1 ((calm 1 2).now + quoteTtl merchant * 1000)
    (some ⟨"0xdeposit", "USDC", "ethereum"⟩)
  rw [if_neg hallowed, run_bind_getById, hmerchant, Prog.ofExcept_ok, Prog.ret_bind, run_bind_now,
    run_bind_updateQuote]
  rw [hupdate, Prog.ofExcept_ok, Prog.ret_bind, run_bind_transition,
    calm_transition (e := .quoteGenerated) _ h'.found hedge, Prog.ofExcept_ok, Prog.ret_bind, Prog.pure_def,
    run_dropped]
  obtain ⟨-, hkept⟩ := run_keepsIntents (deliverWebhook_only (fun _ => trivial) _ .quoteGenerated _) (calm 1) _ _
  exact h'.record hkept

/-- Some amount is classified as each of the three. -/
theorem Written.exists_amount {e : EventType}
    (he : e ∈ [.underpaymentDetected, .overpaymentDetected, .depositDetected]) :
    ∃ amount, classify row.targetAmount amount = e := by
  have htarget : 0 ≤ (Double.ofRat row.targetAmount).value := Double.ofRat_nonneg h.target.le
  have hlower : 0 ≤ (1 - tolerance).value ∧ (1 - tolerance).value ≤ 1 := by decide +kernel
  have hupper : 1 ≤ (1 + tolerance).value := by decide +kernel
  simp only [List.mem_cons, List.not_mem_nil, or_false] at he
  unfold classify
  rcases he with rfl | rfl | rfl
  · refine ⟨-1, if_pos ?_⟩
    have hnegative : (Double.ofRat (-1)).value < 0 := by decide +kernel
    exact hnegative.trans_le (Double.ofRat_nonneg (mul_nonneg htarget hlower.1))
  · obtain ⟨amount, hamount⟩ := Double.exists_gt (Double.ofRat row.targetAmount * (1 + tolerance))
    have hmore := (Double.mul_le htarget hlower.2).trans ((Double.le_mul htarget hupper).trans hamount.le)
    exact ⟨amount, by rw [if_neg hmore.not_gt, if_pos hamount]⟩
  · exact ⟨row.targetAmount, by
      rw [if_neg (Double.mul_le htarget hlower.2).not_gt, if_neg (Double.le_mul htarget hupper).not_gt]⟩

omit h in
theorem extends_op (op : Op) {p : Task α} {x : Unit} {e : EventType} (hop : op.task = p.bind fun _ => Prog.ret x)
    (h : Extends (p.run handle ω 0 db).2.2 ws e) : ∃ op ω, Extends (serve db [(op, ω)]) ws e := by
  refine ⟨op, ω, ?_⟩
  rwa [serve_one, hop, run_dropped]

theorem Written.receive {e : EventType} (he : e ∈ [.underpaymentDetected, .overpaymentDetected, .depositDetected])
    (hedge : Valid row.state (getExpectedNextState e)) : ∃ op ω, Extends (serve db [(op, ω)]) ws e := by
  obtain ⟨amount, hamount⟩ := h.exists_amount he
  obtain ⟨now, hdetected⟩ := h.detect hamount hedge
  exact extends_op (.detectDeposit ..) rfl hdetected

/-- **Each event that may come next is recorded by some operation.** -/
theorem Written.write {e : EventType} (he : e ∈ served) (hedge : Valid row.state (getExpectedNextState e)) :
    ∃ op ω, Extends (serve db [(op, ω)]) ws e := by
  cases e with
  | quoteGenerated => exact extends_op (.generateQuote ..) rfl (h.quote hedge)
  | paymentAwaited => exact extends_op (.awaitPayment _) rfl (h.await hedge)
  | quoteExpired =>
    obtain ⟨now, hexpired⟩ := h.expire hedge
    exact extends_op (.detectDeposit ..) rfl hexpired
  | depositDetected | underpaymentDetected | overpaymentDetected => exact h.receive (by decide) hedge
  | confirmationReceived => exact extends_op (.confirmDeposit _ 12) rfl (h.advance hedge _ _)
  | routeSelected => exact extends_op (.selectRoute _ "route-1" "provider" 1 60) rfl (h.advance hedge _ _)
  | settlementInitiated => exact extends_op (.initiateSettlement _ 99) rfl (h.advance hedge _ _)
  | settlementConfirmed => exact extends_op (.confirmSettlement _ "0xsettled") rfl (h.advance hedge _ _)
  | failed => exact extends_op (.failIntent _ "reason" none) rfl (h.advance hedge _ _)
  | intentCreated | misdirectedPayment | refundInitiated | refundConfirmed => exact absurd he (by decide)

end

/-- The quote is written, and the transition after it is rejected. -/
def rejectsTransition : Nat → Oracle := fun k =>
  { now := 1, uuid := "pi", fault := if k = 4 then some .begin else none }

/-- The shop's intent is created, and gets a quote without leaving `CREATED`. -/
def priced : List (Op × (Nat → Oracle)) :=
  [(.createIntent ⟨"shop", "order-1", 100, "USDC", "ethereum", ["USDC"]⟩, calm 0),
   (.generateQuote "pi" 1 "0xdeposit" "USDC" "ethereum", rejectsTransition)]

theorem priced_written :
    Written (serve shopDb priced) { quotedRow with state := .created, version := 1 } [.intentCreated] where
  found := by decide +kernel
  log := by decide +kernel
  target := by decide +kernel
  quoted := ⟨_, rfl⟩

/-- **Every word is written by some operations, one after another.** -/
theorem word_written (ws : List EventType) (hne : ws ≠ []) (hws : lifecycle.eval ws ≠ .off) :
    ∃ ops row, Written (serve shopDb ops) row ws ∧ lifecycle.eval ws = .reached row.state := by
  induction ws using List.reverseRecOn with
  | nil => exact absurd rfl hne
  | append_singleton ws e ih =>
    rcases eval_of_append hws with ⟨rfl, rfl⟩ | ⟨s, hs, he, hedge⟩
    · exact ⟨priced, _, priced_written, rfl⟩
    · have hne' : ws ≠ [] := by
        rintro rfl
        cases hs
      obtain ⟨ops, row, hwritten, hstate⟩ := ih hne' (by rw [hs]; exact nofun)
      obtain rfl : s = row.state := Progress.reached.inj (hs.symm.trans hstate)
      obtain ⟨op, ω, row', hwritten', hstate'⟩ := hwritten.write he hedge
      refine ⟨ops ++ [(op, ω)], row', ?_, ?_⟩
      · rwa [serve, List.foldl_append]
      · rw [DFA.eval_append_singleton, hs, hstate']
        exact next_reached he hedge

/-- **The logs of the service are the words of the automaton**: in any run of any operations, interleaved in any way
and failing anywhere, each intent's log is one of them, and each of them is the log of some intent in some run. -/
theorem logs_exact (ws : List EventType) :
    (∃ (w : Service) (cs : List (Choice Call Answer IntentError Unit Oracle)) (id : Id), w.tasks = [] ∧
      w.store.toTables = .empty ∧ (∀ p, .spawn p ∈ cs → IsOp p) ∧ (w.exec handle cs).store.typesOf id = ws) ↔
    ws ∈ lifecycle.accepts := by
  rw [DFA.mem_accepts]
  constructor
  · rintro ⟨w, cs, id, htasks, hempty, hops, rfl⟩
    rw [service_tracks htasks hempty hops id, Tables.progress]
    cases (w.exec handle cs).store.intents.find? id <;> exact nofun
  · intro hws
    by_cases hne : ws = []
    · exact ⟨⟨shopDb, []⟩, [], "pi", rfl, rfl, fun _ h => absurd h List.not_mem_nil, hne.symm⟩
    · obtain ⟨ops, row, hwritten, -⟩ := word_written ws hne hws
      obtain ⟨cs, hops, hserve⟩ := serve_schedule ops ⟨shopDb, []⟩
      refine ⟨⟨shopDb, []⟩, cs, "pi", rfl, rfl, hops, ?_⟩
      rw [hserve]
      exact hwritten.log

end NexoraGateway.Intent
