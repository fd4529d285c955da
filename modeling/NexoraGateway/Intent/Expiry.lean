import NexoraGateway.Async.Amid
import NexoraGateway.Intent.Quotes

/-!
# Sweeping expired quotes (service.ts:472)

`processExpiredQuotes` reads the expired intents once and then expires one after another, while deposits, quotes and
failures of other operations move them on. `sweep_expires` says what a sweep does amid any such calls.

* `expireIntent` — one round of the loop.
* `transition_expires` — which transitions to `EXPIRED` happen.
-/
namespace NexoraGateway.Intent

open Async Store

variable {o : Oracle} {db : Db} {row : PaymentIntent} {id : Id} {s : IntentState}

/-- The statements of a transition (repository.ts:63). -/
def transitionStatements : List Statement := [.connect, .begin, .lockIntent, .updateIntent, .insertEvent, .commit]

/-- The database rejects a statement of the transition. -/
def Rejects (o : Oracle) : Prop := ∃ s ∈ transitionStatements, o.fault = some s

/-- A call of a sweep. -/
abbrev SweepCall := CallAt Call (Turn Call Oracle) Db

/-- The database when the call has been answered. -/
def afterCall (c : SweepCall) : Db := (handle c.call c.oracle.own c.store).2

/-- The call moves the intent to `EXPIRED`. -/
def Expires (c : SweepCall) (id : Id) : Prop :=
  stateOf c.store id ≠ some .expired ∧ stateOf (afterCall c) id = some .expired

instance (c : SweepCall) (id : Id) : Decidable (Expires c id) := inferInstanceAs (Decidable (_ ∧ _))

/-- The intent that a call tries to move, and its event. -/
def tried? (c : SweepCall) : Option (Id × EventType) :=
  match c.call with
  | .transition id eventType _ => some (id, eventType)
  | _ => none

/-- The intents that calls have moved to `EXPIRED`. -/
def moved (calls : List SweepCall) : List Id :=
  calls.filterMap fun c => (tried? c).bind fun t => if Expires c t.1 then some t.1 else none

/-! ## One transition -/

/-- A transition that is answered has had all its statements accepted. -/
theorem transition_unrejected {eventType : EventType} {payload : Payload} {intent : PaymentIntent}
    (h : (transition o id eventType payload db).1 = .ok intent) : ¬ Rejects o := by
  obtain ⟨_, -, hb⟩ := atomically_ok h
  simp only [bind_eq_ok] at hb
  obtain ⟨_, hconnect, _, hbegin, _, ⟨_, hlock, hb⟩, _, hcommit, -⟩ := hb
  split at hb
  · split at hb
    · cases hb
    · simp only [bind_eq_ok] at hb
      obtain ⟨_, hupdate, hb⟩ := hb
      split at hb
      · simp only [bind_eq_ok] at hb
        obtain ⟨_, hinsert, -⟩ := hb
        rintro ⟨s, hs, hfault⟩
        have hrejected : statement o s = .error (.database s) := if_pos hfault
        simp only [transitionStatements, List.mem_cons, List.not_mem_nil, or_false] at hs
        rcases hs with rfl | rfl | rfl | rfl | rfl | rfl <;> simp_all
      · cases hb
  · cases hb

/-- Where none of its statements is rejected, a transition goes as in a database that rejects nothing. -/
theorem transition_unfaulted {eventType : EventType} {payload : Payload} (ho : ¬ Rejects o) :
    transition o id eventType payload db = transition { o with fault := none } id eventType payload db := by
  have hok : ∀ s ∈ transitionStatements, statement o s = .ok () := fun s hs =>
    if_neg fun hfault => ho ⟨s, hs, hfault⟩
  simp only [transitionStatements, List.forall_mem_cons] at hok
  obtain ⟨hconnect, hbegin, hlock, hupdate, hinsert, hcommit, -⟩ := hok
  unfold transition transaction
  simp only [hconnect, hbegin, hlock, hupdate, hinsert, hcommit]
  rfl

/-- **A transition to `EXPIRED` happens exactly to an intent that is still `QUOTED` or `AWAITING_PAYMENT`**, unless
the database rejects it. -/
theorem transition_expires {payload : Payload} (hstate : stateOf db id = some s) (hs : s ≠ .created) (o : Oracle) :
    stateOf db id ≠ some .expired ∧ stateOf (transition o id .quoteExpired payload db).2 id = some .expired ↔
      (s = .quoted ∨ s = .awaitingPayment) ∧ ¬ Rejects o := by
  obtain ⟨row, hrow, rfl⟩ := Option.map_eq_some_iff.1 hstate
  have hedge : Valid row.state .expired ↔ row.state = .quoted ∨ row.state = .awaitingPayment := by
    revert hs
    cases row.state <;> decide
  rw [← hedge]
  constructor
  · rintro ⟨hbefore, hafter⟩
    cases hout : (transition o id .quoteExpired payload db).1 with
    | error e =>
      have hdb : (transition o id .quoteExpired payload db).2 = db := atomically_error hout
      rw [hdb] at hafter
      exact absurd hafter hbefore
    | ok intent =>
      obtain ⟨row', hrow', hvalid, -, -⟩ := transition_ok hout
      obtain rfl : row = row' := Option.some.inj (hrow.symm.trans hrow')
      exact ⟨hvalid, transition_unrejected hout⟩
  · rintro ⟨hvalid, ho⟩
    rw [transition_unfaulted ho]
    have hne : row.state ≠ .expired := by
      rintro heq
      rw [heq] at hvalid
      exact absurd hvalid (by decide)
    rcases transition_cases { o with fault := none } .quoteExpired payload hrow with
      ⟨_, hfault, -⟩ | ⟨hinvalid, -⟩ | ⟨-, heq⟩
    · cases hfault
    · exact absurd hvalid hinvalid
    · refine ⟨by rw [hstate]; exact fun heq => hne (Option.some.inj heq), ?_⟩
      rw [heq, stateOf, Tables.find?_recorded _ _ payload hrow]
      rfl

/-! ## One round -/

/-- The body of the loop: an intent that cannot be expired is logged and skipped. -/
def expireIntent (intent : PaymentIntent) : Task Unit :=
  tryCatch
    (do
      let now ← Task.now
      let _ ← Task.transition intent.id .quoteExpired [("expired_at", .date now)]
      deliverWebhook intent .quoteExpired [("intent_id", .str intent.id)])
    fun _ => pure ()

theorem processExpiredQuotes_eq :
    processExpiredQuotes = Task.findExpiredIntents.bind fun expired =>
      (expired.forM expireIntent).bind fun _ => Prog.ret expired.length := rfl

variable {ω : Nat → Turn Call Oracle} {n : Nat}

/-- Calls that keep the intents try to move none. -/
theorem tried_keepsIntents {calls : List SweepCall} (h : ∀ c ∈ calls, c.call.KeepsIntents) :
    calls.filterMap tried? = [] := by
  refine List.filterMap_eq_nil_iff.2 fun c hc => ?_
  have hkeeps := h c hc
  unfold tried?
  split
  · rename_i heq
    rw [heq] at hkeeps
    exact hkeeps.elim
  · rfl

section
variable {α : Type} (n : Nat) (db : Db)

theorem calls_bind_now (f : Time → Task α) :
    (Task.now.bind f).calls (amid handle) ω n db = ⟨.now, ω n, db⟩ ::
      (f (ω n).own.now).calls (amid handle) ω (n + 1) (amid handle .now (ω n) db).2 := rfl

theorem calls_bind_transition (id : Id) (eventType : EventType) (payload : Payload) (f : PaymentIntent → Task α) :
    ((Task.transition id eventType payload).bind f).calls (amid handle) ω n db =
      ⟨.transition id eventType payload, ω n, db⟩ ::
        ((Prog.ofExcept (transition (ω n).own id eventType payload db).1).bind f).calls (amid handle) ω (n + 1)
          (amid handle (.transition id eventType payload) (ω n) db).2 := rfl

theorem calls_bind_findExpiredIntents (f : List PaymentIntent → Task α) :
    (Task.findExpiredIntents.bind f).calls (amid handle) ω n db =
      ⟨.findExpiredIntents, ω n, db⟩ ::
        ((Prog.ofExcept (findExpiredIntents (ω n).own db).1).bind f).calls (amid handle) ω (n + 1)
          (amid handle .findExpiredIntents (ω n) db).2 := rfl

theorem run_bind_findExpiredIntents (f : List PaymentIntent → Task α) :
    (Task.findExpiredIntents.bind f).run (amid handle) ω n db =
      ((Prog.ofExcept (findExpiredIntents (ω n).own db).1).bind f).run (amid handle) ω (n + 1)
        (amid handle .findExpiredIntents (ω n) db).2 := rfl

end

/-- **A round resolves, whatever happens in it, having tried to move its intent once.** -/
theorem expireIntent_round (intent : PaymentIntent) (n : Nat) (db : Db) :
    ((expireIntent intent).run (amid handle) ω n db).1 = .ok () ∧
      ((expireIntent intent).calls (amid handle) ω n db).filterMap tried? = [(intent.id, .quoteExpired)] := by
  obtain ⟨hout, hcalls⟩ := Prog.calls_ignoring (amid handle) ω
    (Task.now.bind fun now => (Task.transition intent.id .quoteExpired [("expired_at", .date now)]).bind fun _ =>
      deliverWebhook intent .quoteExpired [("intent_id", .str intent.id)]) n db
  refine ⟨hout, (congrArg _ hcalls).trans ?_⟩
  rw [calls_bind_now, calls_bind_transition]
  refine congrArg (_ :: ·) (tried_keepsIntents ?_)
  cases (transition (ω (n + 1)).own intent.id .quoteExpired _ _).1 with
  | ok updated => exact (deliverWebhook_only (fun _ => trivial) intent .quoteExpired _).calls _ _
  | error e => exact fun _ hc => absurd hc List.not_mem_nil

/-! ## A sweep -/

/-- An intent that has been quoted. -/
def Quoted (id : Id) (db : Db) : Prop := ∃ s, stateOf db id = some s ∧ s ≠ .created

theorem handle_quoted (id : Id) (a : Call) (o : Oracle) (db : Db) (h : Quoted id db) : Quoted id (handle a o db).2 := by
  obtain ⟨s, hstate, hs⟩ := h
  obtain ⟨s', hstate', hs'⟩ := (handle_effect a o db).state hstate
  refine ⟨s', hstate', ?_⟩
  rcases hs' with rfl | hedge
  · exact hs
  · rintro rfl
    revert hedge
    cases s <;> decide

/-- What the query for the expired intents finds has been quoted. -/
theorem findExpiredIntents_quoted {expired : List PaymentIntent} (h : (findExpiredIntents o db).1 = .ok expired) :
    ∀ intent ∈ expired, Quoted intent.id db := by
  obtain ⟨_, -, hb⟩ := query_ok h
  cases hb
  intro intent hintent
  obtain ⟨row, hrow, rfl⟩ := List.mem_map.1 hintent
  obtain ⟨hmem, hexpired⟩ := List.mem_filter.1 hrow
  refine ⟨row.state, ?_, ?_⟩
  · rw [stateOf, mapRow_id, Table.find?_eq_some.2 ⟨hmem, rfl⟩]
    rfl
  · rintro heq
    simp [heq] at hexpired

/-- **A sweep over expired quotes, amid any calls of others and whatever fails.** Once the expired intents have been
read it resolves with their number; it has tried to expire each of them once; and a try moves its intent exactly when
that is still `QUOTED` or `AWAITING_PAYMENT` and the database does not reject the transition. -/
theorem sweep_expires (ω : Nat → Turn Call Oracle) (db : Db) {expired : List PaymentIntent}
    (hfound : (findExpiredIntents (ω 0).own db).1 = .ok expired) :
    (processExpiredQuotes.run (amid handle) ω 0 db).1 = .ok expired.length ∧
    (processExpiredQuotes.calls (amid handle) ω 0 db).filterMap tried? =
      expired.map (fun intent => (intent.id, .quoteExpired)) ∧
    ∀ c ∈ processExpiredQuotes.calls (amid handle) ω 0 db, ∀ id eventType, tried? c = some (id, eventType) →
      (Expires c id ↔
        (stateOf c.store id = some .quoted ∨ stateOf c.store id = some .awaitingPayment) ∧ ¬ Rejects c.oracle.own) := by
  obtain ⟨hout, htried⟩ := Prog.forM_calls (h := amid handle) expireIntent_round expired 1
    (amid handle .findExpiredIntents (ω 0) db).2
  rcases hloop : (expired.forM expireIntent).run (amid handle) ω 1 (amid handle .findExpiredIntents (ω 0) db).2 with
    ⟨out, m, t⟩
  obtain rfl : out = .ok () := by rw [hloop] at hout; exact hout
  have hcalls : (processExpiredQuotes.calls (amid handle) ω 0 db).filterMap tried? =
      expired.map (fun intent => (intent.id, .quoteExpired)) := by
    rw [processExpiredQuotes_eq, calls_bind_findExpiredIntents, hfound, Prog.ofExcept_ok, Prog.ret_bind,
      Prog.calls_bind_of_ok _ _ _ hloop, Prog.calls_ret, List.append_nil]
    exact htried
  refine ⟨?_, hcalls, fun c hc id eventType htried => ?_⟩
  · rw [processExpiredQuotes_eq, run_bind_findExpiredIntents, hfound, Prog.ofExcept_ok, Prog.ret_bind,
      Prog.run_bind_of_ok _ _ _ hloop]
    rfl
  · have hmem : (id, eventType) ∈ expired.map (fun intent => (intent.id, EventType.quoteExpired)) :=
      hcalls ▸ List.mem_filterMap.2 ⟨c, hc, htried⟩
    obtain ⟨intent, hintent, heq⟩ := List.mem_map.1 hmem
    cases heq
    obtain ⟨s, hstate, hs⟩ := Prog.calls_inv (amid_inv (handle_quoted intent.id)) processExpiredQuotes 0
      (findExpiredIntents_quoted hfound intent hintent) c hc
    obtain ⟨call, oracle, store⟩ := c
    unfold tried? at htried
    dsimp only at htried
    split at htried
    · cases htried
      refine (transition_expires hstate hs oracle.own).trans ?_
      rw [hstate, Option.some.injEq, Option.some.injEq]
    · cases htried

/-- The row of the shop's second intent, `pj`. -/
def secondRow : PaymentIntent := { quotedRow with id := "pj", orderRef := "order-2" }

theorem duskShop_alone :
    ([{ shop with webhookUrl := some "https://shop/hook" }].map MerchantConfig.id).Nodup := List.nodup_singleton _

/-- `quotedDb` with a second intent over 100 USDC, quoted at 1, when the shop has given the address of its webhook. -/
def duskDb : Db :=
  { serve quotedDb
      [(.createIntent ⟨"shop", "order-2", 100, "USDC", "ethereum", ["USDC"]⟩, fun _ => { now := 0, uuid := "pj" }),
       (.generateQuote "pj" 1 "0xdeposit" "USDC" "ethereum", calm 1)] with
    merchants := ⟨[{ shop with webhookUrl := some "https://shop/hook" }], duskShop_alone⟩ }

theorem findExpiredIntents_dusk :
    (findExpiredIntents { now := 400000 } duskDb).1 = .ok [quotedRow, secondRow] := by
  rw [findExpiredIntents, query_pure, if_neg (by decide)]
  refine congrArg Except.ok ?_
  decide +kernel

/-- A sweep of `duskDb` during which a deposit for `pi` is detected. -/
def paidAtDusk (n : Nat) : Turn Call Oracle where
  own := { now := 400000, uuid := "d" }
  others := if n = 1
    then [(.transition "pi" .paymentAwaited [], { now := 400000 }),
      (.transition "pi" .depositDetected [], { now := 400000 })]
    else []

/-- The rule at `duskDb`: both intents are tried, and the one that has been paid is left alone. -/
theorem sweep_expires_dusk :
    (processExpiredQuotes.run (amid handle) paidAtDusk 0 duskDb).1 = .ok 2 ∧
      (processExpiredQuotes.calls (amid handle) paidAtDusk 0 duskDb).filterMap tried? =
        [("pi", .quoteExpired), ("pj", .quoteExpired)] ∧
      moved (processExpiredQuotes.calls (amid handle) paidAtDusk 0 duskDb) = ["pj"] := by
  obtain ⟨hout, htried, -⟩ := sweep_expires paidAtDusk duskDb findExpiredIntents_dusk
  exact ⟨hout, htried, by decide +kernel⟩

/-- A sweep of `duskDb` in which the database rejects the transition of `pi`. -/
def faultAtDusk (n : Nat) : Turn Call Oracle where
  own := { now := 400000, uuid := "d", fault := if n = 2 then some .updateIntent else none }

/-- The sweep returns 2 and has moved one intent, whose webhook says that it is still `QUOTED`. -/
theorem sweep_miscounts :
    ((processExpiredQuotes.run (amid handle) faultAtDusk 0 duskDb).1.toOption = some 2 ∧
      moved (processExpiredQuotes.calls (amid handle) faultAtDusk 0 duskDb) = ["pj"]) ∧
    stateOf (processExpiredQuotes.run (amid handle) faultAtDusk 0 duskDb).2.2 "pj" = some .expired ∧
      (processExpiredQuotes.run (amid handle) faultAtDusk 0 duskDb).2.2.deliveries.rows.map
        (fun d => (d.key, textField d.payload "state")) = [(("pj", .quoteExpired), some "QUOTED")] := by
  decide +kernel

end NexoraGateway.Intent
