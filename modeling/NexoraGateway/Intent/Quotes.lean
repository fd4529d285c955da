import NexoraGateway.Intent.Lifecycle
import NexoraGateway.Intent.Operations

/-!
# Concurrent quotes (service.ts:95-149, repository.ts:218-249)

`generateQuote` reads the state, overwrites the quote columns whatever the state is by then, and moves the
intent to `QUOTED` in a transaction of its own. `quotes_agree` says when the row of a quoted intent and its
`QUOTE_GENERATED` event agree and a call that throws has left the columns alone: in every run in which no
call writes the columns between the `UPDATE` and the transition of another.

* `QuoteStep` — the order of the calls, with those noted that have written the columns.
* `Quoting` — how far a call has come, and what it has written.
* `quoting_call` — one call of one task.
-/
namespace NexoraGateway.Intent

open Async Store Events

/-- The columns that `updateQuote` writes. -/
structure QuoteColumns where
  depositAddress : Option String
  depositAsset : Option String
  depositChain : Option String
  quotedRate : Option ℚ
  quoteExpiresAt : Option Time
  deriving DecidableEq

def quoteColumns (row : PaymentIntent) : QuoteColumns :=
  ⟨row.depositAddress, row.depositAsset, row.depositChain, row.quotedRate, row.quoteExpiresAt⟩

def textField (payload : Payload) (key : String) : Option String :=
  match payload.get? key with
  | some (.str s) => some s
  | _ => none

/-- The quote in the payload of a `QUOTE_GENERATED` event. -/
def quoteIn (payload : Payload) : QuoteColumns where
  depositAddress := textField payload "deposit_address"
  depositAsset := textField payload "deposit_asset"
  depositChain := textField payload "deposit_chain"
  quotedRate := match payload.get? "rate" with
    | some (.num rate) => some rate
    | _ => none
  quoteExpiresAt := match payload.get? "expires_at" with
    | some (.date expiresAt) => some expiresAt
    | _ => none

/-- The quotes in the event log of the intent. -/
def quotesOf (t : Tables) (id : Id) : List QuoteColumns :=
  (t.events.filter fun e => e.intentId = id ∧ e.eventType = .quoteGenerated).map fun e => quoteIn e.payload

/-- A quoted intent has one quote in its log, the one in its row. -/
def QuoteShown (t : Tables) (id : Id) : Prop :=
  ∀ row, t.intents.find? id = some row → row.state = .quoted → quotesOf t id = [quoteColumns row]

/-- The quote columns of the intent's row. -/
def columnsOf (id : Id) (db : Db) : Option QuoteColumns := (db.intents.find? id).map quoteColumns

/-- A call of `generateQuote` for the intent. -/
def IsQuote (id : Id) (p : Task Unit) : Prop :=
  ∃ rate depositAddress depositAsset depositChain,
    p = (Op.generateQuote id rate depositAddress depositAsset depositChain).task

/-- The tasks that have written the columns, the latest first. -/
def noteWriter (writers : List Nat) (i : Nat) : (a : Call) → Answer a → List Nat
  | .updateQuote .., .ok _ => i :: writers
  | _, _ => writers

/-- A step that no other call comes into the way of: the columns are written while the intent is `CREATED`, with a rate
that the column holds exactly; nobody has written them between a task's own `UPDATE` and its transition; and no query
of a task that has written them is rejected. -/
def QuoteStep (id : Id) (db : Db) (writers : List Nat) (i : Nat) (a : Call) (o : Oracle) : Prop :=
  match a with
  | .updateQuote _ rate .. => decimal8 rate = rate ∧ ∀ row ∈ db.intents.find? id, row.state = .created
  | .transition .. => writers.head? = some i ∧ o.fault = none
  | .getById _ | .upsertDelivery .. | .getDelivery _ | .updateDeliveryStatus .. => i ∈ writers → o.fault = none
  | _ => True

instance (id : Id) (db : Db) (writers : List Nat) (i : Nat) (o : Oracle) :
    (a : Call) → Decidable (QuoteStep id db writers i a o)
  | .updateQuote _ rate .. => inferInstanceAs (Decidable (decimal8 rate = rate ∧ ∀ row ∈ db.intents.find? id,
      row.state = .created))
  | .transition .. => inferInstanceAs (Decidable (writers.head? = some i ∧ o.fault = none))
  | .getById _ | .upsertDelivery .. | .getDelivery _ | .updateDeliveryStatus .. =>
    inferInstanceAs (Decidable (i ∈ writers → o.fault = none))
  | .now | .findById _ | .create _ | .findExpiredIntents | .pendingRetries | .fetch .. =>
    inferInstanceAs (Decidable True)

/-! ## How far a call has come -/

inductive Quoting where
  | fresh
  | wrote (columns : QuoteColumns)
  | sent
  | lost
  deriving DecidableEq

variable {id : Id} {α : Type}

/-- The columns that an `UPDATE` is given. -/
def given (rate : ℚ) (expiresAt : Time) (deposit : Option Deposit) : QuoteColumns where
  depositAddress := deposit.map Deposit.address
  depositAsset := deposit.map Deposit.asset
  depositChain := deposit.map Deposit.chain
  quotedRate := some rate
  quoteExpiresAt := some expiresAt

/-- The whole quote is written, and what has been written is announced. -/
def Quoting.ok (id : Id) : Quoting → Call → Prop
  | fresh, .findById _ | fresh, .getById _ | fresh, .now => True
  | fresh, .updateQuote i _ _ deposit => i = id ∧ deposit.isSome
  | wrote columns, .transition i eventType payload =>
    i = id ∧ eventType = .quoteGenerated ∧ quoteIn payload = columns
  | sent, .getById _ | sent, .upsertDelivery .. => True
  | sent, a => a.Tries
  | lost, _ => True
  | _, _ => False

def Quoting.next : Quoting → (a : Call) → Answer a → Quoting
  | fresh, .updateQuote _ rate expiresAt deposit, .ok _ => wrote (given rate expiresAt deposit)
  | wrote _, .transition .., .ok _ => sent
  | wrote _, _, .error _ => lost
  | sent, .fetch .., _ => sent
  | sent, _, .error _ => lost
  | g, _, _ => g

abbrev quoting (id : Id) : Protocol Call Answer Quoting := ⟨Quoting.ok id, fun _ _ => True, Quoting.next⟩

def Quoting.HasWritten : Quoting → Prop
  | wrote _ | sent => True
  | _ => False

/-- From the `UPDATE` on, a call that loses no query ends normally. -/
def Quoting.Ends (g : Quoting) (out : Except IntentError α) : Prop := g.HasWritten → ∃ x, out = .ok x

theorem lost_quotes (p : Task α) : p.Obeys (quoting id) (fun g out => Quoting.Ends g out) .lost := by
  have hstays (a : Call) : Quoting.ok id .lost a ∧ ∀ r, Quoting.next .lost a r = .lost := by
    cases a <;> exact ⟨trivial, fun _ => rfl⟩
  refine ((Prog.only_true p).obeys_still fun a _ => hstays a).mono ?_
  rintro _ out rfl
  exact nofun

theorem Quoting.next_error {a : Call} {e : IntentError} (ha : Quoting.ok id .sent a)
    (hfetch : ∀ url headers body, a ≠ .fetch url headers body) :
    Quoting.next .sent a (.error e) = .lost := by
  cases a with
  | fetch url headers body => exact absurd rfl (hfetch url headers body)
  | getById | upsertDelivery | now | getDelivery | updateDeliveryStatus => rfl
  | _ => exact ha.elim

theorem Quoting.next_ok {a : Call} {x : a.Ans} (ha : Quoting.ok id .sent a) :
    Quoting.next .sent a (.ok x) = .sent := by
  cases a with
  | getById | upsertDelivery | now | getDelivery | updateDeliveryStatus | fetch => rfl
  | _ => exact ha.elim

/-- After the transition, what follows an answered call follows any. -/
theorem sent_quotes {β : Type} {a : Call} {f : a.Ans → Task β} (ha : Quoting.ok id .sent a)
    (hfetch : ∀ url headers body, a ≠ .fetch url headers body)
    (hf : ∀ x, (f x).Obeys (quoting id) (fun g out => Quoting.Ends g out) .sent) :
    ((Prog.await a).bind f).Obeys (quoting id) (fun g out => Quoting.Ends g out) .sent := by
  refine Prog.Obeys.bind (Prog.obeys_await.2 ⟨ha, fun r _ => ?_⟩)
  change Prog.BindPost (quoting id) _ f (Quoting.next .sent a r) r
  cases r with
  | error e =>
    rw [Quoting.next_error ha hfetch]
    exact nofun
  | ok x =>
    rw [Quoting.next_ok ha]
    exact hf x

/-- A try at the delivery keeps a task after its transition, or loses it. -/
theorem tries_quotes {p : Task α} (hp : p.Only Call.Tries fun _ => True) {g : Quoting}
    (hg : g = .sent ∨ g = .lost) :
    p.Obeys (quoting id) (fun g _ => g = .sent ∨ g = .lost) g := by
  induction p generalizing g with
  | ret x => exact hg
  | throw e => exact hg
  | call a k ih =>
    rcases hg with rfl | rfl
    · have htries : a.Tries := hp.1
      refine ⟨by cases a <;> first | exact htries | exact htries.elim,
        fun r _ => ih r (hp.2 r fun _ _ => trivial) ?_⟩
      change Quoting.next .sent a r = .sent ∨ Quoting.next .sent a r = .lost
      cases a <;> cases r <;> simp [Quoting.next]
    · refine ⟨by cases a <;> trivial, fun r _ => ih r (hp.2 r fun _ _ => trivial) (.inr ?_)⟩
      cases a <;> rfl

theorem ended_quotes {x : α} : (Prog.ret x : Task α).Obeys (quoting id)
    (fun g out => Quoting.Ends g out) .sent :=
  fun _ => ⟨x, rfl⟩

theorem attemptDelivery_quotes (deliveryId : Id) :
    (attemptDelivery deliveryId).Obeys (quoting id) (fun g out => Quoting.Ends g out) .sent := by
  have hupdate (status : DeliveryStatus) (attemptCount : Nat) (nextRetryAt : Option Time)
    (lastError : Option String) :
      (Task.updateDeliveryStatus deliveryId status attemptCount nextRetryAt lastError).Obeys (quoting id)
        (fun g out => Quoting.Ends g out) .sent := by
    rw [← Prog.bind_ret (Task.updateDeliveryStatus ..)]
    exact sent_quotes trivial nofun fun _ => ended_quotes
  refine sent_quotes trivial nofun fun delivery => ?_
  cases delivery with
  | none => exact ended_quotes
  | some delivery =>
    dsimp only
    split
    · exact sent_quotes trivial nofun fun now => hupdate ..
    · refine Prog.Obeys.tryCatch (Prog.Obeys.mono (tries_quotes ?_ (.inl rfl)) fun g out hg => ?_)
      · refine Prog.Only.bind (Prog.Only.await trivial) fun r => ?_
        obtain ⟨status, statusText⟩ := r
        dsimp only
        split
        · exact Prog.Only.await trivial
        · exact Prog.Only.throw trivial
      · cases out with
        | ok x => exact fun _ => ⟨x, rfl⟩
        | error e =>
          rcases hg with rfl | rfl
          · change Prog.Obeys _ _ _ (ite _ _ _)
            split
            · exact hupdate ..
            · exact sent_quotes trivial nofun fun now => hupdate ..
          · exact lost_quotes _

theorem deliverWebhook_quotes (intent : PaymentIntent) (eventType : EventType) (data : Payload) :
    (deliverWebhook intent eventType data).Obeys (quoting id) (fun g out => Quoting.Ends g out) .sent := by
  refine sent_quotes trivial nofun fun merchant => ?_
  dsimp only
  split
  · exact ended_quotes
  · exact sent_quotes trivial nofun fun now => sent_quotes trivial nofun attemptDelivery_quotes

/-- A call that only reads, before the `UPDATE`. -/
theorem fresh_quotes {β : Type} {a : Call} {f : a.Ans → Task β} (hok : Quoting.ok id .fresh a)
    (hnext : ∀ r, Quoting.next .fresh a r = .fresh)
    (hf : ∀ x, (f x).Obeys (quoting id) (fun g out => Quoting.Ends g out) .fresh) :
    ((Prog.await a).bind f).Obeys (quoting id) (fun g out => Quoting.Ends g out) .fresh := by
  refine Prog.Obeys.bind (Prog.obeys_await.2 ⟨hok, fun r _ => ?_⟩)
  change Prog.BindPost (quoting id) _ f (Quoting.next .fresh a r) r
  rw [hnext r]
  cases r with
  | error e => exact nofun
  | ok x => exact hf x

theorem generateQuote_quotes (rate : ℚ) (depositAddress depositAsset depositChain : String) :
    (generateQuote id rate depositAddress depositAsset depositChain).Obeys (quoting id)
      (fun g out => Quoting.Ends g out) .fresh := by
  refine fresh_quotes trivial (fun _ => rfl) fun intent => ?_
  cases intent with
  | none => exact nofun
  | some intent =>
    dsimp only
    split
    · exact nofun
    · refine fresh_quotes trivial (fun _ => rfl) fun merchant => fresh_quotes trivial (fun _ => rfl)
        fun now => ?_
      refine Prog.Obeys.bind (Prog.obeys_await.2 ⟨⟨rfl, rfl⟩, fun r _ => ?_⟩)
      cases r with
      | error e => exact nofun
      | ok _ =>
        refine Prog.Obeys.bind (Prog.obeys_await.2 ⟨⟨rfl, rfl, rfl⟩, fun r _ => ?_⟩)
        cases r with
        | error e => exact nofun
        | ok transitioned =>
          refine Prog.Obeys.bind ((deliverWebhook_quotes transitioned _ _).mono fun g out hends => ?_)
          cases out with
          | error e => exact fun hg => nomatch hends hg
          | ok _ => exact fun _ => ⟨_, rfl⟩

/-- **A quote keeps to its protocol.** -/
theorem isQuote_quotes {p : Task Unit} (hp : IsQuote id p) :
    p.Obeys (quoting id) (fun g out => Quoting.Ends g out) .fresh := by
  obtain ⟨rate, depositAddress, depositAsset, depositChain, rfl⟩ := hp
  change Prog.Obeys _ _ _ ((generateQuote id rate depositAddress depositAsset depositChain).bind fun _ =>
    Prog.ret ())
  refine Prog.Obeys.bind ((generateQuote_quotes ..).mono fun g out hends => ?_)
  cases out with
  | ok _ => exact fun _ => ⟨(), rfl⟩
  | error e =>
    intro hg
    obtain ⟨_, h⟩ := hends hg
    cases h

/-! ## One call -/

variable {o : Oracle} {db : Db} {row : PaymentIntent} {t : Tables}

/-- What holds of the intent and of the calls that are under way. -/
structure QuoteInv (id : Id) (writers : List Nat) (db : Db) (gs : List Quoting) : Prop where
  shown : QuoteShown db.toTables id
  unquoted : ∀ row, db.intents.find? id = some row → row.state = .created → quotesOf db.toTables id = []
  kept : .lost ∉ gs
  noted : ∀ i g, gs[i]? = some g → g ≠ .fresh → i ∈ writers
  /-- The columns are those of the task that has written them last. -/
  latest : ∀ i columns, writers.head? = some i → gs[i]? = some (.wrote columns) →
    ∃ row, db.intents.find? id = some row ∧ row.state = .created ∧ quoteColumns row = columns
  quoted : .sent ∈ gs → ∃ row, db.intents.find? id = some row ∧ row.state = .quoted

/-- A call that leaves the intent tables alone and keeps its task where it is. -/
theorem QuoteInv.same {db' : Db} {writers : List Nat} {gs : List Quoting} (h : QuoteInv id writers db gs)
    (htables : db'.toTables = db.toTables) : QuoteInv id writers db' gs := by
  obtain ⟨hshown, hunquoted, hkept, hnoted, hlatest, hquoted⟩ := h
  rw [← htables] at hshown hunquoted hlatest hquoted
  exact ⟨hshown, hunquoted, hkept, hnoted, hlatest, hquoted⟩

/-- A call begins. -/
theorem QuoteInv.spawn {writers : List Nat} {gs : List Quoting} (h : QuoteInv id writers db gs) :
    QuoteInv id writers db (gs ++ [.fresh]) := by
  have hold {i : Nat} {g : Quoting} (hi : (gs ++ [.fresh])[i]? = some g) (hg : g ≠ .fresh) : gs[i]? = some g := by
    rcases lt_or_ge i gs.length with hlt | hge
    · rwa [List.getElem?_append_left hlt] at hi
    · rw [List.getElem?_append_right hge] at hi
      exact absurd (List.mem_singleton.1 (List.mem_of_getElem? hi)) hg
  exact ⟨h.shown, h.unquoted, by simpa using h.kept, fun i g hi hg => h.noted i g (hold hi hg) hg,
    fun i columns hhead hi => h.latest i columns hhead (hold hi nofun), by simpa using h.quoted⟩

theorem quotesOf_record (eventType : EventType) (payload : Payload) (hrow : t.intents.find? id = some row) :
    quotesOf (t.record o row eventType payload) id =
      quotesOf t id ++ if eventType = .quoteGenerated then [quoteIn payload] else [] := by
  obtain ⟨-, rfl⟩ := Table.find?_eq_some.1 hrow
  unfold quotesOf Tables.record
  by_cases h : eventType = .quoteGenerated <;> simp [List.filter_append, h]

/-- A webhook call with no query rejected is answered. -/
theorem handle_answers {a : Call} (ha : Quoting.ok id .sent a) (hfault : o.fault = none)
    (hfetch : ∀ url headers body, a ≠ .fetch url headers body) : ∃ x, (handle a o db).1 = .ok x := by
  cases hout : (handle a o db).1 with
  | ok x => exact ⟨x, rfl⟩
  | error e =>
    exfalso
    cases a with
    | fetch url headers body => exact hfetch url headers body rfl
    | now => cases hout
    | upsertDelivery => simp [upsertDelivery_error hout] at hfault
    | getById | getDelivery | updateDeliveryStatus =>
      rcases query_rejected hout with ⟨h, -⟩ | h
      · simp [h] at hfault
      · cases h
    | _ => exact ha.elim

theorem mem_focus {g : Quoting} {gs₁ gs₂ : List Quoting} : g ∈ gs₁ ++ g :: gs₂ :=
  List.mem_append_right _ List.mem_cons_self

theorem getElem?_focus {g : Quoting} {gs₁ gs₂ : List Quoting} : (gs₁ ++ g :: gs₂)[gs₁.length]? = some g := by
  simp

/-- Replacing one call's phase by one that is not `g` leaves the others in `g`. -/
theorem mem_replaced {g x y : Quoting} {gs₁ gs₂ : List Quoting} (h : g ∈ gs₁ ++ y :: gs₂) (hy : y ≠ g) :
    g ∈ gs₁ ++ x :: gs₂ := by
  simp only [List.mem_append, List.mem_cons] at h ⊢
  rcases h with h | rfl | h
  · exact .inl h
  · exact absurd rfl hy
  · exact .inr (.inr h)

theorem getElem?_replaced {x y g : Quoting} {gs₁ gs₂ : List Quoting} {i : Nat} (hi : (gs₁ ++ y :: gs₂)[i]? = some g) :
    i = gs₁.length ∧ g = y ∨ (gs₁ ++ x :: gs₂)[i]? = some g := by
  have hset : gs₁ ++ x :: gs₂ = (gs₁ ++ y :: gs₂).set gs₁.length x := by simp
  by_cases heq : gs₁.length = i
  · subst heq
    exact .inl ⟨rfl, Option.some.inj (hi.symm.trans getElem?_focus)⟩
  · exact .inr (by rwa [hset, List.getElem?_set_ne heq])

section
variable {writers : List Nat} {gs₁ gs₂ : List Quoting}

theorem quoteColumns_requote {rate : ℚ} {expiresAt : Time} {deposit : Option Deposit} (hrate : decimal8 rate = rate)
    (hdeposit : deposit.isSome) :
    quoteColumns (requote o rate expiresAt deposit row) = given rate expiresAt deposit := by
  obtain ⟨deposit, rfl⟩ := Option.isSome_iff_exists.1 hdeposit
  simp only [quoteColumns, requote, given, hrate, Option.map_some, Option.some_or]

/-- The columns are written while the intent is `CREATED`. -/
theorem update_call {rate : ℚ} {expires : Time} {deposit : Option Deposit} {intent : PaymentIntent}
    (hinv : QuoteInv id writers db (gs₁ ++ .fresh :: gs₂)) (hdeposit : deposit.isSome)
    (hstep : QuoteStep id db writers gs₁.length (.updateQuote id rate expires deposit) o)
    (hout : (updateQuote o id rate expires deposit db).1 = .ok intent) :
    QuoteInv id (gs₁.length :: writers) (updateQuote o id rate expires deposit db).2
      (gs₁ ++ .wrote (given rate expires deposit) :: gs₂) := by
  obtain ⟨row, hrow, -, hdb⟩ := updateQuote_ok hout
  obtain ⟨hrate, hfound⟩ := hstep
  have hcreated : row.state = .created := hfound row hrow
  have hrow' := requoted_row hrow hout
  rw [hdb] at hrow' ⊢
  refine ⟨?_, fun _ _ _ => hinv.unquoted row hrow hcreated, fun h => ?_, fun i g hi hg => ?_,
    fun i columns hhead hi => ?_, fun h => ?_⟩
  · intro row' h hquoted
    obtain rfl : requote o rate expires deposit row = row' := Option.some.inj (hrow'.symm.trans h)
    rw [requote_state, hcreated] at hquoted
    cases hquoted
  · exact hinv.kept (mem_replaced h nofun)
  · rcases getElem?_replaced (x := .fresh) hi with ⟨rfl, -⟩ | hi
    · exact List.mem_cons_self
    · exact List.mem_cons_of_mem _ (hinv.noted i g hi hg)
  · obtain rfl : gs₁.length = i := Option.some.inj hhead
    obtain rfl : given rate expires deposit = columns :=
      Quoting.wrote.inj (Option.some.inj (getElem?_focus.symm.trans hi))
    exact ⟨_, hrow', hcreated, quoteColumns_requote hrate hdeposit⟩
  · obtain ⟨row', hrow'', hquoted⟩ := hinv.quoted (mem_replaced h nofun)
    obtain rfl : row = row' := Option.some.inj (hrow.symm.trans hrow'')
    rw [hcreated] at hquoted
    cases hquoted

/-- The transition announces the columns that the row has. -/
theorem quote_call {payload : Payload} (hinv : QuoteInv id writers db (gs₁ ++ .wrote (quoteIn payload) :: gs₂))
    (hstep : QuoteStep id db writers gs₁.length (.transition id .quoteGenerated payload) o) :
    (∃ intent, (transition o id .quoteGenerated payload db).1 = .ok intent) ∧
      QuoteInv id writers (transition o id .quoteGenerated payload db).2 (gs₁ ++ .sent :: gs₂) := by
  obtain ⟨hhead, hfault⟩ : writers.head? = some gs₁.length ∧ o.fault = none := hstep
  -- nobody has written the columns since
  obtain ⟨row, hrow, hcreated, hcolumns⟩ := hinv.latest _ _ hhead getElem?_focus
  rcases transition_cases o .quoteGenerated payload hrow with ⟨s, hs, -⟩ | ⟨hedge, -⟩ | ⟨-, htransition⟩
  · rw [hfault] at hs
    cases hs
  · rw [hcreated] at hedge
    exact absurd (by decide) hedge
  have hfind := Tables.find?_recorded o .quoteGenerated payload hrow
  have hquotes := quotesOf_record (o := o) .quoteGenerated payload hrow
  rw [hinv.unquoted row hrow hcreated, if_pos rfl, List.nil_append] at hquotes
  rw [htransition]
  refine ⟨⟨_, rfl⟩, ?_, ?_, fun h => hinv.kept (mem_replaced h nofun), fun i g hi hg => ?_,
    fun i columns hhead' hi => ?_, fun _ => ⟨_, hfind, rfl⟩⟩
  · intro row' h _
    obtain rfl := Option.some.inj (hfind.symm.trans h)
    exact hquotes.trans (congrArg (fun c => [c]) hcolumns.symm)
  · intro row' h hstate
    obtain rfl := Option.some.inj (hfind.symm.trans h)
    cases hstate
  · rcases getElem?_replaced (x := .wrote (quoteIn payload)) hi with ⟨rfl, -⟩ | hi
    · exact hinv.noted _ _ getElem?_focus nofun
    · exact hinv.noted i g hi hg
  · obtain rfl : gs₁.length = i := Option.some.inj (hhead.symm.trans hhead')
    cases getElem?_focus.symm.trans hi

/-- After the transition nothing is written to the intent, and no query is rejected. -/
theorem sent_call {a : Call} (hinv : QuoteInv id writers db (gs₁ ++ .sent :: gs₂)) (hok : Quoting.ok id .sent a)
    (hstep : QuoteStep id db writers gs₁.length a o) :
    QuoteInv id (noteWriter writers gs₁.length a (handle a o db).1) (handle a o db).2 (gs₁ ++ .sent :: gs₂) ∧
      Quoting.next .sent a (handle a o db).1 = .sent := by
  have hwriter : gs₁.length ∈ writers := hinv.noted _ _ getElem?_focus nofun
  have hkeeps : a.KeepsIntents ∧ noteWriter writers gs₁.length a (handle a o db).1 = writers := by
    cases a with
    | getById | upsertDelivery | now | getDelivery | updateDeliveryStatus | fetch => exact ⟨trivial, rfl⟩
    | _ => exact hok.elim
  rw [hkeeps.2]
  refine ⟨hinv.same ((handle_effect a o db).keepsIntents hkeeps.1), ?_⟩
  by_cases hfetch : ∃ url headers body, a = .fetch url headers body
  · obtain ⟨url, headers, body, rfl⟩ := hfetch
    rfl
  · have hne (url headers body) : a ≠ .fetch url headers body := fun h => hfetch ⟨url, headers, body, h⟩
    have hanswered : ∃ x, (handle a o db).1 = .ok x := by
      cases a with
      | now => exact ⟨_, rfl⟩
      | fetch url headers body => exact absurd rfl (hne url headers body)
      | getById | upsertDelivery | getDelivery | updateDeliveryStatus => exact handle_answers hok (hstep hwriter) hne
      | _ => exact hok.elim
    obtain ⟨x, hx⟩ := hanswered
    rw [hx]
    exact Quoting.next_ok hok

/-- Before the `UPDATE` nothing is written, and an answered `UPDATE` ends the phase. -/
theorem fresh_call {a : Call} (hinv : QuoteInv id writers db (gs₁ ++ .fresh :: gs₂)) (hok : Quoting.ok id .fresh a)
    (hstep : QuoteStep id db writers gs₁.length a o) :
    QuoteInv id (noteWriter writers gs₁.length a (handle a o db).1) (handle a o db).2
        (gs₁ ++ Quoting.next .fresh a (handle a o db).1 :: gs₂) ∧
      ((Quoting.next .fresh a (handle a o db).1).HasWritten ∨ (handle a o db).2 = db) := by
  cases a with
  | updateQuote i rate expires deposit =>
    obtain ⟨rfl, hdeposit⟩ := hok
    cases hout : (updateQuote o i rate expires deposit db).1 with
    | ok intent =>
      simp only [handle, hout]
      exact ⟨update_call hinv hdeposit hstep hout, .inl trivial⟩
    | error e =>
      have hsame : (handle (.updateQuote i rate expires deposit) o db).2 = db := handle_error hout
      simp only [handle, hout] at hsame ⊢
      rw [hsame]
      exact ⟨hinv, .inr rfl⟩
  | findById i =>
    have hsame : (handle (.findById i) o db).2 = db := query_read _
    exact ⟨hinv.same (congrArg Db.toTables hsame), .inr hsame⟩
  | getById i =>
    have hsame : (handle (.getById i) o db).2 = db := query_read _
    exact ⟨hinv.same (congrArg Db.toTables hsame), .inr hsame⟩
  | now => exact ⟨hinv, .inr rfl⟩
  | _ => exact hok.elim

/-- **One call of one task.** -/
theorem quoting_call {g : Quoting} {a : Call} (hinv : QuoteInv id writers db (gs₁ ++ g :: gs₂))
    (hok : Quoting.ok id g a) (hstep : QuoteStep id db writers gs₁.length a o) :
    QuoteInv id (noteWriter writers gs₁.length a (handle a o db).1) (handle a o db).2
        (gs₁ ++ Quoting.next g a (handle a o db).1 :: gs₂) ∧
      (g.HasWritten ∨ columnsOf id (handle a o db).2 ≠ columnsOf id db →
        (Quoting.next g a (handle a o db).1).HasWritten) := by
  cases g with
  | lost => exact absurd mem_focus hinv.kept
  | sent =>
    obtain ⟨hinv', hnext⟩ := sent_call hinv hok hstep
    rw [hnext]
    exact ⟨hinv', fun _ => trivial⟩
  | wrote columns =>
    cases a with
    | transition i eventType payload =>
      obtain ⟨rfl, rfl, rfl⟩ := hok
      obtain ⟨⟨intent, hout⟩, hinv'⟩ := quote_call hinv hstep
      simp only [handle, hout]
      exact ⟨hinv', fun _ => trivial⟩
    | _ => exact hok.elim
  | fresh =>
    obtain ⟨hinv', hnext | hsame⟩ := fresh_call hinv hok hstep
    · exact ⟨hinv', fun _ => hnext⟩
    · refine ⟨hinv', ?_⟩
      rintro (h | h)
      · exact h.elim
      · exact absurd (congrArg (columnsOf id) hsame) h

end

/-! ## Every run -/

/-- A `CREATED` intent has no quote in its log: nothing leads back to `CREATED`. -/
theorem created_unquoted (hc : Consistent Valid t) (hrow : t.intents.find? id = some row)
    (hstate : row.state = .created) :
    quotesOf t id = [] := by
  obtain ⟨hmem, rfl⟩ := Table.find?_eq_some.1 hrow
  have hlog := hc.explained row hmem
  rw [hstate] at hlog
  by_contra hne
  obtain ⟨c, hquote⟩ := List.exists_mem_of_ne_nil _ hne
  obtain ⟨e, he, -⟩ := List.mem_map.1 hquote
  obtain ⟨hevents, hthis⟩ := List.mem_filter.1 he
  simp only [decide_eq_true_eq] at hthis
  have hlogged : (e.version, EventType.quoteGenerated) ∈ t.logOf row.id :=
    List.mem_map.2 ⟨e, List.mem_filter.2 ⟨hevents, by simpa using hthis.1⟩, by rw [hthis.2]⟩
  generalize t.logOf row.id = log at hlog hlogged
  have hlast := hlog.last
  rcases List.eq_nil_or_concat log with rfl | ⟨init, x, rfl⟩
  · cases hlogged
  · rw [List.concat_eq_append] at hlog hlogged hlast
    simp only [List.getLast?_append, List.getLast?_singleton, Option.some_or, Option.map_some,
      Option.some.injEq] at hlast
    rcases List.eq_nil_or_concat init with rfl | ⟨init, y, rfl⟩
    · obtain rfl := List.mem_singleton.1 hlogged
      cases hlast
    · rw [List.concat_eq_append, List.append_assoc] at hlog
      have hedge : Valid ((machine Valid).target y.2) ((machine Valid).target x.2) := hlog.edge rfl
      rw [hlast] at hedge
      revert hedge
      generalize (machine Valid).target y.2 = s
      cases s <;> decide

/-- **The row of a quoted intent shows the quote in its log, and a call that throws has left the columns
alone**, in every run of concurrent `generateQuote` calls in which none writes the columns between the `UPDATE` and the
transition of another, or after them, and none is rejected half-way. -/
theorem quotes_agree (w : Service) (htasks : w.tasks = []) (hc : Consistent Valid w.store.toTables)
    (hshown : QuoteShown w.store.toTables id) (cs : List (Choice Call Answer IntentError Unit Oracle))
    (hquotes : ∀ p, .spawn p ∈ cs → IsQuote id p)
    (hsteps : Runs.Along (Pool.noted handle noteWriter) (Pool.MeetsNoted (QuoteStep id)) (w, []) cs) :
    QuoteShown (w.exec handle cs).store.toTables id ∧
      ∀ i, w.ChangedBy handle (columnsOf id) cs i → (w.exec handle cs).threw i = false := by
  have hstart : QuoteInv id [] w.store [] :=
    ⟨hshown, fun row hrow => created_unquoted hc hrow, nofun, nofun, nofun, nofun⟩
  have hinit : w.TrackInv (quoting id) (fun g out => Quoting.Ends g out) (QuoteInv id []) Quoting.HasWritten
      fun _ => False :=
    ⟨[], by rw [htasks]; exact .nil, hstart, nofun⟩
  have hspawn (p : Task Unit) (hp : IsQuote id p) :
      ∃ g, p.Obeys (quoting id) (fun g out => Quoting.Ends g out) g ∧
        ∀ writers (db : Db) gs, QuoteInv id writers db gs → QuoteInv id writers db (gs ++ [g]) :=
    ⟨.fresh, isQuote_quotes hp, fun _ _ _ hinv => hinv.spawn⟩
  have htrack := Pool.noted_track noteWriter (s := (w, [])) (f := columnsOf id) hspawn
    (fun _ _ _ _ _ _ _ hinv hok hstep => ⟨trivial, quoting_call hinv hok hstep⟩) hinit hquotes hsteps
  refine ⟨?_, fun i hi => htrack.not_threw (fun g e hg hends => ?_) (.inr hi)⟩
  · obtain ⟨gs, -, hinv, -⟩ := htrack
    exact hinv.shown
  · obtain ⟨x, hx⟩ := hends hg
    cases hx

/-- The shop's intent `pi`, created and not quoted. -/
def createdService : Service :=
  ⟨serve shopDb [(.createIntent ⟨"shop", "order-1", 100, "USDC", "ethereum", ["USDC"]⟩, calm 0)], []⟩

/-- The rule at `pi`: one call, run to its end. -/
theorem quotes_agree_alone :
    quotesOf (createdService.exec handle
        (alone 0 (.generateQuote "pi" 1 "0xdeposit" "USDC" "ethereum") 1)).store.toTables "pi" =
      [⟨some "0xdeposit", some "USDC", some "ethereum", some 1, some 300001⟩] := by
  have hempty : Consistent Valid shopDb.toTables := Consistent.empty
  have hshown : QuoteShown createdService.store.toTables "pi" := by
    intro row hrow hquoted
    have hstate : stateOf createdService.store "pi" = some .created := by decide +kernel
    rw [stateOf, hrow, Option.map_some, hquoted] at hstate
    cases hstate
  have hquoted : ((createdService.exec handle
      (alone 0 (.generateQuote "pi" 1 "0xdeposit" "USDC" "ethereum") 1)).store.intents.find? "pi").map
      (fun row => (row.state, quoteColumns row)) =
        some (.quoted, ⟨some "0xdeposit", some "USDC", some "ethereum", some 1, some 300001⟩) := by decide +kernel
  obtain ⟨row, hrow, hcolumns⟩ := Option.map_eq_some_iff.1 hquoted
  obtain ⟨hstate, hcolumns⟩ := Prod.mk.inj hcolumns
  rw [← hcolumns]
  refine (quotes_agree createdService rfl (serve_consistent _ hempty) hshown _ (fun p hp => ?_)
    (by decide +kernel)).1 row hrow hstate
  simp only [alone, List.mem_cons, List.mem_replicate, Choice.spawn.injEq, reduceCtorEq, and_false,
    or_false] at hp
  exact ⟨1, "0xdeposit", "USDC", "ethereum", hp⟩

/-- Two quotes for `pi`: each writes its columns with its fourth call, then the first announces its own. -/
def overlapping : List (Choice Call Answer IntentError Unit Oracle) :=
  [.spawn (Op.generateQuote "pi" 1 "0xfirst" "USDC" "ethereum").task,
   .spawn (Op.generateQuote "pi" 2 "0xsecond" "USDC" "ethereum").task] ++
  List.replicate 4 (.step 0 (calm 1 0)) ++ List.replicate 4 (.step 1 (calm 2 0)) ++
  [.step 0 (calm 3 0), .step 1 (calm 4 0)]

/-- The row of the quoted `pi` has the second quote and its event the first, and the second call, which wrote
over the first one's columns, has thrown. -/
theorem quotes_overlap :
    let w := createdService.exec handle overlapping
    columnsOf "pi" (createdService.exec handle (overlapping.take 9)).store =
      some ⟨some "0xfirst", some "USDC", some "ethereum", some 1, some 300001⟩ ∧
    columnsOf "pi" (createdService.exec handle (overlapping.take 10)).store =
      some ⟨some "0xsecond", some "USDC", some "ethereum", some 2, some 300002⟩ ∧
    stateOf w.store "pi" = some .quoted ∧
    columnsOf "pi" w.store = some ⟨some "0xsecond", some "USDC", some "ethereum", some 2, some 300002⟩ ∧
    quotesOf w.store.toTables "pi" = [⟨some "0xfirst", some "USDC", some "ethereum", some 1, some 300001⟩] ∧
    w.threw 1 = true := by
  refine ⟨?_, ?_, ?_, ?_, ?_, ?_⟩ <;> decide +kernel

end NexoraGateway.Intent
