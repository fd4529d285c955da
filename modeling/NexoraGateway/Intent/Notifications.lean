import NexoraGateway.Intent.Heralds

/-!
# Transitions and their webhooks under crashes (service.ts:188-430, webhook-delivery.service.ts:35-101)

The transition and the `webhook_deliveries` row are two transactions. `op_notifies_iff` says exactly which crashes
and failures leave a committed transition without its row, however often the operation is repeated: those between
the two.

* `handle_row`, `handle_outer` — what one call does to the intent and to the row.
* `announced_upTo` — what happens after the transition.
* `done_upTo` — nothing more is announced.
-/
namespace NexoraGateway.Intent

open Async Store

variable {o : Oracle} {ω : Nat → Oracle} {n k : Nat} {db : Db} {row : PaymentIntent} {id : Id}

/-- There is a webhook delivery for the event of the intent. -/
def Notified (db : Db) (id : Id) (eventType : EventType) : Prop :=
  (id, eventType) ∈ db.deliveries.rows.map WebhookDelivery.key

instance (db : Db) (id : Id) (eventType : EventType) : Decidable (Notified db id eventType) :=
  inferInstanceAs (Decidable (_ ∈ _))

/-! ## One call -/

/-- A call leaves an intent in its state, or is a transition along a valid edge. -/
theorem handle_row (hrow : db.intents.find? id = some row) (a : Call) (o : Oracle) :
    ∃ row', (handle a o db).2.intents.find? id = some row' ∧ row'.merchantId = row.merchantId ∧
      row'.targetAmount = row.targetAmount ∧
      (row'.state = row.state ∨ ∃ eventType payload, a = .transition id eventType payload ∧
        Valid row.state (getExpectedNextState eventType) ∧ row'.state = getExpectedNextState eventType) := by
  have heffect := handle_effect a o db
  generalize (handle a o db).2 = db' at heffect ⊢
  obtain ⟨t', merchants', deliveries'⟩ := db'
  cases heffect with
  | unchanged => exact ⟨row, hrow, rfl, rfl, .inl rfl⟩
  | @created data new intents now hstate hversion hinsert =>
    refine ⟨row, ?_, rfl, rfl, .inl rfl⟩
    have hne : new.id ≠ id := by
      rintro rfl
      have hfresh := Table.insert?_isSome.1 (hinsert ▸ rfl : (db.intents.insert? new).isSome)
      rw [hrow] at hfresh
      cases hfresh
    exact (Table.find?_insert? hinsert id).trans (by rw [if_neg hne, hrow])
  | @transitioned id' eventType payload row' o hrow' hedge =>
    have hfind := Tables.find?_record o eventType payload hrow' id
    by_cases hid : id = id'
    · subst hid
      obtain rfl : row = row' := Option.some.inj (hrow.symm.trans hrow')
      rw [if_pos rfl] at hfind
      exact ⟨_, hfind, rfl, rfl, .inr ⟨eventType, payload, rfl, hedge, rfl⟩⟩
    · rw [if_neg hid, hrow] at hfind
      exact ⟨row, hfind, rfl, rfl, .inl rfl⟩
  | @requoted id' rate expires deposit o =>
    refine ⟨if row.id = id' then requote o rate expires deposit row else row, ?_, ?_⟩
    · change (db.intents.updateWhere _ _ (requote_id o rate expires deposit)).find? id = _
      simp [Table.find?_updateWhere, hrow]
    · split <;> exact ⟨rfl, rfl, .inl rfl⟩

/-- An `UPDATE` of deliveries keeps their keys. -/
theorem notified_of_update {db db' : Db} {eventType : EventType} {p : WebhookDelivery → Bool}
    {f : WebhookDelivery → WebhookDelivery}
    (hrows : db'.deliveries.rows = db.deliveries.rows.map fun d => if p d then f d else d)
    (hf : ∀ d, (f d).key = d.key) : Notified db' id eventType ↔ Notified db id eventType := by
  have hkey : (WebhookDelivery.key ∘ fun d => if p d then f d else d) = WebhookDelivery.key := by
    funext d
    by_cases hd : p d <;> simp [hd, hf]
  unfold Notified
  rw [hrows, List.map_map, hkey]

/-- An upsert that is answered leaves the row of its event, and no other new one. -/
theorem upsertDelivery_ok {eventType : EventType} {url : String} {payload : Payload} {deliveryId : Id}
    (h : (upsertDelivery o id eventType url payload db).1 = .ok deliveryId) :
    (upsertDelivery o id eventType url payload db).2.merchants = db.merchants ∧
      ∀ id' eventType', Notified (upsertDelivery o id eventType url payload db).2 id' eventType' ↔
        Notified db id' eventType' ∨ id' = id ∧ eventType' = eventType := by
  rcases upsertDelivery_answered h with ⟨deliveries, -, hins, hdb⟩ | ⟨d, hfind, -, hdb⟩
  · rw [hdb]
    refine ⟨rfl, fun id' eventType' => ?_⟩
    simp only [Notified, Table.rows_insert? hins, List.map_append, List.mem_append]
    simp [WebhookDelivery.key]
  · rw [hdb]
    refine ⟨rfl, fun id' eventType' => ?_⟩
    refine (notified_of_update rfl (by intro d; rfl)).trans (or_iff_left_of_imp ?_).symm
    rintro ⟨rfl, rfl⟩
    obtain ⟨hmem, hkey⟩ := Table.find?_eq_some.1 hfind
    exact List.mem_map.2 ⟨d, hmem, hkey⟩

/-- Merchants are only read, and only the upsert of the delivery for an event adds it. -/
theorem handle_outer (a : Call) (o : Oracle) (db : Db) :
    (handle a o db).2.merchants = db.merchants ∧
      ∀ eventType, (∀ url payload, a ≠ .upsertDelivery id eventType url payload) →
        (Notified (handle a o db).2 id eventType ↔ Notified db id eventType) := by
  cases hout : (handle a o db).1 with
  | error e =>
    rw [handle_error hout]
    exact ⟨rfl, fun _ _ => Iff.rfl⟩
  | ok x =>
    cases a with
    | create data =>
      obtain ⟨row, intents, -, -, -, -, -, hdb⟩ := create_ok hout
      simp only [handle, hdb]
      exact ⟨trivial, fun _ _ => Iff.rfl⟩
    | transition id' eventType' payload =>
      obtain ⟨row, -, -, -, hdb⟩ := transition_ok hout
      simp only [handle, hdb]
      exact ⟨trivial, fun _ _ => Iff.rfl⟩
    | updateQuote id' rate expires deposit =>
      obtain ⟨row, -, -, hdb⟩ := updateQuote_ok hout
      simp only [handle, hdb]
      exact ⟨trivial, fun _ _ => Iff.rfl⟩
    | upsertDelivery id' eventType' url payload =>
      obtain ⟨hmerchants, hdeliveries⟩ := upsertDelivery_ok hout
      refine ⟨hmerchants, fun eventType ha => (hdeliveries id eventType).trans (or_iff_left ?_)⟩
      rintro ⟨rfl, rfl⟩
      exact ha url payload rfl
    | updateDeliveryStatus id' status attemptCount next error =>
      obtain ⟨db', hdb, hbody⟩ := query_ok hout
      have hquery : (handle (.updateDeliveryStatus id' status attemptCount next error) o db).2 = db' := hdb
      cases hbody
      rw [hquery]
      exact ⟨rfl, fun eventType _ => notified_of_update rfl (by intro d; rfl)⟩
    | now => exact ⟨rfl, fun _ _ => Iff.rfl⟩
    | fetch url headers body =>
      simp only [handle]
      split <;> exact ⟨rfl, fun _ _ => Iff.rfl⟩
    | findById | findExpiredIntents | getById | getDelivery | pendingRetries =>
      simp [handle, findById, findExpiredIntents, getById, getDelivery, pendingRetries, query_read]

theorem findById_answered {intent : PaymentIntent} (h : (findById o id db).1 = .ok (some intent)) :
    (∃ row ∈ (findById o id db).2.intents.rows, intent = mapRow row) ∧ intent.id = id := by
  obtain ⟨db', hdb, hbody⟩ := query_ok h
  have hquery : (findById o id db).2 = db' := hdb
  rw [hquery]
  obtain ⟨hfind, rfl⟩ := Prod.mk.inj (Except.ok.inj hbody)
  obtain ⟨row, hrow, rfl⟩ := Option.map_eq_some_iff.1 hfind
  obtain ⟨hrows, hid⟩ := Table.find?_eq_some.1 hrow
  exact ⟨⟨row, hrows, rfl⟩, hid⟩

theorem create_answered {data : NewPaymentIntent} {intent : PaymentIntent}
    (h : (create o data db).1 = .ok intent) :
    ∃ row ∈ (create o data db).2.intents.rows, intent = mapRow row := by
  obtain ⟨row, intents, rfl, -, -, -, hins, hdb⟩ := create_ok h
  refine ⟨row, ?_, rfl⟩
  rw [hdb, Table.rows_insert? hins]
  exact List.mem_append_right _ (List.mem_singleton_self row)

theorem transition_answered {eventType : EventType} {payload : Payload} {intent : PaymentIntent}
    (h : (transition o id eventType payload db).1 = .ok intent) :
    (∃ row ∈ (transition o id eventType payload db).2.intents.rows, intent = mapRow row) ∧ intent.id = id := by
  obtain ⟨row, hrow, -, rfl, hdb⟩ := transition_ok h
  rw [hdb]
  obtain ⟨hrows, hid⟩ := Table.find?_eq_some.1 (Tables.find?_recorded o eventType payload hrow)
  exact ⟨⟨_, hrows, rfl⟩, hid⟩

theorem updateQuote_answered {rate : ℚ} {expires : Time} {deposit : Option Deposit} {intent : PaymentIntent}
    (h : (updateQuote o id rate expires deposit db).1 = .ok intent) :
    (∃ row ∈ (updateQuote o id rate expires deposit db).2.intents.rows, intent = mapRow row) ∧
      intent.id = id := by
  obtain ⟨row, hrow, rfl, -⟩ := updateQuote_ok h
  obtain ⟨hrows, hid⟩ := Table.find?_eq_some.1 (requoted_row hrow h)
  exact ⟨⟨_, hrows, rfl⟩, hid⟩

theorem findExpiredIntents_answered {found : List PaymentIntent} (h : (findExpiredIntents o db).1 = .ok found) :
    ∀ intent ∈ found, ∃ row ∈ (findExpiredIntents o db).2.intents.rows, intent = mapRow row := by
  obtain ⟨db', hdb, hbody⟩ := query_ok h
  have hquery : (findExpiredIntents o db).2 = db' := hdb
  rw [hquery]
  cases hbody
  intro intent hmem
  obtain ⟨row, hrows, rfl⟩ := List.mem_map.1 hmem
  exact ⟨row, (List.mem_filter.1 hrows).1, rfl⟩

/-- An answered intent is a row that the call left, the one that was asked for. -/
theorem handle_answered (a : Call) (o : Oracle) (db : Db) :
    ∀ intent ∈ answered a (handle a o db).1,
      (∃ row ∈ (handle a o db).2.intents.rows, intent = mapRow row) ∧ ∀ id, a.target = some id →
        intent.id = id := by
  intro intent hmem
  cases hout : (handle a o db).1 with
  | error e =>
    rw [hout] at hmem
    cases a <;> cases hmem
  | ok x =>
    rw [hout] at hmem
    cases a with
    | findById id =>
      obtain rfl := Option.mem_toList.1 hmem
      obtain ⟨hrow, hid⟩ := findById_answered hout
      exact ⟨hrow, fun id' h => hid.trans (Option.some.inj h)⟩
    | transition id eventType payload =>
      obtain rfl := List.mem_singleton.1 hmem
      obtain ⟨hrow, hid⟩ := transition_answered hout
      exact ⟨hrow, fun id' h => hid.trans (Option.some.inj h)⟩
    | updateQuote id rate expires deposit =>
      obtain rfl := List.mem_singleton.1 hmem
      obtain ⟨hrow, hid⟩ := updateQuote_answered hout
      exact ⟨hrow, fun id' h => hid.trans (Option.some.inj h)⟩
    | create data =>
      obtain rfl := List.mem_singleton.1 hmem
      exact ⟨create_answered hout, nofun⟩
    | findExpiredIntents => exact ⟨findExpiredIntents_answered hout intent hmem, nofun⟩
    | _ => cases hmem

/-! ## Following an announcement -/

variable {c : Announcement} {α : Type} {s : IntentState} {Q : Phase → Except IntentError α → Prop} {p : Task α}

/-- The intent is in the database, in state `s`. -/
def Announcement.In (c : Announcement) (db : Db) (s : IntentState) : Prop :=
  ∃ row, db.intents.find? c.intentId = some row ∧ row.merchantId = c.merchantId ∧
    row.targetAmount = c.targetAmount ∧ row.state = s

theorem Announcement.In.stateOf (h : c.In db s) : stateOf db c.intentId = some s := by
  obtain ⟨row, hrow, -, -, rfl⟩ := h
  rw [Intent.stateOf, hrow]
  rfl

/-- The intent stays, in its state unless the call is a valid transition of it. -/
theorem Announcement.In.handle (h : c.In db s) (a : Call) (o : Oracle) :
    ∃ s', c.In (handle a o db).2 s' ∧
      (s' = s ∨ ∃ eventType payload, a = .transition c.intentId eventType payload ∧
      Valid s (getExpectedNextState eventType) ∧ s' = getExpectedNextState eventType) := by
  obtain ⟨row, hrow, hmerchant, htarget, rfl⟩ := h
  obtain ⟨row', hrow', hmerchant', htarget', hstate⟩ := handle_row hrow a o
  exact ⟨row'.state, ⟨row', hrow', hmerchant'.trans hmerchant, htarget'.trans htarget, rfl⟩, hstate⟩

theorem Announcement.In.keep (h : c.In db s) {a : Call}
    (ha : ∀ eventType payload, a ≠ .transition c.intentId eventType payload) (o : Oracle) :
    c.In (Intent.handle a o db).2 s := by
  obtain ⟨s', hin', rfl | ⟨eventType, payload, h, -⟩⟩ := h.handle a o
  · exact hin'
  · exact absurd h (ha eventType payload)

/-- What is read of the intent is what the call left. -/
theorem handle_rely {a : Call} (h : c.In (handle a o db).2 s) (hs : c.states s) :
    c.rely a (handle a o db).1 := by
  obtain ⟨row, hrow, hmerchant, htarget, rfl⟩ := h
  have hanswered : ∀ intent ∈ answered a (handle a o db).1,
      c.Describes intent ∧ ∀ id, a.target = some id → intent.id = id := by
    intro intent hmem
    obtain ⟨⟨row', hrows, rfl⟩, hid⟩ := handle_answered a o db intent hmem
    refine ⟨?_, hid⟩
    intro hthis
    obtain rfl : row = row' := Option.some.inj (hrow.symm.trans (Table.find?_eq_some.2 ⟨hrows, hthis⟩))
    exact ⟨hmerchant, htarget, hs⟩
  cases a with
  | now => exact ⟨o.now, rfl⟩
  | _ => exact hanswered

/-- After the announcement a call neither moves the intent nor adds its delivery. -/
theorem done_step {a : Call} (hin : c.In db (getExpectedNextState c.eventType))
    (hs : c.states (getExpectedNextState c.eventType)) (hok : c.ok .done a) :
    c.In (handle a o db).2 (getExpectedNextState c.eventType) ∧ c.rely a (handle a o db).1 ∧
      c.next .done a (handle a o db).1 = .done ∧
      (Notified (handle a o db).2 c.intentId c.eventType ↔ Notified db c.intentId c.eventType) := by
  obtain ⟨s', hin', hmoved⟩ := hin.handle a o
  obtain rfl : s' = getExpectedNextState c.eventType := by
    rcases hmoved with rfl | ⟨eventType, payload, rfl, hedge, -⟩
    · rfl
    · exact absurd hedge (hok rfl)
  refine ⟨hin', handle_rely hin' hs, ?_, (handle_outer a o db).2 c.eventType ?_⟩
  · cases a with
    | transition id eventType payload =>
      cases hout : (transition o id eventType payload db).1 with
      | error e => simp only [handle, hout]; rfl
      | ok intent =>
        obtain ⟨row, hrow, hedge, -⟩ := transition_ok hout
        have hother : id ≠ c.intentId := by
          rintro rfl
          obtain ⟨row', hrow', -, -, hstate⟩ := hin
          obtain rfl : row = row' := Option.some.inj (hrow.symm.trans hrow')
          exact hok rfl (hstate ▸ hedge)
        simp only [handle, hout]
        exact if_neg hother
    | _ => rfl
  · rintro url payload rfl
    exact hok ⟨rfl, rfl⟩

theorem done_upTo (hp : p.Obeys c.protocol Q .done) (hin : c.In db (getExpectedNextState c.eventType))
    (hs : c.states (getExpectedNextState c.eventType)) (ω : Nat → Oracle) (k n : Nat) :
    c.In (p.upTo handle ω k n db) (getExpectedNextState c.eventType) ∧
      (Notified (p.upTo handle ω k n db) c.intentId c.eventType ↔ Notified db c.intentId c.eventType) := by
  induction p generalizing k n db with
  | ret x => exact ⟨hin, Iff.rfl⟩
  | throw e => exact ⟨hin, Iff.rfl⟩
  | call a f ih =>
    cases k with
    | zero => exact ⟨by rwa [Prog.upTo_zero], by rw [Prog.upTo_zero]⟩
    | succ k =>
      obtain ⟨hin', hrely, hnext, hnotified⟩ := done_step (o := ω n) hin hs hp.1
      have hrest := hp.2 _ hrely
      rw [show c.protocol.next .done a _ = .done from hnext] at hrest
      obtain ⟨hfinal, hsame⟩ := ih _ hrest hin' k (n + 1)
      exact ⟨hfinal, hsame.trans hnotified⟩

/-- The merchant has a webhook URL. -/
def HasWebhook (db : Db) (merchantId : Id) : Prop :=
  ∃ merchant url, db.merchants.find? merchantId = some merchant ∧ merchant.webhookUrl = some url ∧ url ≠ ""

theorem getById_cases (o : Oracle) {merchantId : Id} (h : HasWebhook db merchantId) :
    (o.fault = some .query ∧ getById o merchantId db = (.error (.database .query), db)) ∨
    o.fault ≠ some .query ∧ ∃ merchant, getById o merchantId db = (.ok merchant, db) ∧
      (merchant.bind MerchantConfig.webhookUrl).isSome = true := by
  obtain ⟨merchant, url, hmerchant, hurl, hne⟩ := h
  rw [getById, query_pure]
  by_cases hfault : o.fault = some .query
  · exact .inl ⟨hfault, if_pos hfault⟩
  · refine .inr ⟨hfault, _, if_neg hfault, ?_⟩
    simp [hmerchant, hurl, hne]

theorem upsertDelivery_cases (o : Oracle) (id : Id) (eventType : EventType) (url : String)
    (payload : Payload) (db : Db) :
    (o.fault = some .query ∧ (upsertDelivery o id eventType url payload db).2 = db) ∨
    o.fault ≠ some .query ∧ Notified (upsertDelivery o id eventType url payload db).2 id eventType := by
  cases hout : (upsertDelivery o id eventType url payload db).1 with
  | ok deliveryId =>
    refine .inr ⟨fun hfault => ?_, ((upsertDelivery_ok hout).2 id eventType).2 (.inr ⟨rfl, rfl⟩)⟩
    simp [upsertDelivery, query, atomically, statement, hfault, bind, Except.bind] at hout
  | error e => exact .inl ⟨upsertDelivery_error hout, atomically_error hout⟩

/-- What is asked for next, once the transition is made. -/
theorem announced_ok {a : Call} (h : c.ok .announced a) : a = .getById c.merchantId := by
  cases a with
  | transition => exact h.elim
  | _ => exact h

theorem found_ok {a : Call} (h : c.ok .found a) : a = .now := by
  cases a with
  | transition => exact h.elim
  | _ => exact h

theorem timed_ok {a : Call} (h : c.ok .timed a) :
    ∃ url payload, a = .upsertDelivery c.intentId c.eventType url payload := by
  cases a with
  | transition => exact h.elim
  | _ => exact h

section
variable (hin : c.In db (getExpectedNextState c.eventType)) (hs : c.states (getExpectedNextState c.eventType))
  (ω : Nat → Oracle)
include hin hs

theorem timed_upTo (hp : p.Obeys c.protocol (fun g _ => g.Rests) .timed) (k n : Nat) :
    c.In (p.upTo handle ω k n db) (getExpectedNextState c.eventType) ∧
      (Notified (p.upTo handle ω k n db) c.intentId c.eventType ↔
        Notified db c.intentId c.eventType ∨ 1 ≤ k ∧ (ω n).fault ≠ some .query) := by
  cases p with
  | ret x => exact hp.elim
  | throw e => exact hp.elim
  | call a f =>
    obtain ⟨hok, hp⟩ := hp
    obtain ⟨url, payload, rfl⟩ := timed_ok hok
    cases k with
    | zero => simp [hin]
    | succ k =>
      have hin' := hin.keep (a := .upsertDelivery c.intentId c.eventType url payload) nofun (ω n)
      obtain ⟨hfinal, hsame⟩ := done_upTo (hp _ (handle_rely hin' hs)) hin' hs ω k (n + 1)
      refine ⟨hfinal, hsame.trans ?_⟩
      change Notified (upsertDelivery (ω n) _ _ _ _ db).2 _ _ ↔ _
      rcases upsertDelivery_cases (ω n) c.intentId c.eventType url payload db with ⟨hfault, hdb⟩ | ⟨hfault, hdone⟩
      · simp [hdb, hfault]
      · simp [hdone, hfault]

theorem found_upTo (hp : p.Obeys c.protocol (fun g _ => g.Rests) .found) (k n : Nat) :
    c.In (p.upTo handle ω k n db) (getExpectedNextState c.eventType) ∧
      (Notified (p.upTo handle ω k n db) c.intentId c.eventType ↔
        Notified db c.intentId c.eventType ∨ 2 ≤ k ∧ (ω (n + 1)).fault ≠ some .query) := by
  cases p with
  | ret x => exact hp.elim
  | throw e => exact hp.elim
  | call a f =>
    obtain ⟨hok, hp⟩ := hp
    obtain rfl := found_ok hok
    cases k with
    | zero => simp [hin]
    | succ k =>
      obtain ⟨hfinal, hsame⟩ := timed_upTo hin hs ω (hp (.ok (ω n).now) ⟨_, rfl⟩) k (n + 1)
      refine ⟨hfinal, hsame.trans (or_congr_right ?_)⟩
      rw [Nat.succ_le_succ_iff]

/-- **After the transition** the delivery is upserted by the third call, if nothing comes between. -/
theorem announced_upTo (hp : p.Obeys c.protocol (fun g _ => g.Rests) .announced)
    (hwebhook : HasWebhook db c.merchantId) (k n : Nat) :
    c.In (p.upTo handle ω k n db) (getExpectedNextState c.eventType) ∧
      (Notified (p.upTo handle ω k n db) c.intentId c.eventType ↔ Notified db c.intentId c.eventType ∨
        3 ≤ k ∧ (ω n).fault ≠ some .query ∧ (ω (n + 2)).fault ≠ some .query) := by
  cases p with
  | ret x => exact hp.elim
  | throw e => exact hp.elim
  | call a f =>
    obtain ⟨hok, hp⟩ := hp
    obtain rfl := announced_ok hok
    cases k with
    | zero => simp [hin]
    | succ k =>
      have hin' := hin.keep (a := .getById c.merchantId) nofun (ω n)
      have hrest := hp _ (handle_rely hin' hs)
      have hone : (Prog.call (.getById c.merchantId) f).upTo handle ω (k + 1) n db =
          (f (getById (ω n) c.merchantId db).1).upTo handle ω k (n + 1) (getById (ω n) c.merchantId db).2 :=
        Prog.upTo_call ..
      rw [hone]
      change Prog.Obeys c.protocol _ (c.next .announced (.getById c.merchantId) (getById (ω n) c.merchantId db).1)
        (f (getById (ω n) c.merchantId db).1) at hrest
      rcases getById_cases (ω n) hwebhook with ⟨hfault, hget⟩ | ⟨hfault, merchant, hget, hurl⟩
      · rw [hget] at hrest ⊢
        obtain ⟨hfinal, hsame⟩ := done_upTo hrest hin hs ω k (n + 1)
        exact ⟨hfinal, hsame.trans (or_iff_left fun h => h.2.1 hfault).symm⟩
      · rw [hget] at hrest ⊢
        simp only [Announcement.next, if_pos hurl] at hrest
        obtain ⟨hfinal, hsame⟩ := found_upTo hin hs ω hrest k (n + 1)
        refine ⟨hfinal, hsame.trans (or_congr_right ?_)⟩
        rw [Nat.succ_le_succ_iff]
        exact and_congr_right fun _ => (and_iff_right hfault).symm

end

/-- The call that takes the intent to the event's state is the transition by the event, and is answered. -/
theorem committing_call {a : Call} (hin : c.In db s) (hs : s ≠ getExpectedNextState c.eventType)
    (hok : c.ok .idle a) (hin' : c.In (handle a o db).2 (getExpectedNextState c.eventType)) :
    c.next .idle a (handle a o db).1 = .announced := by
  have hstate := hin'.stateOf
  obtain ⟨s', hin'', rfl | ⟨eventType, payload, rfl, -, rfl⟩⟩ := hin.handle a o
  · exact absurd (Option.some.inj (hin''.stateOf.symm.trans hstate)) hs
  · have hevent : eventType = c.eventType := hok rfl (Option.some.inj (hin''.stateOf.symm.trans hstate))
    subst hevent
    cases hout : (transition o c.intentId c.eventType payload db).1 with
    | error e =>
      have hsame : (handle (.transition c.intentId c.eventType payload) o db).2 = db := handle_error hout
      rw [hsame] at hstate
      exact absurd (Option.some.inj (hin.stateOf.symm.trans hstate)) hs
    | ok intent =>
      simp only [handle, hout]
      exact if_pos ⟨rfl, rfl⟩

/-- A call that does not is none that is announced. -/
theorem waiting_call {a : Call} (hin : c.In db s)
    (hin' : ¬ c.In (handle a o db).2 (getExpectedNextState c.eventType)) :
    c.next .idle a (handle a o db).1 = .idle := by
  cases a with
  | transition id eventType payload =>
    cases hout : (transition o id eventType payload db).1 with
    | error e => simp only [handle, hout]; rfl
    | ok intent =>
      simp only [handle, hout]
      refine if_neg fun hthis => hin' ?_
      obtain ⟨rfl, rfl⟩ := hthis
      obtain ⟨row, hrow, -, -, hdb⟩ := transition_ok hout
      obtain ⟨row', hrow', hmerchant, htarget, -⟩ := hin
      obtain rfl : row = row' := Option.some.inj (hrow.symm.trans hrow')
      have htransaction : (handle (.transition c.intentId c.eventType payload) o db).2 = _ := hdb
      rw [htransaction]
      exact ⟨_, Tables.find?_recorded o c.eventType payload hrow, hmerchant, htarget, rfl⟩
  | _ => rfl

/-- Before the transition a call neither touches the merchants nor adds the delivery. -/
theorem idle_call {a : Call} (hok : c.ok .idle a) (o : Oracle) (db : Db) :
    (HasWebhook db c.merchantId → HasWebhook (handle a o db).2 c.merchantId) ∧
      (Notified (handle a o db).2 c.intentId c.eventType ↔ Notified db c.intentId c.eventType) := by
  obtain ⟨hmerchants, hdeliveries⟩ := @handle_outer c.intentId a o db
  refine ⟨?_, hdeliveries c.eventType ?_⟩
  · intro h
    unfold HasWebhook
    rwa [hmerchants]
  · rintro url payload rfl
    exact hok ⟨rfl, rfl⟩

/-- **Once the `i`-th call has made the transition**, a crash after `k` calls leaves the delivery behind
exactly when it comes after the upsert. -/
theorem committed_upTo (hp : p.Obeys c.protocol (fun g _ => g.Rests) .idle) (hin : c.In db s)
    (hs : ∀ s, c.states s) (hwebhook : HasWebhook db c.merchantId) (ω : Nat → Oracle) {i k n : Nat}
    (hbefore : ∀ j ≤ i, stateOf (p.upTo handle ω j n db) c.intentId ≠ some (getExpectedNextState c.eventType))
    (hcommit : stateOf (p.upTo handle ω (i + 1) n db) c.intentId = some (getExpectedNextState c.eventType))
    (hk : i < k) :
    c.In (p.upTo handle ω k n db) (getExpectedNextState c.eventType) ∧
      (Notified (p.upTo handle ω k n db) c.intentId c.eventType ↔ Notified db c.intentId c.eventType ∨
        i + 4 ≤ k ∧ (ω (n + i + 1)).fault ≠ some .query ∧ (ω (n + i + 3)).fault ≠ some .query) := by
  induction p generalizing i k n db s with
  | ret x => exact absurd hcommit (hbefore 0 (Nat.zero_le i))
  | throw e => exact absurd hcommit (hbefore 0 (Nat.zero_le i))
  | call a f ih =>
    obtain ⟨k, rfl⟩ : ∃ k', k = k' + 1 := ⟨k - 1, by omega⟩
    obtain ⟨s', hin', -⟩ := hin.handle a (ω n)
    have hrest := hp.2 _ (handle_rely hin' (hs s'))
    change Prog.Obeys c.protocol _ (c.next .idle a (handle a (ω n) db).1) _ at hrest
    have hstart : s ≠ getExpectedNextState c.eventType := by
      rintro rfl
      exact hbefore 0 (Nat.zero_le i) (by rw [Prog.upTo_zero]; exact hin.stateOf)
    obtain ⟨hkept, hsilent⟩ := idle_call hp.1 (ω n) db
    rw [Prog.upTo_call]
    cases i with
    | zero =>
      rw [Prog.upTo_call, Prog.upTo_zero, hin'.stateOf] at hcommit
      obtain rfl := Option.some.inj hcommit
      rw [committing_call hin hstart hp.1 hin'] at hrest
      obtain ⟨hfinal, hsame⟩ := announced_upTo hin' (hs _) ω hrest (hkept hwebhook) k (n + 1)
      refine ⟨hfinal, hsame.trans (or_congr hsilent ?_)⟩
      rw [Nat.zero_add, show 4 ≤ k + 1 ↔ 3 ≤ k by omega]
    | succ i =>
      have hlater : s' ≠ getExpectedNextState c.eventType := by
        rintro rfl
        exact hbefore 1 (by omega) (by rw [Prog.upTo_call, Prog.upTo_zero]; exact hin'.stateOf)
      rw [waiting_call hin fun h => hlater (Option.some.inj (hin'.stateOf.symm.trans h.stateOf))] at hrest
      have hlt : i < k := by omega
      obtain ⟨hfinal, hsame⟩ := ih _ hrest hin' (hkept hwebhook)
        (fun j (hj : j ≤ i) => hbefore (j + 1) (by omega))
        hcommit hlt
      refine ⟨hfinal, hsame.trans (or_congr hsilent ?_)⟩
      rw [show n + 1 + i + 1 = n + (i + 1) + 1 by omega, show n + 1 + i + 3 = n + (i + 1) + 3 by omega,
        show i + 1 + 4 ≤ k + 1 ↔ i + 4 ≤ k by omega]

/-- **A committed transition is left without its webhook exactly when** the operation that made it is cut short
before the upsert of the delivery, three calls later, or one of the two queries in between is rejected. Running the
operation again does not help: it finds the intent moved. -/
theorem op_notifies_iff (op : Op) {eventType : EventType} (hrow : db.intents.find? id = some row)
    (hevent : eventType ∈ op.notifies row.targetAmount) (hwebhook : HasWebhook db row.merchantId)
    (ω : Nat → Oracle) {i k : Nat}
    (hbefore : ∀ j ≤ i, stateOf (op.task.upTo handle ω j 0 db) id ≠ some (getExpectedNextState eventType))
    (hcommit : stateOf (op.task.upTo handle ω (i + 1) 0 db) id = some (getExpectedNextState eventType))
    (hk : i < k) (again : Nat → Oracle) :
    Notified (op.task.run handle again 0 (op.task.upTo handle ω k 0 db)).2.2 id eventType ↔
      Notified db id eventType ∨
        i + 4 ≤ k ∧ (ω (i + 1)).fault ≠ some .query ∧ (ω (i + 3)).fault ≠ some .query := by
  let c (states : IntentState → Prop) : Announcement :=
    { intentId := id, merchantId := row.merchantId, targetAmount := row.targetAmount, eventType, states }
  have hfirst := op_heralds (c := c fun _ => True) hevent (.inl rfl)
  have hagain := op_heralds (c := c (· = getExpectedNextState eventType)) hevent (.inr ⟨rfl, fun _ h => h⟩)
  have hin : (c fun _ => True).In db row.state := ⟨row, hrow, rfl, rfl, rfl⟩
  obtain ⟨hcrashed, hnotified⟩ := committed_upTo hfirst hin (fun _ => trivial) hwebhook ω hbefore hcommit hk
  obtain ⟨m, hm⟩ := Prog.upTo_run handle again op.task 0 (op.task.upTo handle ω k 0 db)
  rw [← hm]
  obtain ⟨-, hsame⟩ := done_upTo hagain hcrashed rfl again m 0
  rw [hsame, hnotified, Nat.zero_add]

/-- The shop with a webhook, and its intent `pi` with a detected deposit. -/
def notifiedShop : MerchantConfig := { shop with webhookUrl := some "https://shop/hook" }

def notifiedDb : Db := { detectedDb with merchants := ⟨[notifiedShop], List.nodup_singleton _⟩ }

def confirmPi : Op := .confirmDeposit "pi" 12

/-- The row of `pi` with its deposit detected. -/
def detectedRow : PaymentIntent := { quotedRow with state := .detected, version := 4, updatedAt := 2 }

theorem notifiedDb_row : notifiedDb.intents.find? "pi" = some detectedRow := by decide +kernel

/-- The rule at `pi`: a confirmation that is not cut short, and is run again. -/
theorem op_notifies_confirm :
    Notified (confirmPi.task.run handle (calm 4) 0 (confirmPi.task.upTo handle (calm 3) 9 0 notifiedDb)).2.2
      "pi" .confirmationReceived := by
  refine (op_notifies_iff confirmPi notifiedDb_row (List.mem_singleton_self _)
    ⟨notifiedShop, "https://shop/hook", rfl, rfl, by decide⟩ (calm 3) (i := 2) ?_ ?_ (by decide) (calm 4)).2
    (.inr ⟨by decide, nofun, nofun⟩)
  · decide +kernel
  · decide +kernel

/-- The confirmation commits with the third call, the process dies, and the repeated confirmation is refused: the
merchant is never notified. -/
theorem op_notifies_lost :
    stateOf notifiedDb "pi" = some .detected ∧
    stateOf (confirmPi.task.upTo handle (calm 3) 3 0 notifiedDb) "pi" = some .confirming ∧
    HasWebhook notifiedDb "shop" ∧
    (refusal (confirmPi.task.run handle (calm 4) 0 (confirmPi.task.upTo handle (calm 3) 3 0 notifiedDb)).1 =
      some (.confirming, .confirming)) ∧
    ¬ Notified (confirmPi.task.run handle (calm 4) 0 (confirmPi.task.upTo handle (calm 3) 3 0 notifiedDb)).2.2
      "pi" .confirmationReceived :=
  ⟨by decide +kernel, by decide +kernel, ⟨notifiedShop, "https://shop/hook", rfl, rfl, by decide⟩,
    by decide +kernel, by decide +kernel⟩

end NexoraGateway.Intent
