import NexoraGateway.Async.Knowledge
import NexoraGateway.Intent.Attempts
import NexoraGateway.Intent.Notifications

/-!
# What a webhook says and to whom (webhook-delivery.service.ts:35-153)

A delivery is recorded by one task and may be sent much later by another, from the row alone. `Addressed` is what
makes a delivery right: its event is in the log of its intent, its URL is that of the intent's merchant, and its body
names the event and is signed for the data that it carries. `postage` is the discipline of the tasks, and
`webhooks_addressed` what comes of it for each row and each request.
-/
namespace NexoraGateway.Intent

open Async Store

/-- The URL belongs to the merchant of the intent. -/
def BelongsTo (db : Db) (intentId : Id) (url : String) : Prop :=
  ∃ row merchant, db.intents.find? intentId = some row ∧ db.merchants.find? row.merchantId = some merchant ∧
    merchant.webhookUrl = some url

/-- The event is in the log of the intent. -/
def Logged (db : Db) (intentId : Id) (eventType : EventType) : Prop :=
  ∃ e ∈ db.events, e.intentId = intentId ∧ e.eventType = eventType

/-- A body that names the event and is signed for its data. -/
structure Signed (intentId : Id) (eventType : EventType) (payload : Payload) : Prop where
  intent : payload.get? "intent_id" = some (.str intentId)
  event : payload.get? "event_type" = some (.str eventType.name)
  signature : ∃ data, payload.get? "data" = some (.obj data) ∧
    payload.get? "signature" = some (generateSignature intentId eventType data)

structure Addressed (db : Db) (intentId : Id) (eventType : EventType) (url : String) (payload : Payload) : Prop where
  logged : Logged db intentId eventType
  owner : BelongsTo db intentId url
  signed : Signed intentId eventType payload

/-- What a task can know of a delivery. -/
inductive WebhookFact where
  | logged (intentId : Id) (eventType : EventType)
  | owned (intentId merchantId : Id)
  | registered (merchantId : Id) (url : String)
  | delivery (d : WebhookDelivery)

def WebhookFact.Holds (db : Db) : WebhookFact → Prop
  | logged intentId eventType => Logged db intentId eventType
  | owned intentId merchantId => ∃ row, db.intents.find? intentId = some row ∧ row.merchantId = merchantId
  | registered merchantId url => ∃ merchant, db.merchants.find? merchantId = some merchant ∧
      merchant.webhookUrl = some url
  | delivery d => Addressed db d.intentId d.eventType d.webhookUrl d.payload

/-- A delivery is recorded for a logged event and the intent's merchant, and a request sends a recorded delivery. -/
def postage : Knowledge Call Answer Db WebhookFact where
  Holds db f := f.Holds db
  ok facts
    | .upsertDelivery intentId eventType url payload =>
      .logged intentId eventType ∈ facts ∧
        (∃ merchantId, .owned intentId merchantId ∈ facts ∧ .registered merchantId url ∈ facts) ∧
        Signed intentId eventType payload
    | .fetch url headers body =>
      ∃ d, .delivery d ∈ facts ∧ url = d.webhookUrl ∧ body = d.payload ∧
        headers.lookup "X-Webhook-Event" = some (.str d.eventType.name) ∧
        headers.lookup "X-Webhook-Signature" = some ((d.payload.get? "signature").getD (.str ""))
    | _ => True
  rely
    | .transition id .., r => ∀ intent : PaymentIntent, r = .ok intent → intent.id = id
    | _, _ => True
  learns
    | .create _, .ok intent => [.logged intent.id .intentCreated, .owned intent.id intent.merchantId]
    | .transition id eventType _, .ok intent => [.logged id eventType, .owned intent.id intent.merchantId]
    | .findExpiredIntents, .ok expired => List.map (fun intent => .owned intent.id intent.merchantId) expired
    | .getById id, .ok merchant =>
      ((merchant.bind MerchantConfig.webhookUrl).map fun url => WebhookFact.registered id url).toList
    | .getDelivery _, .ok delivery => (delivery.map WebhookFact.delivery).toList
    | _, _ => []

/-- Every delivery is right. -/
def AllAddressed (db : Db) : Prop :=
  ∀ d ∈ db.deliveries.rows, Addressed db d.intentId d.eventType d.webhookUrl d.payload

/-! ## One call -/

variable {o : Oracle} {db : Db} {a : Call}

theorem handle_merchants (a : Call) (o : Oracle) (db : Db) : (handle a o db).2.merchants = db.merchants :=
  (@handle_outer "" a o db).1

theorem Logged.handle {intentId : Id} {eventType : EventType} (h : Logged db intentId eventType) (a : Call)
    (o : Oracle) : Logged (Intent.handle a o db).2 intentId eventType := by
  obtain ⟨e, he, hid, htype⟩ := h
  exact ⟨e, (handle_effect a o db).events.subset he, hid, htype⟩

theorem BelongsTo.handle {intentId : Id} {url : String} (h : BelongsTo db intentId url) (a : Call) (o : Oracle) :
    BelongsTo (Intent.handle a o db).2 intentId url := by
  obtain ⟨row, merchant, hrow, hmerchant, hurl⟩ := h
  obtain ⟨row', hrow', howner, -⟩ := handle_row hrow a o
  exact ⟨row', merchant, hrow', by rw [handle_merchants, howner, hmerchant], hurl⟩

theorem Addressed.handle {intentId : Id} {eventType : EventType} {url : String} {payload : Payload}
    (h : Addressed db intentId eventType url payload) (a : Call) (o : Oracle) :
    Addressed (Intent.handle a o db).2 intentId eventType url payload :=
  ⟨h.logged.handle a o, h.owner.handle a o, h.signed⟩

/-- **No call makes a fact false.** -/
theorem WebhookFact.Holds.handle {f : WebhookFact} (h : f.Holds db) (a : Call) (o : Oracle) :
    f.Holds (Intent.handle a o db).2 := by
  cases f with
  | logged => exact Logged.handle h a o
  | owned =>
    obtain ⟨row, hrow, hmerchant⟩ := h
    obtain ⟨row', hrow', howner, -⟩ := handle_row hrow a o
    exact ⟨row', hrow', howner.trans hmerchant⟩
  | registered =>
    obtain ⟨merchant, hmerchant, hurl⟩ := h
    exact ⟨merchant, by rw [handle_merchants, hmerchant], hurl⟩
  | delivery => exact Addressed.handle h a o

/-- A delivery after a call is as it was before, apart from its outcome, or the call has written it. -/
theorem delivery_of_handle {d' : WebhookDelivery} (hd' : d' ∈ (handle a o db).2.deliveries.rows) :
    (∃ d ∈ db.deliveries.rows, d'.intentId = d.intentId ∧ d'.eventType = d.eventType ∧ d'.webhookUrl = d.webhookUrl ∧
      d'.payload = d.payload) ∨
    a = .upsertDelivery d'.intentId d'.eventType d'.webhookUrl d'.payload := by
  have hsame (hd : d' ∈ db.deliveries.rows) : ∃ d ∈ db.deliveries.rows, d'.intentId = d.intentId ∧
      d'.eventType = d.eventType ∧ d'.webhookUrl = d.webhookUrl ∧ d'.payload = d.payload :=
    ⟨d', hd, rfl, rfl, rfl, rfl⟩
  have heff := handle_deliveries a o db
  cases a with
  | upsertDelivery intentId eventType url payload =>
    change d' ∈ (upsertDelivery o intentId eventType url payload db).2.deliveries.rows at hd'
    cases hout : (upsertDelivery o intentId eventType url payload db).1 with
    | error e =>
      have hdb : (upsertDelivery o intentId eventType url payload db).2 = db := atomically_error hout
      rw [hdb] at hd'
      exact .inl (hsame hd')
    | ok id =>
      rcases upsertDelivery_answered hout with ⟨deliveries, -, hinsert, hdb⟩ | ⟨d, -, -, hdb⟩
      · rw [hdb, Table.rows_insert? hinsert] at hd'
        rcases List.mem_append.1 hd' with hd | hd
        · exact .inl (hsame hd)
        · rw [List.mem_singleton.1 hd]
          exact .inr rfl
      · rw [hdb] at hd'
        obtain ⟨d, hd, rfl⟩ := (@Table.mem_updateWhere _ _ _ _ _ _ (excluded_key o url payload) _).1 hd'
        split
        · rename_i hkey
          obtain ⟨rfl, rfl⟩ := Prod.mk.inj (of_decide_eq_true hkey)
          exact .inr rfl
        · exact .inl ⟨d, hd, rfl, rfl, rfl, rfl⟩
  | updateDeliveryStatus id status attemptCount next error =>
    generalize (handle (.updateDeliveryStatus id status attemptCount next error) o db).1 = r at heff
    generalize (handle (.updateDeliveryStatus id status attemptCount next error) o db).2.deliveries = t at heff hd'
    cases heff with
    | unchanged => exact .inl (hsame hd')
    | attempted =>
      obtain ⟨d, hd, rfl⟩ := Table.mem_updateWhere.1 hd'
      refine .inl ⟨d, hd, ?_⟩
      split <;> exact ⟨rfl, rfl, rfl, rfl⟩
  | _ =>
    generalize (handle _ o db).1 = r at heff
    generalize (handle _ o db).2.deliveries = t at heff hd'
    cases heff
    exact .inl (hsame hd')

/-- A delivery that is recorded on true facts is right, so all go on being so. -/
theorem postage_kept (hdb : AllAddressed db) {facts : List WebhookFact} (hfacts : ∀ f ∈ facts, f.Holds db)
    (hok : postage.ok facts a) : AllAddressed (handle a o db).2 := by
  intro d' hd'
  rcases delivery_of_handle hd' with ⟨d, hd, hid, htype, hurl, hpayload⟩ | rfl
  · rw [hid, htype, hurl, hpayload]
    exact (hdb d hd).handle a o
  · obtain ⟨hlogged, ⟨merchantId, howned, hregistered⟩, hsigned⟩ := hok
    obtain ⟨row, hrow, rfl⟩ := hfacts _ howned
    obtain ⟨merchant, hmerchant, hurl⟩ := hfacts _ hregistered
    exact Addressed.handle ⟨hfacts _ hlogged, ⟨row, merchant, hrow, hmerchant, hurl⟩, hsigned⟩ _ o

theorem answered_owned {intent : PaymentIntent} (h : intent ∈ answered a (handle a o db).1) :
    (WebhookFact.owned intent.id intent.merchantId).Holds (handle a o db).2 := by
  obtain ⟨⟨row, hrow, rfl⟩, -⟩ := handle_answered a o db intent h
  exact ⟨row, Table.find?_eq_some.2 ⟨hrow, rfl⟩, rfl⟩

/-- **What a task learns is true.** -/
theorem postage_learned (hdb : AllAddressed db) :
    ∀ f ∈ postage.learns a (handle a o db).1, f.Holds (handle a o db).2 := by
  intro f hf
  cases hout : (handle a o db).1 with
  | error e =>
    rw [hout] at hf
    cases a <;> exact absurd hf List.not_mem_nil
  | ok x =>
    have hanswered := @answered_owned o db a
    rw [hout] at hf hanswered
    cases a with
    | create data =>
      obtain ⟨row, intents, rfl, hid, -, -, -, hcreated⟩ := create_ok hout
      simp only [postage, List.mem_cons, List.not_mem_nil, or_false] at hf
      rcases hf with rfl | rfl
      · refine ⟨⟨o.uuid, .intentCreated, data.toPayload, 1, o.now⟩, ?_, hid.symm, rfl⟩
        change _ ∈ (create o data db).2.events
        rw [hcreated]
        exact List.mem_append_right _ (List.mem_singleton_self _)
      · exact hanswered (List.mem_singleton_self _)
    | transition id eventType payload =>
      obtain ⟨row, hrow, -, rfl, hrecorded⟩ := transition_ok hout
      simp only [postage, List.mem_cons, List.not_mem_nil, or_false] at hf
      rcases hf with rfl | rfl
      · refine ⟨⟨row.id, eventType, payload, row.version + 1, o.now⟩, ?_, (Table.find?_eq_some.1 hrow).2, rfl⟩
        change _ ∈ (transition o id eventType payload db).2.events
        rw [hrecorded]
        exact List.mem_append_right _ (List.mem_singleton_self _)
      · exact hanswered (List.mem_singleton_self _)
    | findExpiredIntents =>
      obtain ⟨intent, hintent, rfl⟩ := List.mem_map.1 hf
      exact hanswered hintent
    | getById id =>
      obtain ⟨db', -, hbody⟩ := query_ok hout
      cases hbody
      obtain ⟨url, hurl, rfl⟩ := Option.map_eq_some_iff.1 (Option.mem_toList.1 hf)
      obtain ⟨merchant, hmerchant, hurl⟩ := Option.bind_eq_some_iff.1 hurl
      obtain ⟨row, hrow, rfl⟩ := Option.map_eq_some_iff.1 hmerchant
      have hregistered : (WebhookFact.registered id url).Holds db := ⟨row, hrow, (Option.filter_eq_some_iff.1 hurl).1⟩
      exact hregistered.handle _ o
    | getDelivery id =>
      obtain ⟨db', -, hbody⟩ := query_ok hout
      cases hbody
      obtain ⟨d, hd, rfl⟩ := Option.map_eq_some_iff.1 (Option.mem_toList.1 hf)
      have hdelivery : (WebhookFact.delivery d).Holds db := hdb d (List.mem_of_find?_eq_some hd)
      exact hdelivery.handle _ o
    | now | findById | updateQuote | upsertDelivery | updateDeliveryStatus | pendingRetries | fetch =>
      exact absurd hf List.not_mem_nil

theorem postage_relied : postage.rely a (handle a o db).1 := by
  cases a with
  | transition id eventType payload => exact fun intent h => (transition_answered h).2
  | _ => trivial

/-! ## The tasks -/

variable {α : Type} {facts : List WebhookFact}

/-- A recorded delivery is sent. -/
theorem postage_attempt (deliveryId : Id) : postage.Justifies facts (attemptDelivery deliveryId) := by
  have hupdate (status : DeliveryStatus) (attemptCount : Nat) (next : Option Time) (error : Option String)
      (facts : List WebhookFact) :
      postage.Justifies facts (Task.updateDeliveryStatus deliveryId status attemptCount next error) :=
    Knowledge.justifies_await trivial
  refine Knowledge.justifies_await_bind trivial fun delivery _ => ?_
  cases delivery with
  | none => trivial
  | some delivery =>
    dsimp only
    split
    · exact Knowledge.justifies_await_bind trivial fun now _ => hupdate ..
    · refine Knowledge.justifies_tryCatch ?_ fun error facts' _ => ?_
      · refine Knowledge.justifies_await_bind ⟨delivery, ?_, rfl, rfl, rfl, rfl⟩ fun r _ => ?_
        · exact List.mem_append_right _ (List.mem_singleton_self _)
        · obtain ⟨status, statusText⟩ := r
          dsimp only
          split
          · exact hupdate ..
          · trivial
      · split
        · exact hupdate ..
        · exact Knowledge.justifies_await_bind trivial fun now _ => hupdate ..

/-- A delivery for an intent whose event has just been recorded. -/
theorem postage_deliver {intent : PaymentIntent} {eventType : EventType} (data : Payload)
    (hlogged : .logged intent.id eventType ∈ facts) (howned : .owned intent.id intent.merchantId ∈ facts) :
    postage.Justifies facts (deliverWebhook intent eventType data) := by
  refine Knowledge.justifies_await_bind trivial fun merchant _ => ?_
  dsimp only
  split
  · trivial
  · rename_i url hurl
    refine Knowledge.justifies_await_bind trivial fun timestamp _ => ?_
    refine Knowledge.justifies_await_bind ⟨?_, ⟨intent.merchantId, ?_, ?_⟩, rfl, rfl, data, rfl, rfl⟩
      fun deliveryId _ => postage_attempt deliveryId
    · exact List.mem_append_left _ (List.mem_append_left _ hlogged)
    · exact List.mem_append_left _ (List.mem_append_left _ howned)
    · refine List.mem_append_left _ (List.mem_append_right _ ?_)
      simp only [postage, hurl, Option.map_some, Option.toList_some, List.mem_singleton]

theorem postage_transition {β : Type} {id : Id} {eventType : EventType} {payload : Payload} {f : PaymentIntent → Task β}
    (hf : ∀ intent : PaymentIntent, intent.id = id → ∀ facts', facts ⊆ facts' → .logged id eventType ∈ facts' →
      .owned intent.id intent.merchantId ∈ facts' → postage.Justifies facts' (f intent)) :
    postage.Justifies facts ((Task.transition id eventType payload).bind f) := by
  refine Knowledge.justifies_await_bind trivial fun intent hid => ?_
  refine hf intent (hid intent rfl) _ (List.subset_append_left _ _) ?_ ?_
  · exact List.mem_append_right _ List.mem_cons_self
  · exact List.mem_append_right _ (List.mem_cons_of_mem _ (List.mem_singleton_self _))

theorem postage_notify (id : Id) (eventType : EventType) (payload data : Payload) :
    postage.Justifies facts (transitionAndNotify id eventType payload data) :=
  postage_transition fun _ hid _ _ hlogged howned =>
    Knowledge.justifies_bind (postage_deliver data (hid ▸ hlogged) howned) fun _ _ _ => trivial

theorem postage_advance (id : Id) (eventType : EventType) (data : Payload) (stamp : String) :
    postage.Justifies facts (advanceIntent id eventType data stamp) := by
  refine Knowledge.justifies_await_bind trivial fun intent _ => ?_
  cases intent with
  | none => trivial
  | some intent => exact Knowledge.justifies_await_bind trivial fun now _ => postage_notify ..

theorem postage_create (data : NewPaymentIntent) : postage.Justifies facts (createIntent data) := by
  refine Knowledge.justifies_await_bind trivial fun merchant _ => ?_
  cases merchant with
  | none => trivial
  | some merchant =>
    dsimp only
    split
    · trivial
    · split
      · trivial
      · split
        · trivial
        · split
          · trivial
          · refine Knowledge.justifies_await_bind trivial fun intent _ => ?_
            refine Knowledge.justifies_bind (postage_deliver _ ?_ ?_) fun _ _ _ => trivial
            · exact List.mem_append_right _ List.mem_cons_self
            · exact List.mem_append_right _ (List.mem_cons_of_mem _ (List.mem_singleton_self _))

theorem postage_quote (id : Id) (rate : ℚ) (address asset chain : String) :
    postage.Justifies facts (generateQuote id rate address asset chain) := by
  refine Knowledge.justifies_await_bind trivial fun intent _ => ?_
  cases intent with
  | none => trivial
  | some intent =>
    dsimp only
    split
    · trivial
    · refine Knowledge.justifies_await_bind trivial fun merchant _ =>
        Knowledge.justifies_await_bind trivial fun now _ => Knowledge.justifies_await_bind trivial fun _ _ => ?_
      exact postage_transition fun _ hid _ _ hlogged howned =>
        Knowledge.justifies_bind (postage_deliver _ (hid ▸ hlogged) howned) fun _ _ _ => trivial

theorem postage_await (id : Id) : postage.Justifies facts (awaitPayment id) := by
  refine Knowledge.justifies_await_bind trivial fun intent _ => ?_
  cases intent with
  | none => trivial
  | some intent =>
    dsimp only
    split
    · trivial
    · exact Knowledge.justifies_await_bind trivial fun now _ => Knowledge.justifies_await trivial

theorem postage_classify (intent : PaymentIntent) (id txHash : Id) (amount : ℚ) (chain asset : String) :
    postage.Justifies facts (classifyDeposit intent id txHash amount chain asset) := by
  unfold classifyDeposit
  dsimp only
  split
  · exact postage_notify ..
  · split
    · exact postage_notify ..
    · exact Knowledge.justifies_await_bind trivial fun now _ => postage_notify ..

theorem postage_detect (id txHash : Id) (amount : ℚ) (chain asset : String) :
    postage.Justifies facts (detectDeposit id txHash amount chain asset) := by
  refine Knowledge.justifies_await_bind trivial fun intent _ => ?_
  cases intent with
  | none => trivial
  | some intent =>
    dsimp only
    split
    · exact postage_classify ..
    · refine Knowledge.justifies_await_bind trivial fun now _ => ?_
      split
      · refine Knowledge.justifies_await_bind trivial fun expiredAt _ => ?_
        exact postage_transition fun _ _ _ _ _ _ => trivial
      · exact postage_classify ..

theorem postage_record (id txHash : Id) (amount : ℚ) (chain asset : String) :
    postage.Justifies facts (recordDeposit id txHash amount chain asset) := by
  have hdetect (facts : List WebhookFact) : postage.Justifies facts
      ((detectDeposit id txHash amount chain asset).tryCatch (recoverExpired id)) := by
    refine Knowledge.justifies_tryCatch (postage_detect ..) fun e facts' _ => ?_
    cases e with
    | quoteExpired =>
      refine Knowledge.justifies_await_bind trivial fun expired _ => ?_
      cases expired <;> trivial
    | _ => trivial
  refine Knowledge.justifies_await_bind trivial fun intent _ => ?_
  cases intent with
  | none => trivial
  | some intent =>
    dsimp only
    split
    · trivial
    · split
      · exact Knowledge.justifies_bind (postage_await id) fun _ facts' _ => hdetect facts'
      · exact hdetect _

theorem postage_sweep : postage.Justifies facts processExpiredQuotes := by
  refine Knowledge.justifies_await_bind trivial fun expired _ => ?_
  refine Knowledge.justifies_bind (Knowledge.justifies_forM fun intent hintent facts' hsub => ?_) fun _ _ _ => trivial
  refine Knowledge.justifies_tryCatch ?_ fun _ _ _ => trivial
  refine Knowledge.justifies_await_bind trivial fun now _ => ?_
  refine postage_transition fun updated hid facts'' hsub' hlogged _ => ?_
  refine postage_deliver _ hlogged (hsub' (List.mem_append_left _ (hsub (List.mem_append_right _ ?_))))
  exact List.mem_map_of_mem (f := fun intent : PaymentIntent => WebhookFact.owned intent.id intent.merchantId) hintent

theorem postage_op (op : Op) : postage.Justifies facts op.task := by
  have hdrop {β : Type} {p : Task β} (hp : postage.Justifies facts p) :
      postage.Justifies facts (p.bind fun _ => Prog.ret ()) := Knowledge.justifies_bind hp fun _ _ _ => trivial
  cases op with
  | createIntent => exact hdrop (postage_create _)
  | generateQuote => exact hdrop (postage_quote ..)
  | awaitPayment => exact hdrop (postage_await _)
  | recordDeposit => exact hdrop (postage_record ..)
  | detectDeposit => exact hdrop (postage_detect ..)
  | confirmDeposit | selectRoute | initiateSettlement | confirmSettlement | failIntent =>
    exact hdrop (postage_advance ..)
  | processExpiredQuotes => exact hdrop postage_sweep

theorem postage_retries : postage.Justifies facts processRetries := by
  refine Knowledge.justifies_await_bind trivial fun rows _ => ?_
  exact Knowledge.justifies_bind (Knowledge.justifies_forM fun id _ facts' _ => postage_attempt id) fun _ _ _ => trivial

/-- The tasks of the service and of the worker that retries. -/
inductive Posts : Task Unit → Prop where
  | op (op : Op) : Posts op.task
  | retries : Posts (processRetries.bind fun _ => Prog.ret ())

theorem postage_posts {p : Task Unit} (hp : Posts p) : postage.Justifies facts p := by
  cases hp with
  | op op => exact postage_op op
  | retries => exact Knowledge.justifies_bind postage_retries fun _ _ _ => trivial

/-! ## A whole run -/

/-- What stands on the wire: the event and the signature in the headers are those of the body. -/
structure Dispatched (db : Db) (url : String) (headers : List (String × Json)) (body : Payload) : Prop where
  recorded : ∃ intentId eventType, Addressed db intentId eventType url body
  event : headers.lookup "X-Webhook-Event" = body.get? "event_type"
  signature : headers.lookup "X-Webhook-Signature" = body.get? "signature"

/-- A request that is justified says what the recorded delivery says. -/
theorem sent_of_justified {url : String} {headers : List (String × Json)} {body : Payload}
    (hok : postage.ok facts (.fetch url headers body)) (hfacts : ∀ f ∈ facts, f.Holds db) :
    Dispatched db url headers body := by
  obtain ⟨d, hd, rfl, rfl, hevent, hsignature⟩ := hok
  have haddressed : Addressed db d.intentId d.eventType d.webhookUrl d.payload := hfacts _ hd
  obtain ⟨data, -, hsigned⟩ := haddressed.signed.signature
  refine ⟨⟨_, _, haddressed⟩, hevent.trans haddressed.signed.event.symm, ?_⟩
  rw [hsignature, hsigned, Option.getD_some]

/-- **Every webhook is right**, in whatever order the service and the worker that retries run, whatever fails and
wherever they are cut short: each recorded delivery, and each request that is about to be sent, goes to the merchant
of its intent, tells of an event in the log of that intent, and is signed for the data it carries. -/
theorem webhooks_addressed {w : Service} (hidle : w.tasks = []) (hdb : AllAddressed w.store)
    {cs : List (Choice Call Answer IntentError Unit Oracle)} (hstart : ∀ p, .spawn p ∈ cs → Posts p) :
    AllAddressed (w.exec handle cs).store ∧
      ∀ i url headers body, (w.exec handle cs).pending i = some (.fetch url headers body) →
        Dispatched (w.exec handle cs).store url headers body := by
  obtain ⟨db, tasks⟩ := w
  obtain rfl : tasks = [] := hidle
  have hknown : (Pool.exec handle ⟨db, []⟩ cs).GhostInv postage.protocol (postage.Sound AllAddressed) := by
    refine Knowledge.exec_knows (fun _ hp => postage_posts hp) (fun db facts a o hdb hfacts hok => ?_) hdb hstart
    exact ⟨postage_relied, postage_kept hdb hfacts hok, fun f hf => hf.handle a o, postage_learned hdb⟩
  obtain ⟨gs, -, hkept, -⟩ := id hknown
  refine ⟨hkept, fun i url headers body hpending => ?_⟩
  obtain ⟨facts, hok, hfacts⟩ := Knowledge.pending_justified hknown hpending
  exact sent_of_justified hok hfacts

/-- The shop is about to be told of the confirmation of `pi`. -/
def aboutToTell : List (Choice Call Answer IntentError Unit Oracle) :=
  .spawn confirmPi.task :: List.replicate 7 (.step 0 { now := 3 })

/-- The URL of the request that the task is about to send. -/
def urlOf (w : Service) (i : Nat) : Option String :=
  (w.pending i).bind fun a => match a with
    | .fetch url .. => some url
    | _ => none

/-- The rule up to the request for `pi`. -/
theorem webhooks_addressed_confirm :
    urlOf (Pool.exec handle ⟨notifiedDb, []⟩ aboutToTell) 0 = some "https://shop/hook" ∧
      AllAddressed (Pool.exec handle ⟨notifiedDb, []⟩ aboutToTell).store ∧
      ∀ i url headers body, (Pool.exec handle ⟨notifiedDb, []⟩ aboutToTell).pending i = some (.fetch url headers body) →
        Dispatched (Pool.exec handle ⟨notifiedDb, []⟩ aboutToTell).store url headers body := by
  refine ⟨by decide +kernel, webhooks_addressed rfl ?_ ?_⟩
  · have hnone : notifiedDb.deliveries.rows = [] := by decide +kernel
    intro d hd
    rw [hnone] at hd
    exact absurd hd List.not_mem_nil
  · intro p hp
    simp only [aboutToTell, List.mem_cons, List.mem_replicate, reduceCtorEq, and_false, or_false] at hp
    injection hp with hp
    exact hp ▸ .op confirmPi

end NexoraGateway.Intent
