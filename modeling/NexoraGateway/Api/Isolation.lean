import Mathlib.Data.Fintype.EquivFin
import NexoraGateway.Api.Scope
import NexoraGateway.Intent.Deposits

/-!
# Whether the routes keep merchants apart (REMAINING-IMPLEMENTATION-STRATEGY.md:440)

The sessions are to be scoped to a merchant and never to expose another one's intents. `getIntent` and `postQuote` take
an intent by its id alone, `postIntent` and `listIntents` a `merchant_id` that the client sends. `isolated_iff` says
which requests are isolated: those that name nothing of another merchant.

* `Alike` — the databases that a merchant's own intents and events do not tell apart.
* `Isolated` — a request is answered alike in all of them, and writes no intent of another merchant.
* `recast` — another merchant's intents, changed.
-/
namespace NexoraGateway.Api

open Async
open Intent (Db IntentError IntentEvent IntentState MerchantConfig NewPaymentIntent Oracle PaymentIntent mapRow)

def ownEvents (m : Id) (db : Db) : List IntentEvent := db.events.filter fun e => Owns m db e.intentId

/-- The foreign keys of migrations 002 and 003. -/
structure Referential (db : Db) : Prop where
  merchants : ∀ row ∈ db.intents.rows, (db.merchants.find? row.merchantId).isSome
  events : ∀ e ∈ db.events, (db.intents.find? e.intentId).isSome

/-- Databases that differ only in intents and events of merchants other than `m`. -/
structure Alike (m : Id) (db db' : Db) : Prop where
  merchants : db.merchants = db'.merchants
  deliveries : db.deliveries = db'.deliveries
  intents : own m db = own m db'
  events : ownEvents m db = ownEvents m db'

/-- The UUIDs that are drawn are new. -/
def Unused (ω : Nat → Oracle) (db : Db) : Prop := ∀ n, ∀ row ∈ db.intents.rows, row.id ≠ (ω n).uuid

/-- The request of `m` is answered as in every database that differs only in what belongs to others, and leaves
the others' intents as they are. -/
def Isolated (m : Id) (request : Request) (db : Db) : Prop :=
  ∀ db', Referential db' → Alike m db db' → ∀ ω, Unused ω db → Unused ω db' →
    let run := fun db => (respond (some m) request).run handleRoute ω 0 db
    (run db).1 = (run db').1 ∧ others m (run db).2.2 = others m db ∧ others m (run db').2.2 = others m db'

/-! ## What a request names -/

/-- No other merchant is registered. -/
def Alone (m : Id) (db : Db) : Prop := ∀ merchant ∈ db.merchants.rows, merchant.id = m

/-- What `postIntent` has created. -/
def submitted (merchant : Option Id) (body : IntentBody) : Option NewPaymentIntent :=
  match given ((given body.merchantId).or merchant), given body.orderRef, body.targetAmount.filter (· ≠ 0),
    given body.targetAsset, given body.targetChain, body.acceptedAssets.filter (· ≠ []) with
  | some merchantId, some orderRef, some targetAmount, some targetAsset, some targetChain, some acceptedAssets =>
    some { merchantId, orderRef, targetAmount, targetAsset, targetChain, acceptedAssets }
  | _, _, _, _, _, _ => none

/-- The merchant takes such an intent. -/
structure Takes (merchant : MerchantConfig) (data : NewPaymentIntent) : Prop where
  asset : data.targetAsset ∈ merchant.acceptedAssets
  chain : data.targetChain ∈ merchant.acceptedChains
  positive : 0 < data.targetAmount
  bounded : data.targetAmount ≤ 1000000

/-- The merchant exists, and takes it. -/
def Accepts (db : Db) (data : NewPaymentIntent) : Prop :=
  ∃ merchant, db.merchants.find? data.merchantId = some merchant ∧ Takes merchant data

/-- No row is on the page that is asked for, whatever rows there are. -/
def Blank (query : ListQuery) : Prop :=
  (bigint? (parseOr 20 query.limit)).getD 0 = 0 ∨ bigint? (parseOr 0 query.offset) = none

/-- No field is missing. -/
def Complete (body : QuoteBody) : Prop :=
  (body.rate.filter (· ≠ 0)).isSome ∧ (given body.depositAddress).isSome ∧ (given body.depositAsset).isSome ∧
    (given body.depositChain).isSome

/-- The request names nothing of another merchant. -/
def NamesOwn (m : Id) (db : Db) : Request → Prop
  | .create body => ∀ data ∈ submitted (some m) body, data.merchantId = m ∨ ¬ Accepts db data
  | .get id => Owns m db id ∨ Alone m db
  | .list query => ∀ merchantId ∈ given ((given query.merchantId).or (some m)),
      merchantId = m ∨ db.merchants.find? merchantId = none ∨ Blank query
  | .quote id body => Complete body → Owns m db id ∨ Alone m db

/-! ## The routes, run alone -/

variable {m id : Id} {db db' : Db} {ω : Nat → Oracle} {n : Nat}

/-- Nothing is rejected, and the UUIDs are new. -/
structure Calm (ω : Nat → Oracle) (db : Db) : Prop where
  fault : ∀ n, (ω n).fault = none
  unused : Unused ω db

theorem query_calm {α : Type} {o : Oracle} (ho : o.fault = none) (f : Db → α) (db : Db) :
    Intent.query o (fun db => return (f db, db)) db = (.ok (f db), db) := by
  rw [Intent.query_pure, ho]
  exact if_neg nofun

theorem getIntent_found (hω : Calm ω db) {row : PaymentIntent} (hrow : db.intents.find? id = some row) :
    ((getIntent id).run handleRoute ω 0 db).1 = .ok (intentReply (mapRow row) (Worker.getEvents id db)) := by
  have hfind : Intent.findById (ω 0) id db = (.ok (some (mapRow row)), db) := by
    rw [Intent.findById, query_calm (hω.fault 0), hrow]
    rfl
  have hevents : getEvents (ω 1) id db = (.ok (Worker.getEvents id db), db) := query_calm (hω.fault 1) _ db
  change (Prog.run handleRoute ω (Prog.bind (Prog.bind (Prog.ofExcept (Intent.findById (ω 0) id db).1) _) _) 1
    (Intent.findById (ω 0) id db).2).1 = _
  rw [hfind]
  change (Prog.run handleRoute ω (Prog.bind (Prog.bind (Prog.ofExcept (getEvents (ω 1) id db).1) _) _) 2
    (getEvents (ω 1) id db).2).1 = _
  rw [hevents]
  rfl

theorem listIntents_answered (hω : Calm ω db) {query : ListQuery} {merchant : Option Id} {merchantId : Id}
    (hquery : given ((given query.merchantId).or merchant) = some merchantId) {limit offset : Nat}
    (hlimit : bigint? (parseOr 20 query.limit) = some limit)
    (hoffset : bigint? (parseOr 0 query.offset) = some offset) :
    ((listIntents merchant query).run handleRoute ω 0 db).1 =
      .ok ⟨200, [("intents", .arr ((page limit offset
        (db.intents.rows.filter fun row => row.merchantId = merchantId)).map summary))]⟩ := by
  have hfind : findByMerchantId (ω 0) merchantId (parseOr 20 query.limit) (parseOr 0 query.offset) db =
      (.ok (page limit offset (db.intents.rows.filter fun row => row.merchantId = merchantId)), db) := by
    simp only [findByMerchantId, hlimit, hoffset]
    exact query_calm (hω.fault 0)
      (fun db => page limit offset (db.intents.rows.filter fun row => row.merchantId = merchantId)) db
  simp only [listIntents, hquery]
  change (Prog.run handleRoute ω (Prog.bind (Prog.ofExcept
    (findByMerchantId (ω 0) merchantId (parseOr 20 query.limit) (parseOr 0 query.offset) db).1) _) 1
    (findByMerchantId (ω 0) merchantId (parseOr 20 query.limit) (parseOr 0 query.offset) db).2).1 = _
  rw [hfind]
  rfl

theorem postQuote_complete {body : QuoteBody} (hbody : Complete body) (id : Id) :
    ∃ rate address asset chain, postQuote id body =
      tryCatch (do
        let result ← service (Intent.generateQuote id rate address asset chain)
        return ⟨200, [("intent_id", .str result.1.id), ("state", .str result.1.state.name),
          ("quote", quoteBody result.2)]⟩) answerQuoteError := by
  obtain ⟨hrate, haddress, hasset, hchain⟩ := hbody
  obtain ⟨rate, hrate⟩ := Option.isSome_iff_exists.1 hrate
  obtain ⟨address, haddress⟩ := Option.isSome_iff_exists.1 haddress
  obtain ⟨asset, hasset⟩ := Option.isSome_iff_exists.1 hasset
  obtain ⟨chain, hchain⟩ := Option.isSome_iff_exists.1 hchain
  exact ⟨rate, address, asset, chain, by simp only [postQuote, hrate, haddress, hasset, hchain]⟩

/-- A quote that fails is answered as its error is. -/
theorem postQuote_error {body : QuoteBody} (hbody : Complete body) {e : IntentError} {k : Nat}
    (hquote : ∀ rate address asset chain,
      (Intent.generateQuote id rate address asset chain).run Intent.handle ω 0 db = (.error e, k, db)) :
    (postQuote id body).run handle ω 0 db = (answerQuoteError e).run handle ω k db := by
  obtain ⟨rate, address, asset, chain, hpost⟩ := postQuote_complete hbody id
  have hservice : (service (Intent.generateQuote id rate address asset chain)).run handle ω 0 db =
      (.error e, k, db) := (service_run ..).trans (hquote ..)
  rw [hpost]
  exact Prog.run_tryCatch_of_error _ _ _ (Prog.run_bind_of_error _ _ _ hservice)

theorem postQuote_incomplete {body : QuoteBody} (hbody : ¬ Complete body) :
    postQuote id body =
      .ret (badRequest "Missing required fields: rate, deposit_address, deposit_asset, deposit_chain") := by
  unfold postQuote
  split
  · rename_i hrate haddress hasset hchain
    exact absurd ⟨Option.isSome_of_eq_some hrate, Option.isSome_of_eq_some haddress,
      Option.isSome_of_eq_some hasset, Option.isSome_of_eq_some hchain⟩ hbody
  · rfl

theorem generateQuote_unknown (hnone : db.intents.find? id = none) (rate : ℚ) (address asset chain : String) :
    (Intent.generateQuote id rate address asset chain).run Intent.handle ω n db =
      (.error (if (ω n).fault = some .query then .database .query else .intentNotFound id), n + 1, db) := by
  simp only [Intent.generateQuote, Prog.bind_def, Intent.run_bind_findById, Intent.findById, Intent.query_pure, hnone]
  split
  · rfl
  · rfl

theorem generateQuote_refused (hω : Calm ω db) {row : PaymentIntent} (hrow : db.intents.find? id = some row)
    (hstate : ¬ Intent.Valid row.state .quoted) (rate : ℚ) (address asset chain : String) :
    (Intent.generateQuote id rate address asset chain).run Intent.handle ω n db =
      (.error (.validation ("Cannot generate quote in state: " ++ row.state.name) []), n + 1, db) := by
  have hfind : Intent.findById (ω n) id db = (.ok (some (mapRow row)), db) := by
    rw [Intent.findById, query_calm (hω.fault n), hrow]
    rfl
  have hrefused : (!Intent.isValidTransition Intent.validTransitions (mapRow row).state .quoted) = true := by
    simpa [Intent.Valid] using hstate
  simp only [Intent.generateQuote, Prog.bind_def, Intent.run_bind_findById, hfind, Prog.ofExcept_ok, Prog.ret_bind,
    if_pos hrefused]
  rfl

theorem postIntent_submitted {merchant : Option Id} {body : IntentBody} {data : NewPaymentIntent}
    (h : submitted merchant body = some data) :
    postIntent merchant body =
      tryCatch (do
        let intent ← service (Intent.createIntent data)
        return createdReply intent) answerValidation := by
  unfold submitted at h
  split at h
  · rename_i hmerchant horder hamount hasset hchain haccepted
    cases h
    simp only [postIntent, hmerchant, horder, hamount, hasset, hchain, haccepted]
  · cases h

theorem postIntent_incomplete {merchant : Option Id} {body : IntentBody} (h : submitted merchant body = none) :
    ∃ reply, postIntent merchant body = .ret reply := by
  unfold submitted at h
  unfold postIntent
  split
  · rename_i hmerchant horder hamount hasset hchain
    split
    · exact ⟨_, rfl⟩
    · rename_i haccepted
      simp only [hmerchant, horder, hamount, hasset, hchain, haccepted] at h
      cases h
  · exact ⟨_, rfl⟩

/-- `createIntent` reads the merchant, and creates nothing that the merchant does not take. -/
theorem createIntent_checks (data : NewPaymentIntent) :
    ∃ f, Intent.createIntent data = (Intent.Task.getById data.merchantId).bind f ∧
      (∀ found, (∀ merchant ∈ found, ¬ Takes merchant data) → ∃ e, f found = .throw e) ∧
      ∀ merchant, Takes merchant data → ∃ g, f (some merchant) = (Intent.Task.create data).bind g ∧
        ∀ intent, (g intent).Only Intent.Call.KeepsIntents Intent.IntentError.External := by
  refine ⟨_, rfl, fun found hfound => ?_, fun merchant htakes => ?_⟩
  · cases found with
    | none => exact ⟨_, rfl⟩
    | some merchant =>
      dsimp only
      split_ifs with hasset hchain hpos hmax
      · exact ⟨_, rfl⟩
      · exact ⟨_, rfl⟩
      · exact ⟨_, rfl⟩
      · exact ⟨_, rfl⟩
      · refine absurd ⟨?_, ?_, ?_, ?_⟩ (hfound merchant rfl)
        · simpa using hasset
        · simpa using hchain
        · exact not_le.1 hpos
        · exact not_lt.1 hmax
  · dsimp only
    rw [if_neg (by simpa using htakes.asset), if_neg (by simpa using htakes.chain), if_neg (not_le.2 htakes.positive),
      if_neg (not_lt.2 htakes.bounded)]
    refine ⟨_, rfl, fun intent => ?_⟩
    exact Prog.Only.bind (Intent.deliverWebhook_only (fun _ => trivial) ..) fun _ => Prog.Only.ret _

theorem createIntent_refused {data : NewPaymentIntent} (h : ¬ Accepts db data) (ω : Nat → Oracle) (n : Nat) :
    ∃ e, ∀ db', db.merchants = db'.merchants →
      (Intent.createIntent data).run Intent.handle ω n db' = (.error e, n + 1, db') := by
  obtain ⟨f, hcreate, hthrow, -⟩ := createIntent_checks data
  have hstart (db' : Db) : (Intent.createIntent data).run Intent.handle ω n db' =
      ((Prog.ofExcept (Intent.getById (ω n) data.merchantId db').1).bind f).run Intent.handle ω (n + 1)
        (Intent.getById (ω n) data.merchantId db').2 := by
    rw [hcreate]
    rfl
  by_cases hfault : (ω n).fault = some .query
  · refine ⟨.database .query, fun db' _ => ?_⟩
    rw [hstart, Intent.getById, Intent.query_pure, if_pos hfault]
    rfl
  · obtain ⟨e, he⟩ := hthrow ((db.merchants.find? data.merchantId).map fun row =>
      { row with webhookUrl := row.webhookUrl.filter (· ≠ "") }) fun merchant hmerchant htakes => h <| by
        obtain ⟨row, hrow, rfl⟩ := Option.map_eq_some_iff.1 hmerchant
        exact ⟨row, hrow, htakes.asset, htakes.chain, htakes.positive, htakes.bounded⟩
    refine ⟨e, fun db' hsame => ?_⟩
    rw [hstart, Intent.getById, Intent.query_pure, if_neg hfault, ← hsame]
    simp only [Prog.ofExcept_ok, Prog.ret_bind, he]
    rfl

theorem create_calm {data : NewPaymentIntent} {merchant : MerchantConfig} {o : Oracle} (ho : o.fault = none)
    (hfree : db.intents.find? o.uuid = none) (hmerchant : db.merchants.find? data.merchantId = some merchant) :
    ∃ row intents, row.merchantId = data.merchantId ∧ db.intents.insert? row = some intents ∧
      (Intent.create o data db).1 = .ok (mapRow row) ∧ (Intent.create o data db).2.intents = intents := by
  let row : PaymentIntent :=
    { id := o.uuid, merchantId := data.merchantId, orderRef := data.orderRef
      targetAmount := decimal8 data.targetAmount, targetAsset := data.targetAsset
      targetChain := data.targetChain, acceptedAssets := data.acceptedAssets, createdAt := o.now
      updatedAt := o.now }
  obtain ⟨intents, hins⟩ : ∃ intents, db.intents.insert? row = some intents :=
    Option.isSome_iff_exists.1 (Store.Table.insert?_isSome.2 hfree)
  have hstatement (s : Intent.Statement) : Intent.statement o s = .ok () := by simp [Intent.statement, ho]
  refine ⟨row, intents, rfl, hins, ?_⟩
  unfold Intent.create Intent.transaction Store.atomically
  simp only [hstatement, hmerchant]
  simp [row, hins, bind, Except.bind, pure, Except.pure]

theorem createIntent_accepted {data : NewPaymentIntent} (h : Accepts db data) (hω : Calm ω db) :
    ∃ row intents, row.merchantId = data.merchantId ∧ db.intents.insert? row = some intents ∧
      ((Intent.createIntent data).run Intent.handle ω 0 db).2.2.intents = intents := by
  obtain ⟨merchant, hmerchant, htakes⟩ := h
  obtain ⟨f, hcreate, -, htake⟩ := createIntent_checks data
  obtain ⟨g, hg, hkeeps⟩ := htake { merchant with webhookUrl := merchant.webhookUrl.filter (· ≠ "") }
    ⟨htakes.asset, htakes.chain, htakes.positive, htakes.bounded⟩
  have hget : Intent.getById (ω 0) data.merchantId db =
      (.ok (some { merchant with webhookUrl := merchant.webhookUrl.filter (· ≠ "") }), db) := by
    rw [Intent.getById, query_calm (hω.fault 0), hmerchant]
    rfl
  have hstart : (Intent.createIntent data).run Intent.handle ω 0 db =
      ((Prog.ofExcept (Intent.create (ω 1) data db).1).bind g).run Intent.handle ω 2
        (Intent.create (ω 1) data db).2 := by
    rw [hcreate]
    change ((Prog.ofExcept (Intent.getById (ω 0) data.merchantId db).1).bind f).run Intent.handle ω 1
      (Intent.getById (ω 0) data.merchantId db).2 = _
    rw [hget, Prog.ofExcept_ok, Prog.ret_bind, hg]
    rfl
  obtain ⟨row, intents, hm, hins, hok, hdb⟩ := create_calm (hω.fault 1)
    (Store.Table.find?_eq_none.2 (hω.unused 1)) hmerchant
  refine ⟨row, intents, hm, hins, ?_⟩
  rw [hstart, hok, Prog.ofExcept_ok, Prog.ret_bind, (Intent.run_keepsIntents (hkeeps _) ω 2 _).2, hdb]

/-! ## Requests that name only what is their merchant's -/

theorem Alike.owns (h : Alike m db db') : Owns m db id ↔ Owns m db' id := by
  simp only [Owns, h.intents]

theorem Alike.beside (h : Alike m db db') {T : Id → Prop} (hT : ∀ id, T id → Owns m db id) :
    Beside m T db db' db db' :=
  ⟨h.merchants, h.deliveries, h.intents, hT, rfl, rfl⟩

theorem getEvents_own (h : Owns m db id) :
    Worker.getEvents id db = ((ownEvents m db).filter fun e => e.intentId = id).insertionSort
      fun a b => a.createdAt ≤ b.createdAt := by
  unfold Worker.getEvents ownEvents
  rw [List.filter_filter]
  congr 1
  apply List.filter_congr
  intro e _
  by_cases he : e.intentId = id
  · simp [he, h]
  · simp [he]

theorem Referential.no_events (h : Referential db) (hnone : db.intents.find? id = none) :
    Worker.getEvents id db = [] := by
  have hempty : db.events.filter (fun e => e.intentId = id) = [] := by
    rw [List.filter_eq_nil_iff]
    intro e he heq
    have hsome := h.events e he
    rw [of_decide_eq_true heq, hnone] at hsome
    cases hsome
  rw [Worker.getEvents, hempty]
  rfl

/-- Where nobody else is registered, an intent that is not `m`'s is nobody's. -/
theorem Referential.unknown (h : Referential db) (halone : Alone m db) (hid : ¬ Owns m db id) :
    db.intents.find? id = none := by
  cases hrow : db.intents.find? id with
  | none => rfl
  | some row =>
    obtain ⟨merchant, hmerchant⟩ := Option.isSome_iff_exists.1
      (h.merchants row (Store.Table.find?_eq_some.1 hrow).1)
    obtain ⟨hmem, hm⟩ := Store.Table.find?_eq_some.1 hmerchant
    exact absurd (owns_of_found hrow (hm.symm.trans (halone merchant hmem))) hid

theorem Alike.alone (h : Alike m db db') (halone : Alone m db) : Alone m db' := by
  unfold Alone
  rwa [← h.merchants]

/-- Operations on own intents. -/
theorem isolated_of_permitted {request : Request} {p : Task Reply} {T : Id → Prop}
    (hrespond : respond (some m) request = lift p) (hp : p.Only (RoutePermitted m T) fun _ => True)
    (hT : ∀ id, T id → Owns m db id) : Isolated m request db := by
  intro db' _ halike ω hω hω'
  dsimp only
  rw [hrespond, lift_run, lift_run]
  obtain ⟨hout, hrel⟩ := run_beside hp (fun n row hrow => hω n row (mem_others.1 hrow).1)
    (fun n row hrow => hω' n row (mem_others.1 hrow).1) 0 (halike.beside hT)
  exact ⟨hout, hrel.frozen, hrel.frozen'⟩

/-- Queries that only read, and are answered alike. -/
theorem isolated_of_reads {request : Request} (ok : RouteCall → Prop)
    (hp : (respond (some m) request).Only ok fun _ => True)
    (hok : ∀ db', Referential db' → Alike m db db' → ∀ a o, ok a →
      ∃ r, handleRoute a o db = (r, db) ∧ handleRoute a o db' = (r, db')) : Isolated m request db := by
  intro db' hdb' halike ω _ _
  have hcall (a : RouteCall) (n : Nat) (s s' : Db) (ha : ok a) (hs : s = db ∧ s' = db') :
      Agree (fun s s' => s = db ∧ s' = db') (handleRoute a (ω n) s) (handleRoute a (ω n) s') := by
    obtain ⟨rfl, rfl⟩ := hs
    obtain ⟨r, h, h'⟩ := hok _ hdb' halike a (ω n) ha
    rw [h, h']
    exact ⟨rfl, rfl, rfl⟩
  obtain ⟨hout, -, hsame, hsame'⟩ := hp.twins hcall 0 ⟨rfl, rfl⟩
  exact ⟨hout, congrArg (others m) hsame, congrArg (others m) hsame'⟩

theorem query_alike {α : Type} (o : Oracle) {f : Db → α} (h : f db = f db') :
    ∃ r, Intent.query o (fun db => return (f db, db)) db = (r, db) ∧
      Intent.query o (fun db => return (f db, db)) db' = (r, db') := by
  rw [Intent.query_pure, Intent.query_pure, h]
  split
  · exact ⟨_, rfl, rfl⟩
  · exact ⟨_, rfl, rfl⟩

theorem get_isolated (hdb : Referential db) (h : Owns m db id ∨ Alone m db) : Isolated m (.get id) db := by
  apply isolated_of_reads fun a => a = .route (.service (.findById id)) ∨ a = .getEvents id
  · refine Prog.Only.bind (Prog.Only.bind (Prog.Only.await (.inl rfl)) fun found => ?_) fun found => ?_
    · cases found with
      | none => exact Prog.Only.ret _
      | some intent => exact Prog.Only.bind (Prog.Only.await (.inr rfl)) fun _ => Prog.Only.ret _
    · cases found with
      | none => exact Prog.Only.ret _
      | some found => exact Prog.Only.ret _
  · intro db' hdb' halike a o ha
    by_cases hid : Owns m db id
    · obtain ⟨row, hrow, hrow', -⟩ := hid.found_both halike.intents
      rcases ha with rfl | rfl
      · exact query_alike o (f := fun db => (db.intents.find? id).map mapRow) (by rw [hrow, hrow'])
      · exact query_alike o (by rw [getEvents_own hid, getEvents_own (halike.owns.1 hid), halike.events])
    · have halone := h.resolve_left hid
      have hnone := hdb.unknown halone hid
      have hnone' := hdb'.unknown (halike.alone halone) (mt halike.owns.2 hid)
      rcases ha with rfl | rfl
      · exact query_alike o (f := fun db => (db.intents.find? id).map mapRow) (by rw [hnone, hnone'])
      · exact query_alike o (by rw [hdb.no_events hnone, hdb'.no_events hnone'])

theorem page_blank (offset : Nat) (rows : List PaymentIntent) : page 0 offset rows = [] := by
  simp [page]

theorem findByMerchantId_alike (hdb : Referential db) (hdb' : Referential db') (h : Alike m db db') {merchantId : Id}
    {limit offset : Option Int}
    (hnamed : merchantId = m ∨ db.merchants.find? merchantId = none ∨
      (bigint? limit).getD 0 = 0 ∨ bigint? offset = none) (o : Oracle) :
    ∃ r, findByMerchantId o merchantId limit offset db = (r, db) ∧
      findByMerchantId o merchantId limit offset db' = (r, db') := by
  have hnobody {t : Db} (ht : Referential t) (hnone : t.merchants.find? merchantId = none) :
      t.intents.rows.filter (fun row => row.merchantId = merchantId) = [] := by
    rw [List.filter_eq_nil_iff]
    intro row hrow heq
    have hsome := ht.merchants row hrow
    rw [of_decide_eq_true heq, hnone] at hsome
    cases hsome
  have hfails : ∃ r, ∀ db, Intent.query o (fun _ => throw (.database .query)) db =
      ((r : Except IntentError (List PaymentIntent)), db) := by
    refine ⟨.error (.database .query), fun db => ?_⟩
    unfold Intent.query Store.atomically Intent.statement
    by_cases hfault : o.fault = some .query
    · simp [hfault, bind, Except.bind]
    · simp only [hfault, if_false]
      rfl
  obtain ⟨r, hr⟩ := hfails
  unfold findByMerchantId
  cases hlimit : bigint? limit with
  | none => exact ⟨r, hr db, hr db'⟩
  | some limit =>
    cases hoffset : bigint? offset with
    | none => exact ⟨r, hr db, hr db'⟩
    | some offset =>
      refine query_alike o
        (f := fun db => page limit offset (db.intents.rows.filter fun row => row.merchantId = merchantId)) ?_
      rcases hnamed with rfl | hnone | hzero | hnone
      · exact congrArg (page limit offset) h.intents
      · rw [hnobody hdb hnone, hnobody hdb' (h.merchants ▸ hnone)]
      · rw [hlimit] at hzero
        cases hzero
        rw [page_blank, page_blank]
      · rw [hoffset] at hnone
        cases hnone

theorem list_isolated (hdb : Referential db) {query : ListQuery} (h : NamesOwn m db (.list query)) :
    Isolated m (.list query) db := by
  cases hquery : given ((given query.merchantId).or (some m)) with
  | none =>
    apply isolated_of_reads fun _ => False
    · simp only [respond, listIntents, hquery]
      exact Prog.Only.ret _
    · exact fun _ _ _ _ _ ha => ha.elim
  | some merchantId =>
    apply isolated_of_reads fun a => a = .findByMerchantId merchantId (parseOr 20 query.limit) (parseOr 0 query.offset)
    · simp only [respond, listIntents, hquery]
      exact Prog.Only.bind (Prog.Only.await rfl) fun _ => Prog.Only.ret _
    · rintro db' hdb' halike _ o rfl
      exact findByMerchantId_alike hdb hdb' halike (h merchantId hquery) o

theorem create_isolated {body : IntentBody} (h : NamesOwn m db (.create body)) : Isolated m (.create body) db := by
  have hnobody (id : Id) (hid : False) : Owns m db id := hid.elim
  have hreply (e : IntentError) : (answerValidation e).Only (RoutePermitted m fun _ => False) fun _ => True := by
    cases e with
    | validation message details => exact Prog.Only.ret _
    | _ => exact Prog.Only.throw trivial
  cases hbody : submitted (some m) body with
  | none =>
    obtain ⟨reply, hreply⟩ := postIntent_incomplete hbody
    exact isolated_of_permitted (congrArg lift hreply) (Prog.Only.ret _) hnobody
  | some data =>
    rcases h data hbody with hm | hrefused
    · refine isolated_of_permitted (congrArg lift (postIntent_submitted hbody)) ?_ hnobody
      refine Prog.Only.tryCatch (Prog.Only.bind ?_ fun _ => Prog.Only.ret _) fun e _ => hreply e
      exact service_permitted (createIntent_permitted hm)
    · intro db' _ halike ω _ _
      obtain ⟨e, he⟩ := createIntent_refused hrefused ω 0
      have hrun (t : Db) (hsame : db.merchants = t.merchants) :
          (respond (some m) (.create body)).run handleRoute ω 0 t = (answerValidation e).run handle ω 1 t := by
        have hservice := (service_run (Intent.createIntent data) ω 0 t).trans (he t hsame)
        rw [respond, lift_run, postIntent_submitted hbody]
        exact Prog.run_tryCatch_of_error _ _ _ (Prog.run_bind_of_error _ _ _ hservice)
      dsimp only
      rw [hrun db rfl, hrun db' halike.merchants]
      cases e with
      | _ => exact ⟨rfl, rfl, rfl⟩

theorem quote_isolated (hdb : Referential db) {body : QuoteBody} (h : NamesOwn m db (.quote id body)) :
    Isolated m (.quote id body) db := by
  have hreply (e : IntentError) : (answerQuoteError e).Only (RoutePermitted m fun i => i = id) fun _ => True := by
    cases e with
    | validation message details => exact Prog.Only.ret _
    | intentNotFound id => exact Prog.Only.ret _
    | _ => exact Prog.Only.throw trivial
  by_cases hbody : Complete body
  · by_cases hid : Owns m db id
    · obtain ⟨rate, address, asset, chain, hpost⟩ := postQuote_complete hbody id
      refine isolated_of_permitted (congrArg lift hpost) ?_ fun i (hi : i = id) => hi ▸ hid
      refine Prog.Only.tryCatch (Prog.Only.bind ?_ fun _ => Prog.Only.ret _) fun e _ => hreply e
      exact service_permitted (generateQuote_permitted (T := fun i => i = id) rfl ..)
    · have halone := (h hbody).resolve_left hid
      intro db' hdb' halike ω _ _
      have hnone := hdb.unknown halone hid
      have hnone' := hdb'.unknown (halike.alone halone) (mt halike.owns.2 hid)
      dsimp only [respond]
      rw [lift_run, lift_run, postQuote_error hbody (generateQuote_unknown hnone),
        postQuote_error hbody (generateQuote_unknown hnone')]
      by_cases hfault : (ω 0).fault = some .query
      · rw [if_pos hfault]
        exact ⟨rfl, rfl, rfl⟩
      · rw [if_neg hfault]
        exact ⟨rfl, rfl, rfl⟩
  · have hrefused : postQuote id body = .ret _ := postQuote_incomplete hbody
    exact isolated_of_permitted (T := fun _ => False) (congrArg lift hrefused) (Prog.Only.ret _) nofun

/-! ## Requests that name what is another's -/

/-- An intent of `owner`. -/
def strange (owner : Id) (state : IntentState) (id : Id) : PaymentIntent :=
  { id, merchantId := owner, orderRef := "", targetAmount := 1, targetAsset := "", targetChain := ""
    acceptedAssets := [], state, createdAt := 0, updatedAt := 0 }

/-- Whatever is not `m`'s is in `state`, and `owner` has new intents. -/
def recast (m owner : Id) (state : IntentState) (db : Db) (ids : List Id)
    (hids : (db.intents.rows.map PaymentIntent.id ++ ids).Nodup) : Db :=
  let changed := db.intents.updateWhere (fun row => row.merchantId ≠ m) (fun row => { row with state }) fun _ => rfl
  { db with
    intents := ⟨changed.rows ++ ids.map (strange owner state), by
      have hchanged : changed.rows.map PaymentIntent.id = db.intents.rows.map PaymentIntent.id :=
        Store.Table.map_updateWhere fun _ => rfl
      have hstrange : (ids.map (strange owner state)).map PaymentIntent.id = ids := by
        rw [List.map_map]
        exact List.map_id _
      rwa [List.map_append, hchanged, hstrange]⟩ }

section
variable {owner : Id} {state : IntentState} {ids : List Id}
  {hids : (db.intents.rows.map PaymentIntent.id ++ ids).Nodup}

theorem mem_recast {row : PaymentIntent} : row ∈ (recast m owner state db ids hids).intents.rows ↔
    (∃ u ∈ db.intents.rows, (if u.merchantId ≠ m then { u with state } else u) = row) ∨
      ∃ id ∈ ids, strange owner state id = row := by
  simp only [recast, List.mem_append, Store.Table.mem_updateWhere, List.mem_map, decide_eq_true_eq]

theorem recast_ids : (recast m owner state db ids hids).intents.rows.map PaymentIntent.id =
    db.intents.rows.map PaymentIntent.id ++ ids := by
  simp only [recast, List.map_append, List.map_map]
  congr 1
  · exact Store.Table.map_updateWhere fun _ => rfl
  · exact List.map_id _

theorem recast_alike (howner : owner ≠ m) : Alike m db (recast m owner state db ids hids) := by
  have hstrange : (ids.map (strange owner state)).filter (fun row => row.merchantId = m) = [] := by
    simp [List.filter_eq_nil_iff, strange, howner]
  have hkept : (db.intents.updateWhere (fun row => row.merchantId ≠ m) (fun row => { row with state })
      fun _ => rfl).rows.filter (fun row => row.merchantId = m) =
      db.intents.rows.filter fun row => row.merchantId = m :=
    Store.Table.filter_updateWhere_of_not (fun _ => rfl) fun row _ hm => by simpa using hm
  have hown : own m (recast m owner state db ids hids) = own m db := by
    simp only [own, recast, List.filter_append, hstrange, hkept, List.append_nil]
  refine ⟨rfl, rfl, hown.symm, ?_⟩
  unfold ownEvents
  simp only [Owns, hown]
  rfl

theorem recast_referential (hdb : Referential db) (howner : (db.merchants.find? owner).isSome) :
    Referential (recast m owner state db ids hids) := by
  constructor
  · intro row hrow
    rcases mem_recast.1 hrow with ⟨u, hu, rfl⟩ | ⟨id, -, rfl⟩
    · have hsome := hdb.merchants u hu
      split
      · exact hsome
      · exact hsome
    · exact howner
  · intro e he
    obtain ⟨u, hu⟩ := Option.isSome_iff_exists.1 (hdb.events e he)
    obtain ⟨hmem, hid⟩ := Store.Table.find?_eq_some.1 hu
    refine Option.isSome_iff_exists.2 ⟨if u.merchantId ≠ m then { u with state } else u, ?_⟩
    refine Store.Table.find?_eq_some.2 ⟨mem_recast.2 (.inl ⟨u, hmem, rfl⟩), ?_⟩
    split
    · exact hid
    · exact hid

/-- An intent that is not `m`'s is there, in `state`. -/
theorem recast_found (hid : ¬ Owns m db id) (hthere : (db.intents.find? id).isSome ∨ id ∈ ids) :
    ∃ row, (recast m owner state db ids hids).intents.find? id = some row ∧ row.state = state := by
  rcases hthere with hthere | hmem
  · obtain ⟨u, hu⟩ := Option.isSome_iff_exists.1 hthere
    have hm : u.merchantId ≠ m := fun hm => hid (owns_of_found hu hm)
    obtain ⟨hmem, hid⟩ := Store.Table.find?_eq_some.1 hu
    refine ⟨{ u with state }, ?_, rfl⟩
    exact Store.Table.find?_eq_some.2 ⟨mem_recast.2 (.inl ⟨u, hmem, if_pos hm⟩), hid⟩
  · exact ⟨strange owner state id,
      Store.Table.find?_eq_some.2 ⟨mem_recast.2 (.inr ⟨id, hmem, rfl⟩), rfl⟩, rfl⟩

end

theorem exists_new (taken : List Id) : ∃ id, id ∉ taken := by
  obtain ⟨id, hid⟩ := Infinite.exists_notMem_finset taken.toFinset
  exact ⟨id, mt List.mem_toFinset.2 hid⟩

theorem calm_of_new {uuid : Id} (h : uuid ∉ db.intents.rows.map PaymentIntent.id) :
    Calm (fun _ => { now := 0, uuid }) db := by
  refine ⟨fun _ => rfl, ?_⟩
  rintro - row hrow rfl
  exact h (List.mem_map_of_mem hrow)

/-- A merchant that cannot tell two states of another's intent is not told which of them it is. -/
theorem Isolated.untold {request : Request} (h : Isolated m request db) (hdb : Referential db) {owner : Id}
    (howner : owner ≠ m) (hregistered : (db.merchants.find? owner).isSome) {ids : List Id}
    (hids : (db.intents.rows.map PaymentIntent.id ++ ids).Nodup) :
    ∃ ω : Nat → Oracle, ∀ state state', Calm ω (recast m owner state db ids hids) ∧
      ((respond (some m) request).run handleRoute ω 0 (recast m owner state db ids hids)).1 =
        ((respond (some m) request).run handleRoute ω 0 (recast m owner state' db ids hids)).1 := by
  obtain ⟨uuid, huuid⟩ := exists_new (db.intents.rows.map PaymentIntent.id ++ ids)
  have hcalm (state : IntentState) : Calm (fun _ => { now := 0, uuid }) (recast m owner state db ids hids) :=
    calm_of_new (by rwa [recast_ids])
  have hdbcalm : Calm (fun _ => { now := 0, uuid }) db := calm_of_new (mt (List.mem_append_left ids) huuid)
  refine ⟨fun _ => { now := 0, uuid }, fun state state' => ⟨hcalm state, ?_⟩⟩
  have hout (state : IntentState) := (h _ (recast_referential hdb hregistered) (recast_alike howner) _ hdbcalm.unused
    (hcalm state).unused).1
  exact (hout state).symm.trans (hout state')

/-- Another merchant. -/
theorem exists_other (halone : ¬ Alone m db) : ∃ owner ≠ m, (db.merchants.find? owner).isSome := by
  simp only [Alone, not_forall] at halone
  obtain ⟨merchant, hmem, hne⟩ := halone
  exact ⟨merchant.id, hne, Option.isSome_iff_exists.2 ⟨merchant, Store.Table.find?_eq_some.2 ⟨hmem, rfl⟩⟩⟩

/-- An intent that is not `m`'s: it is another merchant's, or could be one. -/
theorem exists_recast (id : Id) : ∃ ids, (db.intents.rows.map PaymentIntent.id ++ ids).Nodup ∧
    ((db.intents.find? id).isSome ∨ id ∈ ids) := by
  cases hrow : db.intents.find? id with
  | some row => exact ⟨[], by simpa using db.intents.nodup, .inl rfl⟩
  | none =>
    refine ⟨[id], ?_, .inr List.mem_cons_self⟩
    refine List.nodup_append.2 ⟨db.intents.nodup, List.nodup_singleton id, ?_⟩
    rintro _ hmem _ hid rfl
    obtain ⟨row, hrow', rfl⟩ := List.mem_map.1 hmem
    exact Store.Table.find?_eq_none.1 hrow row hrow' (List.mem_singleton.1 hid)

/-- A request whose answer tells a settled intent from a failed one names its merchant's. -/
theorem owns_of_told {request : Request} (hdb : Referential db) (h : Isolated m request db)
    (htold : ∀ ω t t' row row', Calm ω t → Calm ω t' →
      t.intents.find? id = some row → t'.intents.find? id = some row' → row.state = .settled → row'.state = .failed →
      ((respond (some m) request).run handleRoute ω 0 t).1 ≠
        ((respond (some m) request).run handleRoute ω 0 t').1) :
    Owns m db id ∨ Alone m db := by
  by_contra hnot
  obtain ⟨hid, halone⟩ := not_or.1 hnot
  obtain ⟨owner, howner, hregistered⟩ := exists_other halone
  obtain ⟨ids, hids, hthere⟩ := @exists_recast db id
  obtain ⟨ω, hω⟩ := h.untold hdb howner hregistered hids
  obtain ⟨row, hrow, hstate⟩ := @recast_found m id db owner .settled ids hids hid hthere
  obtain ⟨row', hrow', hstate'⟩ := @recast_found m id db owner .failed ids hids hid hthere
  exact htold ω _ _ row row' (hω .settled .failed).1 (hω .failed .settled).1 hrow hrow' hstate hstate'
    (hω .settled .failed).2

theorem get_names_own (hdb : Referential db) (h : Isolated m (.get id) db) : Owns m db id ∨ Alone m db := by
  refine owns_of_told hdb h fun ω t t' row row' hω hω' hrow hrow' hstate hstate' hsame => ?_
  rw [respond, getIntent_found hω hrow, getIntent_found hω' hrow'] at hsame
  have hbody := congrArg Reply.body (Except.ok.inj hsame)
  simp [intentReply, hstate, hstate', IntentState.name] at hbody

theorem quote_names_own (hdb : Referential db) {body : QuoteBody} (h : Isolated m (.quote id body) db)
    (hbody : Complete body) : Owns m db id ∨ Alone m db := by
  refine owns_of_told hdb h fun ω t t' row row' hω hω' hrow hrow' hstate hstate' hsame => ?_
  have hclosed {row : PaymentIntent} (h : row.state = .settled ∨ row.state = .failed) :
      ¬ Intent.Valid row.state .quoted := by
    rcases h with h | h
    · rw [h]
      decide
    · rw [h]
      decide
  rw [respond, lift_run, lift_run, postQuote_error hbody (generateQuote_refused hω hrow (hclosed (.inl hstate))),
    postQuote_error hbody (generateQuote_refused hω' hrow' (hclosed (.inr hstate')))] at hsame
  have hreply := congrArg Reply.body (Except.ok.inj hsame)
  simp [badRequest, errorReply, hstate, hstate', IntentState.name] at hreply

/-- The store after a route that answers what an operation ends in. -/
theorem answered_store {α : Type} (q : Intent.Task α) (f : α → Reply) {c : IntentError → Task Reply}
    (hc : ∀ e k t, ((c e).run handle ω k t).2.2 = t) :
    ((tryCatch (do
      let x ← service q
      return f x) c : Task Reply).run handle ω n db).2.2 = (q.run Intent.handle ω n db).2.2 := by
  change ((((service q).bind fun x => .ret (f x)).tryCatch c).run handle ω n db).2.2 = _
  rw [Prog.run_tryCatch, Prog.run_bind, service_run]
  rcases q.run Intent.handle ω n db with ⟨e | x, k, t⟩
  · exact hc e k t
  · rfl

theorem create_names_own (hdb : Referential db) {body : IntentBody} (h : Isolated m (.create body) db)
    {data : NewPaymentIntent} (hdata : submitted (some m) body = some data) :
    data.merchantId = m ∨ ¬ Accepts db data := by
  by_contra hnot
  obtain ⟨hm, haccepts⟩ := not_or.1 hnot
  obtain ⟨uuid, huuid⟩ := exists_new (db.intents.rows.map PaymentIntent.id)
  have hω := calm_of_new huuid
  obtain ⟨row, intents, hrow, hins, hrun⟩ := createIntent_accepted (not_not.1 haccepts) hω
  have hothers := (h db hdb ⟨rfl, rfl, rfl, rfl⟩ _ hω.unused hω.unused).2.1
  dsimp only [respond] at hothers
  rw [lift_run, postIntent_submitted hdata, answered_store _ _ fun e _ _ => by cases e <;> rfl] at hothers
  have hlength := congrArg List.length hothers
  unfold others at hlength
  rw [hrun, Store.Table.rows_insert? hins, List.filter_append] at hlength
  simp [hrow, hm] at hlength

/-- There are as many new identifiers as one likes. -/
theorem exists_ids {taken : List Id} (htaken : taken.Nodup) (count : Nat) :
    ∃ ids : List Id, ids.length = count ∧ (taken ++ ids).Nodup := by
  induction count with
  | zero => exact ⟨[], rfl, by rwa [List.append_nil]⟩
  | succ count ih =>
    obtain ⟨ids, hcount, hids⟩ := ih
    obtain ⟨id, hid⟩ := exists_new (taken ++ ids)
    refine ⟨ids ++ [id], by rw [List.length_append, hcount]; rfl, ?_⟩
    rw [← List.append_assoc]
    refine List.nodup_append.2 ⟨hids, List.nodup_singleton id, ?_⟩
    rintro a ha b hb rfl
    exact hid (List.mem_singleton.1 hb ▸ ha)

theorem mem_page {limit offset : Nat} {rows : List PaymentIntent} {i : PaymentIntent}
    (h : i ∈ page limit offset rows) : ∃ row ∈ rows, mapRow row = i := by
  obtain ⟨row, hrow, rfl⟩ := List.mem_map.1 h
  exact ⟨row, (List.mem_insertionSort _).1 (List.mem_of_mem_drop (List.mem_of_mem_take hrow)), rfl⟩

theorem page_ne_nil {limit offset : Nat} {rows : List PaymentIntent} (hlimit : 0 < limit)
    (hoffset : offset < rows.length) : page limit offset rows ≠ [] := by
  intro hnil
  have hlength := congrArg List.length hnil
  simp only [page, List.length_map, List.length_take, List.length_drop, List.length_insertionSort,
    List.length_nil] at hlength
  omega

theorem list_names_own (hdb : Referential db) {query : ListQuery} (h : Isolated m (.list query) db)
    {merchantId : Id} (hquery : given ((given query.merchantId).or (some m)) = some merchantId) :
    merchantId = m ∨ db.merchants.find? merchantId = none ∨ Blank query := by
  by_contra hnot
  simp only [not_or, Blank] at hnot
  obtain ⟨hm, hregistered, hlimit, hoffset⟩ := hnot
  obtain ⟨offset, hoffset⟩ := Option.ne_none_iff_exists'.1 hoffset
  obtain ⟨limit, hlimit, hpos⟩ : ∃ limit, bigint? (parseOr 20 query.limit) = some limit ∧ 0 < limit := by
    cases hl : bigint? (parseOr 20 query.limit) with
    | none => exact absurd (by rw [hl]; rfl) hlimit
    | some limit => exact ⟨limit, rfl, Nat.pos_of_ne_zero fun hzero => hlimit (by rw [hl, hzero]; rfl)⟩
  obtain ⟨ids, hcount, hids⟩ := exists_ids db.intents.nodup (offset + 1)
  obtain ⟨ω, hω⟩ := h.untold hdb hm (Option.isSome_iff_ne_none.2 hregistered) hids
  let rows (state : IntentState) := (recast m merchantId state db ids hids).intents.rows.filter
    fun row => row.merchantId = merchantId
  have hstate {state : IntentState} {i : PaymentIntent} (hi : i ∈ page limit offset (rows state)) :
      i.state = state := by
    obtain ⟨row, hrow, rfl⟩ := mem_page hi
    obtain ⟨hmem, hrow⟩ := List.mem_filter.1 hrow
    rcases mem_recast.1 hmem with ⟨u, -, rfl⟩ | ⟨id, -, rfl⟩
    · split at hrow
      · rename_i hu
        rw [if_pos hu]
        rfl
      · rename_i hu
        exact absurd ((of_decide_eq_true hrow).symm.trans (not_not.1 hu)) hm
    · rfl
  have hmany (state : IntentState) : offset < (rows state).length := by
    have hnew : (ids.map (strange merchantId state)).filter (fun row => row.merchantId = merchantId) =
        ids.map (strange merchantId state) := by
      simp [List.filter_eq_self, strange]
    simp only [rows, recast, List.filter_append, hnew, List.length_append, List.length_map, hcount]
    omega
  have hsame := (hω .settled .failed).2
  rw [respond, listIntents_answered (hω .settled .failed).1 hquery hlimit hoffset,
    listIntents_answered (hω .failed .settled).1 hquery hlimit hoffset] at hsame
  have hpages : (page limit offset (rows .settled)).map summary = (page limit offset (rows .failed)).map summary := by
    simpa using congrArg Reply.body (Except.ok.inj hsame)
  obtain ⟨i, hi⟩ := List.exists_mem_of_ne_nil _ (page_ne_nil hpos (hmany .settled))
  obtain ⟨j, hj, hij⟩ := List.mem_map.1 (hpages ▸ List.mem_map_of_mem hi)
  simp [summary, hstate hi, hstate hj, IntentState.name] at hij

/-- **Which requests are isolated**: those that name nothing of another merchant. The routes look an intent up by
its id alone, and take the `merchant_id` that the client sends for the one of the session. -/
theorem isolated_iff (m : Id) (request : Request) (db : Db) (hdb : Referential db) :
    Isolated m request db ↔ NamesOwn m db request := by
  cases request with
  | create body => exact ⟨fun h data hdata => create_names_own hdb h hdata, create_isolated⟩
  | get id => exact ⟨get_names_own hdb, get_isolated hdb⟩
  | list query => exact ⟨fun h merchantId hquery => list_names_own hdb h hquery, list_isolated hdb⟩
  | quote id body => exact ⟨quote_names_own hdb, quote_isolated hdb⟩

/-- The shop and a rival of it, without intents. -/
def bareMarket : Db :=
  { merchants := ⟨[Intent.shop, { Intent.shop with id := "rival", name := "Rival" }], by decide⟩
    intents := .empty, events := [], deliveries := .empty }

/-- The rival has created an intent. -/
def market : Db := { bareMarket with intents := ⟨[strange "rival" .created "pi-2"], List.nodup_singleton _⟩ }

theorem market_referential : Referential market where
  merchants row hrow := by
    rw [List.mem_singleton.1 hrow]
    rfl
  events _ he := absurd he List.not_mem_nil

/-- The address that the shop supplies for whatever it quotes. -/
def shopQuote : QuoteBody :=
  { rate := some 1, depositAddress := some "0xshop", depositAsset := some "USDC", depositChain := some "ethereum" }

/-- The rule at the market: the shop's own list is isolated, its requests for its rival's intent are not. -/
theorem isolated_iff_market : Isolated "shop" (.list {}) market ∧ ¬ Isolated "shop" (.get "pi-2") market ∧
    ¬ Isolated "shop" (.quote "pi-2" shopQuote) market := by
  have hunowned : ¬ (Owns "shop" market "pi-2" ∨ Alone "shop" market) := by
    rintro (hid | halone)
    · revert hid
      decide +kernel
    · exact absurd (halone _ (List.mem_cons_of_mem _ List.mem_cons_self)) (by decide)
  refine ⟨(isolated_iff _ _ market market_referential).2 ?_,
    mt (isolated_iff _ _ market market_referential).1 hunowned, mt (isolated_iff _ _ market market_referential).1 ?_⟩
  · rintro _ hmem
    exact .inl (Option.some.inj hmem).symm
  · exact fun h => hunowned (h ⟨by decide +kernel, by decide, by decide, by decide⟩)

theorem bareMarket_referential : Referential bareMarket where
  merchants _ hrow := absurd hrow List.not_mem_nil
  events _ he := absurd he List.not_mem_nil

/-- The shop asks for its rival's intent, and is answered with it; the shop quotes it, and the rival's customer is
to pay the shop. -/
theorem rival_exposed :
    let status := fun request db =>
      ((respond (some "shop") request).run handleRoute (Intent.calm 0) 0 db).1.toOption.map Reply.status
    let quoted := ((respond (some "shop") (.quote "pi-2" shopQuote)).run handleRoute (Intent.calm 0) 0 market).2.2
    ¬ Isolated "shop" (.get "pi-2") market ∧
      (status (.get "pi-2") market = some 200 ∧ status (.get "pi-2") bareMarket = some 404) ∧
      (others "shop" market).map PaymentIntent.depositAddress = [none] ∧
        (others "shop" quoted).map PaymentIntent.depositAddress = [some "0xshop"] := by
  intro status quoted
  have halike : Alike "shop" market bareMarket := ⟨rfl, rfl, by decide +kernel, rfl⟩
  have hunused : Unused (Intent.calm 0) market ∧ Unused (Intent.calm 0) bareMarket := by
    refine ⟨fun _ row hrow => ?_, fun _ row hrow => absurd hrow List.not_mem_nil⟩
    rw [List.mem_singleton.1 hrow]
    exact show ("pi-2" : Id) ≠ "pi" by decide
  have hstatus : status (.get "pi-2") market = some 200 ∧ status (.get "pi-2") bareMarket = some 404 := by
    decide +kernel
  refine ⟨fun h => ?_, hstatus, by decide +kernel, by decide +kernel⟩
  have hsame := (h bareMarket bareMarket_referential halike (Intent.calm 0) hunused.1 hunused.2).1
  have hsame' := congrArg (fun out => out.toOption.map Reply.status) hsame
  exact absurd (hstatus.1.symm.trans (hsame'.trans hstatus.2)) (by decide)

end NexoraGateway.Api
