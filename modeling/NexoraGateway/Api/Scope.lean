import NexoraGateway.Api.Requests
import NexoraGateway.Async.Twins

/-!
# What belongs to a merchant

The intents of one merchant beside those of the others. An operation on intents of merchant `m` runs alike on two
databases that hold the same of `m`, and writes nothing of the others: `handle_beside` for a call, and with the rule
of two runs (`Prog.Only.twins`) for a whole operation.

* `Permitted` — the calls that name only what belongs to `m`.
* `Beside` — the relation between the two databases.
-/
namespace NexoraGateway.Api

open Async
open Intent (Db IntentError NewPaymentIntent Oracle PaymentIntent mapRow)

def own (m : Id) (db : Db) : List PaymentIntent := db.intents.rows.filter fun row => row.merchantId = m

def others (m : Id) (db : Db) : List PaymentIntent := db.intents.rows.filter fun row => row.merchantId ≠ m

theorem mem_own {m : Id} {db : Db} {row : PaymentIntent} :
    row ∈ own m db ↔ row ∈ db.intents.rows ∧ row.merchantId = m := by
  simp [own]

theorem mem_others {m : Id} {db : Db} {row : PaymentIntent} :
    row ∈ others m db ↔ row ∈ db.intents.rows ∧ row.merchantId ≠ m := by
  simp [others]

/-- The intent is one of `m`. -/
def Owns (m : Id) (db : Db) (id : Id) : Prop := ∃ row ∈ own m db, row.id = id

instance (m : Id) (db : Db) (id : Id) : Decidable (Owns m db id) :=
  inferInstanceAs (Decidable (∃ row ∈ own m db, _))

theorem owns_of_found {m : Id} {db : Db} {id : Id} {row : PaymentIntent} (h : db.intents.find? id = some row)
    (hm : row.merchantId = m) : Owns m db id :=
  ⟨row, mem_own.2 ⟨(Store.Table.find?_eq_some.1 h).1, hm⟩, (Store.Table.find?_eq_some.1 h).2⟩

/-- What belongs to `m` is read alike. -/
theorem Owns.found_both {m : Id} {db db' : Db} {id : Id} (h : Owns m db id) (hown : own m db = own m db') :
    ∃ row, db.intents.find? id = some row ∧ db'.intents.find? id = some row ∧ row.merchantId = m := by
  obtain ⟨row, hrow, hid⟩ := h
  obtain ⟨hmem, hm⟩ := mem_own.1 hrow
  obtain ⟨hmem', -⟩ := mem_own.1 (hown ▸ hrow)
  exact ⟨row, Store.Table.find?_eq_some.2 ⟨hmem, hid⟩, Store.Table.find?_eq_some.2 ⟨hmem', hid⟩, hm⟩

/-- The calls that name only intents of `m`, of which the ones that are there already are in `T`. -/
def Permitted (m : Id) (T : Id → Prop) : Intent.Call → Prop
  | .findById id | .transition id _ _ | .updateQuote id _ _ _ => T id
  | .create data => data.merchantId = m
  | .findExpiredIntents => False
  | _ => True

/-- Two databases that hold the same of `m`, while the others' intents are those of `db` and of `db'`. -/
structure Beside (m : Id) (T : Id → Prop) (db db' s s' : Db) : Prop where
  merchants : s.merchants = s'.merchants
  deliveries : s.deliveries = s'.deliveries
  shared : own m s = own m s'
  owned : ∀ id, T id → Owns m s id
  frozen : others m s = others m db
  frozen' : others m s' = others m db'

/-- A row that is written: where it is one of `m`, so is the row that it was. -/
structure Writes (m : Id) (p : PaymentIntent → Bool) (f : PaymentIntent → PaymentIntent) (s : Db) : Prop where
  owner : ∀ row, (f row).merchantId = row.merchantId
  owned : ∀ row ∈ s.intents.rows, p row = true → row.merchantId = m

section
variable {m : Id} {T : Id → Prop} {db db' s s' : Db} {p : PaymentIntent → Bool}
  {f : PaymentIntent → PaymentIntent} {hf : ∀ row, (f row).id = row.id}

theorem own_updateWhere (hown : ∀ row, (f row).merchantId = row.merchantId) (es : List Intent.IntentEvent) :
    own m { s with intents := s.intents.updateWhere p f hf, events := es } =
      (own m s).map fun row => if p row then f row else row := by
  apply Store.Table.filter_updateWhere
  · exact hf
  · intro row
    rw [hown]

theorem Writes.others (h : Writes m p f s) (es : List Intent.IntentEvent) :
    Api.others m { s with intents := s.intents.updateWhere p f hf, events := es } = Api.others m s := by
  apply Store.Table.filter_updateWhere_of_not
  · exact hf
  · intro row
    rw [h.owner]
  · intro row hrow hother
    by_contra hp
    exact of_decide_eq_true hother (h.owned row hrow (by simpa using hp))

/-- The same rows of `m` are written in both. -/
theorem Beside.update (h : Beside m T db db' s s') (hw : Writes m p f s) (hw' : Writes m p f s')
    (es es' : List Intent.IntentEvent) :
    Beside m T db db' { s with intents := s.intents.updateWhere p f hf, events := es }
      { s' with intents := s'.intents.updateWhere p f hf, events := es' } where
  merchants := h.merchants
  deliveries := h.deliveries
  shared := by rw [own_updateWhere hw.owner, own_updateWhere hw.owner, h.shared]
  owned id hid := by
    obtain ⟨row, hrow, rfl⟩ := h.owned id hid
    refine ⟨if p row then f row else row, ?_, ?_⟩
    · rw [own_updateWhere hw.owner]
      exact List.mem_map_of_mem hrow
    · split
      · exact hf row
      · rfl
  frozen := (hw.others es).trans h.frozen
  frozen' := (hw'.others es').trans h.frozen'

/-- The same row of `m` is added in both. -/
theorem Beside.insert (h : Beside m T db db' s s') {row : PaymentIntent} (hrow : row.merchantId = m)
    {intents intents' : Store.Table PaymentIntent.id} (hins : s.intents.insert? row = some intents)
    (hins' : s'.intents.insert? row = some intents') (es es' : List Intent.IntentEvent) :
    Beside m T db db' { s with intents, events := es } { s' with intents := intents', events := es' } := by
  have hmore {t : Db} {rows : Store.Table PaymentIntent.id} (hins : t.intents.insert? row = some rows)
      (es : List Intent.IntentEvent) : own m { t with intents := rows, events := es } = own m t ++ [row] := by
    simp only [own, Store.Table.rows_insert? hins, List.filter_append]
    simp [hrow]
  have hsame {t : Db} {rows : Store.Table PaymentIntent.id} (hins : t.intents.insert? row = some rows)
      (es : List Intent.IntentEvent) : others m { t with intents := rows, events := es } = others m t := by
    simp only [others, Store.Table.rows_insert? hins, List.filter_append]
    simp [hrow]
  constructor
  · exact h.merchants
  · exact h.deliveries
  · rw [hmore hins, hmore hins', h.shared]
  · intro id hid
    obtain ⟨u, hu, hid⟩ := h.owned id hid
    exact ⟨u, by rw [hmore hins]; exact List.mem_append_left _ hu, hid⟩
  · exact (hsame hins es).trans h.frozen
  · exact (hsame hins' es').trans h.frozen'

/-- An `INSERT` of a row of `m` meets the same rows with its key. -/
theorem Beside.insert_both (h : Beside m T db db' s s') {row : PaymentIntent}
    (hfresh : ∀ other ∈ Api.others m db, other.id ≠ row.id)
    (hfresh' : ∀ other ∈ Api.others m db', other.id ≠ row.id) :
    (s.intents.insert? row = none ∧ s'.intents.insert? row = none) ∨
      ∃ intents intents', s.intents.insert? row = some intents ∧ s'.intents.insert? row = some intents' := by
  have htaken {t : Db} (hfresh : ∀ other ∈ Api.others m t, other.id ≠ row.id) :
      t.intents.insert? row = none ↔ Owns m t row.id := by
    rw [Store.Table.insert?_eq_none, List.mem_map]
    constructor
    · rintro ⟨u, hu, hid⟩
      by_cases hm : u.merchantId = m
      · exact ⟨u, mem_own.2 ⟨hu, hm⟩, hid⟩
      · exact absurd hid (hfresh u (mem_others.2 ⟨hu, hm⟩))
    · rintro ⟨u, hu, hid⟩
      exact ⟨u, (mem_own.1 hu).1, hid⟩
  have hsame : s.intents.insert? row = none ↔ s'.intents.insert? row = none := by
    rw [htaken (h.frozen ▸ hfresh), htaken (h.frozen' ▸ hfresh')]
    simp only [Owns, h.shared]
  cases hins : s.intents.insert? row with
  | none => exact .inl ⟨rfl, hsame.1 hins⟩
  | some intents =>
    cases hins' : s'.intents.insert? row with
    | none =>
      rw [hsame.2 hins'] at hins
      cases hins
    | some intents' => exact .inr ⟨intents, intents', rfl, rfl⟩

/-- Only the deliveries are written, alike. -/
theorem Beside.deliver (h : Beside m T db db' s s') (ds : Store.Table Intent.WebhookDelivery.key) :
    Beside m T db db' { s with deliveries := ds } { s' with deliveries := ds } :=
  ⟨h.merchants, rfl, h.shared, h.owned, h.frozen, h.frozen'⟩

end

/-! ## One call -/

section
variable {α : Type} {o : Oracle} {rel : Db → Db → Prop} {s s' : Db} {fn fn' : Db → Except IntentError (α × Db)}

theorem query_agree (hrel : rel s s') (h : Twin rel (fn s) (fn' s')) :
    Agree rel (Intent.query o fn s) (Intent.query o fn' s') :=
  Twin.atomically hrel (twin_bind _ fun _ _ => h)

theorem transaction_agree (hrel : rel s s') (h : Twin rel (fn s) (fn s')) :
    Agree rel (Intent.transaction o fn s) (Intent.transaction o fn s') := by
  apply Twin.atomically hrel
  apply twin_bind _ fun _ _ => ?_
  apply twin_bind _ fun _ _ => ?_
  exact h.bind fun x t t' ht => twin_bind _ fun _ _ => twin_ok x ht

end

variable {m : Id} {T : Id → Prop} {db db' s s' : Db} {o : Oracle}

theorem create_beside {data : NewPaymentIntent} (hdata : data.merchantId = m) (h : Beside m T db db' s s')
    (hfresh : ∀ row ∈ others m db, row.id ≠ o.uuid) (hfresh' : ∀ row ∈ others m db', row.id ≠ o.uuid) :
    Agree (Beside m T db db') (Intent.create o data s) (Intent.create o data s') := by
  apply transaction_agree h
  apply twin_bind _ fun _ _ => ?_
  dsimp only
  have hfind : s.merchants.find? data.merchantId = s'.merchants.find? data.merchantId := by rw [h.merchants]
  rw [hfind]
  cases s'.merchants.find? data.merchantId with
  | none => exact twin_error _
  | some merchant =>
    let row : PaymentIntent :=
      { id := o.uuid, merchantId := data.merchantId, orderRef := data.orderRef
        targetAmount := decimal8 data.targetAmount, targetAsset := data.targetAsset
        targetChain := data.targetChain, acceptedAssets := data.acceptedAssets, createdAt := o.now
        updatedAt := o.now }
    rcases @Beside.insert_both m T db db' s s' h row hfresh hfresh' with ⟨hins, hins'⟩ | ⟨_, _, hins, hins'⟩
    · rw [hins, hins']
      exact twin_error _
    · rw [hins, hins']
      apply twin_bind _ fun _ _ => ?_
      exact twin_ok _ (h.insert hdata hins hins' _ _)

theorem transition_beside {id : Id} (hid : T id) (eventType : Intent.EventType) (payload : Payload)
    (h : Beside m T db db' s s') :
    Agree (Beside m T db db') (Intent.transition o id eventType payload s)
      (Intent.transition o id eventType payload s') := by
  obtain ⟨row, hrow, hrow', hm⟩ := (h.owned id hid).found_both h.shared
  obtain ⟨hmem, rfl⟩ := Store.Table.find?_eq_some.1 hrow
  obtain ⟨hmem', -⟩ := Store.Table.find?_eq_some.1 hrow'
  apply transaction_agree h
  apply twin_bind _ fun _ _ => ?_
  simp only [hrow, hrow']
  split
  · exact twin_error _
  · apply twin_bind _ fun _ _ => ?_
    simp only [Intent.returning_current hmem, Intent.returning_current hmem', List.head?_cons]
    apply twin_bind _ fun _ _ => ?_
    have hwrites {t : Db} (hmem : row ∈ t.intents.rows) : Writes m
        (fun r => decide (r.id = row.id ∧ r.version = (mapRow row).version))
        (Intent.advance o (mapRow row) (Intent.getExpectedNextState eventType)) t :=
      ⟨fun _ => rfl, fun r hr hp => Store.Table.eq_of_key hr hmem (of_decide_eq_true hp).1 ▸ hm⟩
    exact twin_ok _ (h.update (hwrites hmem) (hwrites hmem') _ _)

theorem updateQuote_beside {id : Id} (hid : T id) (rate : ℚ) (expires : Time) (deposit : Option Intent.Deposit)
    (h : Beside m T db db' s s') :
    Agree (Beside m T db db') (Intent.updateQuote o id rate expires deposit s)
      (Intent.updateQuote o id rate expires deposit s') := by
  obtain ⟨row, hrow, hrow', hm⟩ := (h.owned id hid).found_both h.shared
  obtain ⟨hmem, rfl⟩ := Store.Table.find?_eq_some.1 hrow
  obtain ⟨hmem', -⟩ := Store.Table.find?_eq_some.1 hrow'
  have hwrites {t : Db} (hmem : row ∈ t.intents.rows) : Writes m (fun r => decide (r.id = row.id))
      (Intent.requote o rate expires deposit) t :=
    ⟨fun _ => rfl, fun r hr hp => Store.Table.eq_of_key hr hmem (of_decide_eq_true hp) ▸ hm⟩
  apply query_agree h
  simp only [Store.Table.returning_of_find? hrow, Store.Table.returning_of_find? hrow', List.head?_cons]
  exact twin_ok _ (h.update (hwrites hmem) (hwrites hmem') _ _)

/-- A reading query that answers the same. -/
theorem read_beside {α : Type} {f : Db → α} (h : Beside m T db db' s s') (hsame : f s = f s') :
    Agree (Beside m T db db') (Intent.query o (fun db => return (f db, db)) s)
      (Intent.query o (fun db => return (f db, db)) s') := by
  apply query_agree h
  rw [hsame]
  exact twin_ok _ h

/-- **A call on intents of `m` runs alike beside other merchants, and writes nothing of theirs.** -/
theorem handle_beside {a : Intent.Call} (ha : Permitted m T a) (h : Beside m T db db' s s')
    (hfresh : ∀ row ∈ others m db, row.id ≠ o.uuid) (hfresh' : ∀ row ∈ others m db', row.id ≠ o.uuid) :
    Agree (Beside m T db db') (Intent.handle a o s) (Intent.handle a o s') := by
  cases a with
  | now => exact ⟨rfl, h⟩
  | findById id =>
    obtain ⟨row, hrow, hrow', -⟩ := (h.owned id ha).found_both h.shared
    exact read_beside h (by rw [hrow, hrow'])
  | create data => exact create_beside ha h hfresh hfresh'
  | transition id eventType payload => exact transition_beside ha eventType payload h
  | updateQuote id rate expires deposit => exact updateQuote_beside ha rate expires deposit h
  | findExpiredIntents => exact ha.elim
  | getById id => exact read_beside h (by rw [h.merchants])
  | upsertDelivery intentId eventType url payload =>
    apply query_agree h
    dsimp only
    rw [h.deliveries]
    split
    · exact twin_ok _ (h.deliver _)
    · split
      · exact twin_ok _ (h.deliver _)
      · exact twin_error _
  | getDelivery id => exact read_beside h (by rw [h.deliveries])
  | updateDeliveryStatus id status n next err =>
    apply query_agree h
    rw [h.deliveries]
    exact twin_ok _ (h.deliver _)
  | pendingRetries => exact read_beside h (by simp only [h.deliveries])
  | fetch url headers body =>
    simp only [Intent.handle]
    cases o.http with
    | response status statusText => exact ⟨rfl, h⟩
    | rejected message => exact ⟨rfl, h⟩

/-! ## Whole operations -/

theorem deliverWebhook_permitted (intent : PaymentIntent) (eventType : Intent.EventType) (data : Payload) :
    (Intent.deliverWebhook intent eventType data).Only (Permitted m T) fun _ => True := by
  refine Prog.Only.bind (Prog.Only.await trivial) fun merchant => ?_
  dsimp only
  split
  · exact Prog.Only.ret _
  · refine Prog.Only.bind (Prog.Only.await trivial) fun _ => ?_
    refine Prog.Only.bind (Prog.Only.await trivial)
      (Intent.attemptDelivery_only (fun a ha => ?_) fun _ => trivial)
    cases a with
    | create | transition | updateQuote | findById | findExpiredIntents => exact ha.elim
    | _ => trivial

theorem createIntent_permitted {data : NewPaymentIntent} (hdata : data.merchantId = m) :
    (Intent.createIntent data).Only (Permitted m T) fun _ => True := by
  refine Prog.Only.bind (Prog.Only.await trivial) fun merchant => ?_
  cases merchant with
  | none => exact Prog.Only.throw trivial
  | some merchant =>
    dsimp only
    split_ifs
    · exact Prog.Only.throw trivial
    · exact Prog.Only.throw trivial
    · exact Prog.Only.throw trivial
    · exact Prog.Only.throw trivial
    · refine Prog.Only.bind (Prog.Only.await hdata) fun intent => ?_
      exact Prog.Only.bind (deliverWebhook_permitted ..) fun _ => Prog.Only.ret _

theorem generateQuote_permitted {id : Id} (hid : T id) (rate : ℚ) (address asset chain : String) :
    (Intent.generateQuote id rate address asset chain).Only (Permitted m T) fun _ => True := by
  refine Prog.Only.bind (Prog.Only.await hid) fun intent => ?_
  cases intent with
  | none => exact Prog.Only.throw trivial
  | some intent =>
    dsimp only
    split
    · exact Prog.Only.throw trivial
    · refine Prog.Only.bind (Prog.Only.await trivial) fun merchant => ?_
      refine Prog.Only.bind (Prog.Only.await trivial) fun now => ?_
      refine Prog.Only.bind (Prog.Only.await hid) fun _ => ?_
      refine Prog.Only.bind (Prog.Only.await hid) fun transitioned => ?_
      exact Prog.Only.bind (deliverWebhook_permitted ..) fun _ => Prog.Only.ret _

/-! ### Behind the routes -/

/-- A call of a route that is one of an operation on intents of `m`. -/
def RoutePermitted (m : Id) (T : Id → Prop) : Call → Prop
  | .service a => Permitted m T a
  | .getAll => False

theorem service_permitted {α : Type} {p : Intent.Task α} (hp : p.Only (Permitted m T) fun _ => True) :
    (service p).Only (RoutePermitted m T) fun _ => True := by
  induction p with
  | ret x => exact Prog.Only.ret x
  | throw e => exact Prog.Only.throw trivial
  | call a k ih => exact ⟨hp.1, fun r hr => ih r (hp.2 r hr)⟩

/-- A route that makes only such calls runs alike beside other merchants. -/
theorem run_beside {α : Type} {p : Task α} (hp : p.Only (RoutePermitted m T) fun _ => True) {ω : Nat → Oracle}
    (hfresh : ∀ n, ∀ row ∈ others m db, row.id ≠ (ω n).uuid)
    (hfresh' : ∀ n, ∀ row ∈ others m db', row.id ≠ (ω n).uuid) (n : Nat) (h : Beside m T db db' s s') :
    (p.run handle ω n s).1 = (p.run handle ω n s').1 ∧
      Beside m T db db' (p.run handle ω n s).2.2 (p.run handle ω n s').2.2 := by
  have hcall (a : Call) (n : Nat) (s s' : Db) (ha : RoutePermitted m T a) (h : Beside m T db db' s s') :
      Agree (Beside m T db db') (handle a (ω n) s) (handle a (ω n) s') := by
    cases a with
    | getAll => exact ha.elim
    | service a => exact handle_beside ha h (hfresh n) (hfresh' n)
  obtain ⟨hout, -, hrel⟩ := hp.twins hcall n h
  exact ⟨hout, hrel⟩

end NexoraGateway.Api
