import NexoraGateway.Intent.Calls

/-!
# The event log reconstructs the row

`Consistent E` says that every intent's row is explained by its own events along edges of `E`
(`Events.Explains`) and that no event lacks its intent. One call keeps it (`Effect.consistent`),
hence so does any sequence of calls, failing ones included, and `Events.replay` of an intent's log
gives the row's state and version.
-/
namespace NexoraGateway.Intent

open Store Events

structure Consistent (E : IntentState → IntentState → Prop) (t : Tables) : Prop where
  explained : ∀ row ∈ t.intents.rows, Explains (machine E) (t.logOf row.id) row.state row.version
  owned : ∀ e ∈ t.events, ∃ row ∈ t.intents.rows, row.id = e.intentId

/-- The tables of a fresh installation. -/
def Tables.empty : Tables := ⟨Table.empty, []⟩

variable {E : IntentState → IntentState → Prop} {t t' : Tables} {a : Call}

theorem Consistent.empty : Consistent E Tables.empty :=
  ⟨fun _ h => absurd h List.not_mem_nil, fun _ h => absurd h List.not_mem_nil⟩

theorem logOf_append (t : Tables) (intents : Table PaymentIntent.id) (e : IntentEvent) (id : Id) :
    (⟨intents, t.events ++ [e]⟩ : Tables).logOf id =
      t.logOf id ++ if e.intentId = id then [(e.version, e.eventType)] else [] := by
  by_cases h : e.intentId = id <;> simp [Tables.logOf, List.filter_append, h]

theorem logOf_eq_nil (hc : Consistent E t) {id : Id} (hid : t.intents.find? id = none) : t.logOf id = [] := by
  simp only [Tables.logOf, List.map_eq_nil_iff, List.filter_eq_nil_iff, decide_eq_true_eq]
  intro e he h
  obtain ⟨row, hrow, hrid⟩ := hc.owned e he
  exact Table.find?_eq_none.1 hid row hrow (hrid.trans h)

theorem Consistent.create (hc : Consistent E t) {row : PaymentIntent} {intents : Table PaymentIntent.id}
    {payload : Payload} {now : Time} (hstate : row.state = .created) (hversion : row.version = 1)
    (hinsert : t.intents.insert? row = some intents) :
    Consistent E ⟨intents, t.events ++ [⟨row.id, .intentCreated, payload, 1, now⟩]⟩ := by
  have hfresh : t.intents.find? row.id = none := Table.insert?_isSome.1 (hinsert ▸ rfl)
  have hrows := Table.rows_insert? hinsert
  constructor
  · intro u hu
    rw [logOf_append]
    rw [hrows, List.mem_append, List.mem_singleton] at hu
    rcases hu with hu | rfl
    · have hne : row.id ≠ u.id := fun h => Table.find?_eq_none.1 hfresh u hu h.symm
      simpa [hne] using hc.explained u hu
    · rw [logOf_eq_nil hc hfresh, hstate, hversion]
      simp only [List.nil_append, if_true]
      exact Explains.create
  · intro e he
    rw [hrows]
    rcases List.mem_append.1 he with he | he
    · obtain ⟨u, hu, hid⟩ := hc.owned e he
      exact ⟨u, List.mem_append_left _ hu, hid⟩
    · rw [List.mem_singleton.1 he]
      exact ⟨row, List.mem_append_right _ (List.mem_singleton_self row), rfl⟩

/-- The id of a row survives an `UPDATE`. -/
theorem exists_updateWhere {p : PaymentIntent → Bool} {f : PaymentIntent → PaymentIntent}
    (hf : ∀ v, (f v).id = v.id) {intents : Table PaymentIntent.id} {id : Id}
    (h : ∃ row ∈ intents.rows, row.id = id) :
    ∃ row ∈ (intents.updateWhere p f hf).rows, row.id = id := by
  obtain ⟨row, hrow, rfl⟩ := h
  refine ⟨_, Table.mem_updateWhere.2 ⟨row, hrow, rfl⟩, ?_⟩
  split
  · exact hf row
  · rfl

theorem Consistent.transition (hc : Consistent E t) {eventType : EventType} {payload : Payload}
    {row : PaymentIntent} (o : Oracle) (hmem : row ∈ t.intents.rows)
    (hedge : E row.state (getExpectedNextState eventType)) :
    Consistent E (t.record o row eventType payload) := by
  constructor
  · intro u hu
    obtain ⟨v, hv, rfl⟩ := Tables.mem_record.1 hu
    rw [Tables.record, logOf_append]
    by_cases hid : v.id = row.id
    · obtain rfl := Table.eq_of_key hv hmem hid
      simp only [and_self, if_true, advance_id, advance_state, advance_version]
      exact (hc.explained v hv).append hedge
    · simpa [hid, Ne.symm hid] using hc.explained v hv
  · intro e he
    refine exists_updateWhere (advance_id o _ _) ?_
    rcases List.mem_append.1 he with he | he
    · exact hc.owned e he
    · rw [List.mem_singleton.1 he]
      exact ⟨row, hmem, rfl⟩

theorem Consistent.requote (hc : Consistent E t) {id : Id} (f : PaymentIntent → PaymentIntent)
    (hid : ∀ v, (f v).id = v.id) (hf : ∀ v, (f v).state = v.state ∧ (f v).version = v.version) :
    Consistent E ⟨t.intents.updateWhere (fun r => r.id = id) f hid, t.events⟩ := by
  constructor
  · intro u hu
    simp only [Table.mem_updateWhere] at hu
    obtain ⟨v, hv, rfl⟩ := hu
    have h := hc.explained v hv
    split
    · rwa [hid, (hf v).1, (hf v).2]
    · exact h
  · intro e he
    exact exists_updateWhere hid (hc.owned e he)

/-- One call keeps `Consistent E` when the edge it takes, if any, is in `E`. -/
theorem Effect.consistent (h : Effect t a t') (hc : Consistent E t)
    (hE : ∀ id eventType payload row, a = .transition id eventType payload → t.intents.find? id = some row →
      Valid row.state (getExpectedNextState eventType) → E row.state (getExpectedNextState eventType)) :
    Consistent E t' := by
  cases h with
  | unchanged => exact hc
  | created hstate hversion hinsert => exact hc.create hstate hversion hinsert
  | transitioned o hrow hedge =>
    exact hc.transition o (Table.find?_eq_some.1 hrow).1 (hE _ _ _ _ rfl hrow hedge)
  | requoted o => exact hc.requote (requote o _ _ _) (requote_id o _ _ _) fun _ => ⟨rfl, rfl⟩

theorem handle_consistent (a : Call) (o : Oracle) {db : Db} (hc : Consistent Valid db.toTables) :
    Consistent Valid (handle a o db).2.toTables :=
  (handle_effect a o db).consistent hc fun _ _ _ _ _ _ h => h

/-! ## Runs of calls -/

/-- The database after some calls, each a transaction of its own. -/
def execCalls (db : Db) (calls : List (Call × Oracle)) : Db :=
  calls.foldl (fun db c => (handle c.1 c.2 db).2) db

theorem execCalls_consistent (calls : List (Call × Oracle)) {db : Db} (hc : Consistent Valid db.toTables) :
    Consistent Valid (execCalls db calls).toTables := by
  induction calls generalizing db with
  | nil => exact hc
  | cons c calls ih => exact ih (handle_consistent c.1 c.2 hc)

/-- **Every reachable log explains its row.** Whatever calls ran, in whatever order and with
whatever rejections, each intent's events carry the versions `1 … version`, begin with
`INTENT_CREATED`, follow edges of `validTransitions`, and replay to the row's state and version; a
further call that fails changes nothing. -/
theorem execCalls_replay (merchants : Table MerchantConfig.id) (deliveries : Table WebhookDelivery.key)
    (calls : List (Call × Oracle)) :
    let db := execCalls { Tables.empty with merchants, deliveries } calls
    (∀ row ∈ db.intents.rows, Explains (machine Valid) (db.logOf row.id) row.state row.version ∧
      replay (machine Valid) (db.logOf row.id) = some (row.state, row.version)) ∧
    ∀ a o e, (handle a o db).1 = .error e → (handle a o db).2 = db := by
  intro db
  have hc : Consistent Valid db.toTables := execCalls_consistent calls Consistent.empty
  exact ⟨fun row hrow => ⟨hc.explained row hrow, (hc.explained row hrow).replay_eq⟩, fun a o e => handle_error⟩

end NexoraGateway.Intent
