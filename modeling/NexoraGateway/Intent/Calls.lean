import NexoraGateway.Async.Prog
import NexoraGateway.Intent.Delivery

/-!
# The calls of the intent package and what they do

Every `await` of the package's services is one `Call`; `handle` runs it on the database. `Effect` is
the inversion of `handle` on the intent tables: a call leaves them alone, appends a new intent with
its first event, advances one intent along a valid edge with one event, or rewrites quote columns.
Everything about runs is derived from `handle_effect` and `handle_error`.
-/
namespace NexoraGateway.Intent

open Store

inductive Call : Type where
  | now
  | findById (id : Id)
  | create (data : NewPaymentIntent)
  | transition (id : Id) (eventType : EventType) (payload : Payload)
  | updateQuote (id : Id) (quotedRate : ℚ) (quoteExpiresAt : Time) (deposit : Option Deposit)
  | findExpiredIntents
  | getById (id : Id)
  | upsertDelivery (intentId : Id) (eventType : EventType) (webhookUrl : String) (payload : Payload)
  | getDelivery (id : Id)
  | updateDeliveryStatus (id : Id) (status : DeliveryStatus) (attemptCount : Nat)
      (nextRetryAt : Option Time) (lastError : Option String)
  | pendingRetries
  | fetch (url : String) (headers : List (String × Json)) (body : Payload)

def Call.Ans : Call → Type
  | now => Time
  | findById _ => Option PaymentIntent
  | create _ | transition .. | updateQuote .. => PaymentIntent
  | findExpiredIntents => List PaymentIntent
  | getById _ => Option MerchantConfig
  | upsertDelivery .. => Id
  | getDelivery _ => Option WebhookDelivery
  | updateDeliveryStatus .. => Unit
  | pendingRetries => List Id
  | fetch .. => Nat × String

abbrev Answer (a : Call) : Type := Except IntentError a.Ans

def handle : Async.Handler Call Answer Oracle Db
  | .now, o => fun db => (.ok o.now, db)
  | .findById id, o => findById o id
  | .create data, o => create o data
  | .transition id eventType payload, o => transition o id eventType payload
  | .updateQuote id rate expires deposit, o => updateQuote o id rate expires deposit
  | .findExpiredIntents, o => findExpiredIntents o
  | .getById id, o => getById o id
  | .upsertDelivery intentId eventType url payload, o => upsertDelivery o intentId eventType url payload
  | .getDelivery id, o => getDelivery o id
  | .updateDeliveryStatus id status n next err, o => updateDeliveryStatus o id status n next err
  | .pendingRetries, o => pendingRetries o
  | .fetch .., o => fun db => match o.http with
    | .response status statusText => (.ok (status, statusText), db)
    | .rejected message => (.error (.http message), db)

/-- The tables after `row` has been advanced by an event. -/
def Tables.record (t : Tables) (o : Oracle) (row : PaymentIntent) (eventType : EventType) (payload : Payload) :
    Tables where
  intents := t.intents.updateWhere (fun r => r.id = row.id ∧ r.version = row.version)
    (advance o (mapRow row) (getExpectedNextState eventType)) (advance_id o (mapRow row) _)
  events := t.events ++ [⟨row.id, eventType, payload, row.version + 1, o.now⟩]

theorem Tables.mem_record {t : Tables} {o : Oracle} {row u : PaymentIntent} {eventType : EventType}
    {payload : Payload} : u ∈ (t.record o row eventType payload).intents.rows ↔
      ∃ v ∈ t.intents.rows, (if v.id = row.id ∧ v.version = row.version
        then advance o (mapRow row) (getExpectedNextState eventType) v else v) = u := by
  simp [Tables.record, Table.mem_updateWhere]

/-- The advanced row is read back; the others are as they were. -/
theorem Tables.find?_record {t : Tables} (o : Oracle) (eventType : EventType) (payload : Payload)
    {row : PaymentIntent} {id : Id} (hrow : t.intents.find? id = some row) (i : Id) :
    (t.record o row eventType payload).intents.find? i =
      if i = id then some (advance o (mapRow row) (getExpectedNextState eventType) row)
      else t.intents.find? i := by
  obtain ⟨-, rfl⟩ := Table.find?_eq_some.1 hrow
  rw [Tables.record, Table.find?_updateWhere]
  by_cases hi : i = row.id
  · subst hi
    simp [hrow]
  · cases hf : t.intents.find? i with
    | none => simp [hi]
    | some u =>
      have hu : u.id ≠ row.id := (Table.find?_eq_some.1 hf).2 ▸ hi
      simp [hi, hu]

theorem Tables.find?_recorded {t : Tables} (o : Oracle) (eventType : EventType) (payload : Payload)
    {row : PaymentIntent} {id : Id} (hrow : t.intents.find? id = some row) :
    (t.record o row eventType payload).intents.find? id =
      some (advance o (mapRow row) (getExpectedNextState eventType) row) := by
  rw [Tables.find?_record o eventType payload hrow, if_pos rfl]

/-- What a call can do to the intent tables. -/
inductive Effect (t : Tables) : Call → Tables → Prop
  | unchanged (a : Call) : Effect t a t
  | created {data : NewPaymentIntent} {row : PaymentIntent} {intents : Table PaymentIntent.id} {now : Time}
      (hstate : row.state = .created) (hversion : row.version = 1)
      (hinsert : t.intents.insert? row = some intents) :
      Effect t (.create data)
        ⟨intents, t.events ++ [⟨row.id, .intentCreated, data.toPayload, 1, now⟩]⟩
  | transitioned {id : Id} {eventType : EventType} {payload : Payload} {row : PaymentIntent} (o : Oracle)
      (hrow : t.intents.find? id = some row) (hedge : Valid row.state (getExpectedNextState eventType)) :
      Effect t (.transition id eventType payload) (t.record o row eventType payload)
  | requoted {id : Id} {rate : ℚ} {expires : Time} {deposit : Option Deposit} (o : Oracle) :
      Effect t (.updateQuote id rate expires deposit)
        ⟨t.intents.updateWhere (fun r => r.id = id) (requote o rate expires deposit)
          (requote_id o rate expires deposit), t.events⟩

variable {o : Oracle} {db : Db}

/-- A created intent: its row, as returned, and its first event. -/
theorem create_ok {data : NewPaymentIntent} {intent : PaymentIntent} (h : (create o data db).1 = .ok intent) :
    ∃ row intents, intent = mapRow row ∧ row.id = o.uuid ∧ row.state = .created ∧ row.version = 1 ∧
      db.intents.insert? row = some intents ∧
      (create o data db).2 =
        { db with intents, events := db.events ++ [⟨o.uuid, .intentCreated, data.toPayload, 1, o.now⟩] } := by
  obtain ⟨db', hdb', hb⟩ := transaction_ok h
  simp only [bind_eq_ok] at hb
  obtain ⟨_, -, hb⟩ := hb
  split at hb
  · split at hb
    · rename_i intents hins
      simp only [bind_eq_ok] at hb
      obtain ⟨_, -, hb⟩ := hb
      cases hb
      exact ⟨_, intents, rfl, rfl, rfl, rfl, hins, hdb'⟩
    · cases hb
  · cases hb

/-- The `UPDATE` of a transition returns the row that it has locked, advanced. -/
theorem returning_current {row : PaymentIntent} {f : PaymentIntent → PaymentIntent}
    (hmem : row ∈ db.intents.rows) :
    db.intents.returning (fun r => r.id = row.id ∧ r.version = (mapRow row).version) f = [f row] :=
  Table.returning_eq hmem (by simp) fun u hu => (of_decide_eq_true hu).1

/-- A transition found the row in a state with an edge to the event's, and advanced it. -/
theorem transition_ok {id : Id} {eventType : EventType} {payload : Payload} {intent : PaymentIntent}
    (h : (transition o id eventType payload db).1 = .ok intent) :
    ∃ row, db.intents.find? id = some row ∧ Valid row.state (getExpectedNextState eventType) ∧
      intent = mapRow (advance o (mapRow row) (getExpectedNextState eventType) row) ∧
      (transition o id eventType payload db).2 =
        { db with toTables := db.toTables.record o row eventType payload } := by
  obtain ⟨db', hdb', hb⟩ := transaction_ok h
  simp only [bind_eq_ok] at hb
  obtain ⟨_, -, hb⟩ := hb
  split at hb
  · rename_i row hrow
    obtain ⟨hmem, rfl⟩ := Table.find?_eq_some.1 hrow
    split at hb
    · cases hb
    · rename_i hedge
      simp only [bind_eq_ok] at hb
      obtain ⟨_, -, hb⟩ := hb
      simp only [returning_current hmem, List.head?_cons, bind_eq_ok] at hb
      obtain ⟨_, -, hb⟩ := hb
      cases hb
      exact ⟨row, hrow, by simpa [Valid] using hedge, rfl, hdb'⟩
  · cases hb

/-- A transition of an intent that exists: rejected by the database, refused by the table of valid
transitions, or recorded. -/
theorem transition_cases (o : Oracle) (eventType : EventType) (payload : Payload) {id : Id}
    {row : PaymentIntent} (hrow : db.intents.find? id = some row) :
    (∃ s, o.fault = some s ∧ transition o id eventType payload db = (.error (.database s), db)) ∨
    (¬ Valid row.state (getExpectedNextState eventType) ∧ transition o id eventType payload db =
      (.error (.invalidTransition row.state (getExpectedNextState eventType)), db)) ∨
    (Valid row.state (getExpectedNextState eventType) ∧ transition o id eventType payload db =
      (.ok (mapRow (advance o (mapRow row) (getExpectedNextState eventType) row)),
        { db with toTables := db.toTables.record o row eventType payload })) := by
  cases hout : (transition o id eventType payload db).1 with
  | ok intent =>
    obtain ⟨row', hrow', hedge, rfl, hdb⟩ := transition_ok hout
    obtain rfl : row = row' := Option.some.inj (hrow.symm.trans hrow')
    exact .inr (.inr ⟨hedge, Prod.ext hout hdb⟩)
  | error e =>
    have hdb : (transition o id eventType payload db).2 = db := atomically_error hout
    rcases transaction_error hout with ⟨s, hs, rfl⟩ | hbody
    · exact .inl ⟨s, hs, Prod.ext hout hdb⟩
    · obtain ⟨hmem, rfl⟩ := Table.find?_eq_some.1 hrow
      rcases bind_eq_error.1 hbody with hs | ⟨_, -, hbody⟩
      · obtain ⟨hf, rfl⟩ := statement_error hs
        exact .inl ⟨_, hf, Prod.ext hout hdb⟩
      simp only [hrow] at hbody
      split at hbody
      · rename_i hedge
        cases hbody
        exact .inr (.inl ⟨by simpa [Valid] using hedge, Prod.ext hout hdb⟩)
      · simp only [returning_current hmem, List.head?_cons, bind_eq_error] at hbody
        rcases hbody with hs | ⟨_, -, hs | ⟨_, -, hs⟩⟩
        · obtain ⟨hf, rfl⟩ := statement_error hs
          exact .inl ⟨_, hf, Prod.ext hout hdb⟩
        · obtain ⟨hf, rfl⟩ := statement_error hs
          exact .inl ⟨_, hf, Prod.ext hout hdb⟩
        · cases hs

theorem updateQuote_ok {id : Id} {rate : ℚ} {expires : Time} {deposit : Option Deposit} {intent : PaymentIntent}
    (h : (updateQuote o id rate expires deposit db).1 = .ok intent) :
    ∃ row, db.intents.find? id = some row ∧ intent = mapRow (requote o rate expires deposit row) ∧
      (updateQuote o id rate expires deposit db).2 =
        { db with
          intents := db.intents.updateWhere (fun r => r.id = id) (requote o rate expires deposit)
            (requote_id o rate expires deposit) } := by
  obtain ⟨db', hdb', hb⟩ := query_ok h
  dsimp only at hb
  cases hrow : db.intents.find? id with
  | none =>
    have hnone : db.intents.returning (fun r => r.id = id) (requote o rate expires deposit) = [] := by
      simpa [Table.returning, List.filter_eq_nil_iff] using Table.find?_eq_none.1 hrow
    simp only [hnone, List.head?_nil] at hb
    cases hb
  | some row =>
    simp only [Table.returning_of_find? hrow, List.head?_cons] at hb
    cases hb
    exact ⟨row, rfl, rfl, hdb'⟩

/-- The row after `updateQuote`. -/
theorem requoted_row {id : Id} {rate : ℚ} {expires : Time} {deposit : Option Deposit}
    {intent row : PaymentIntent}
    (hrow : db.intents.find? id = some row) (h : (updateQuote o id rate expires deposit db).1 = .ok intent) :
    (updateQuote o id rate expires deposit db).2.intents.find? id = some (requote o rate expires deposit row) := by
  obtain ⟨-, -, -, hdb⟩ := updateQuote_ok h
  rw [hdb]
  simp [Table.find?_updateWhere, hrow, (Table.find?_eq_some.1 hrow).2]

/-- **A call answered with an error leaves the database as it was.** -/
theorem handle_error {a : Call} {e : IntentError} (h : (handle a o db).1 = .error e) :
    (handle a o db).2 = db := by
  cases a with
  | now => cases h
  | fetch url headers body =>
    simp only [handle] at h ⊢
    split <;> rfl
  | _ => exact atomically_error h

/-- **The inversion of `handle` on the intent tables.** -/
theorem handle_effect (a : Call) (o : Oracle) (db : Db) :
    Effect db.toTables a (handle a o db).2.toTables := by
  cases ha : (handle a o db).1 with
  | error e => rw [handle_error ha]; exact .unchanged a
  | ok x =>
    cases a with
    | create data =>
      obtain ⟨row, intents, -, hid, hstate, hversion, hins, hdb⟩ := create_ok ha
      change Effect _ _ (create o data db).2.toTables
      rw [hdb, ← hid]
      exact .created hstate hversion hins
    | transition id eventType payload =>
      obtain ⟨row, hrow, hedge, -, hdb⟩ := transition_ok ha
      change Effect _ _ (transition o id eventType payload db).2.toTables
      rw [hdb]
      exact .transitioned o hrow hedge
    | updateQuote id rate expires deposit =>
      obtain ⟨row, -, -, hdb⟩ := updateQuote_ok ha
      change Effect _ _ (updateQuote o id rate expires deposit db).2.toTables
      rw [hdb]
      exact .requoted o
    | upsertDelivery intentId eventType url payload =>
      simpa only [handle, upsertDelivery_frame] using Effect.unchanged _
    | updateDeliveryStatus id status n next err =>
      simpa only [handle, updateDeliveryStatus_frame] using Effect.unchanged _
    | now => exact .unchanged _
    | fetch url headers body =>
      simp only [handle]
      split <;> exact .unchanged _
    | findById | findExpiredIntents | getById | getDelivery | pendingRetries =>
      simpa only [handle, findById, findExpiredIntents, getById, getDelivery, pendingRetries, query_read]
        using Effect.unchanged _

/-- Events are only ever appended. -/
theorem Effect.events {t t' : Tables} {a : Call} (h : Effect t a t') : t.events <+: t'.events := by
  cases h with
  | unchanged | requoted => exact List.prefix_refl _
  | created | transitioned => exact List.prefix_append _ _

/-- An intent enters a state when it is created or by an event that leads there. -/
theorem Effect.entered {t t' : Tables} {a : Call} (h : Effect t a t') {id : Id} {s : IntentState}
    (hbefore : (t.intents.find? id).map PaymentIntent.state ≠ some s)
    (hafter : (t'.intents.find? id).map PaymentIntent.state = some s) :
    (∃ data, a = .create data ∧ s = .created) ∨
      ∃ eventType payload, a = .transition id eventType payload ∧ getExpectedNextState eventType = s := by
  cases h with
  | unchanged => exact absurd hafter hbefore
  | @created data row intents now hstate hversion hinsert =>
    rw [Table.find?_insert? hinsert] at hafter
    split at hafter
    · rw [Option.map_some, hstate] at hafter
      exact .inl ⟨data, rfl, (Option.some.inj hafter).symm⟩
    · exact absurd hafter hbefore
  | @transitioned id' eventType payload row o hrow hedge =>
    rw [Tables.find?_record o eventType payload hrow] at hafter
    split at hafter
    · rename_i hid
      exact .inr ⟨eventType, payload, by rw [hid], Option.some.inj hafter⟩
    · exact absurd hafter hbefore
  | requoted o =>
    rw [Table.find?_updateWhere, Option.map_map] at hafter
    refine absurd (hafter ▸ ?_) hbefore
    cases t.intents.find? id with
    | none => rfl
    | some row =>
      simp only [Option.map_some, Function.comp]
      split <;> rfl

/-- An intent stays in its state, or takes one of its edges. -/
theorem Effect.state {t t' : Tables} {a : Call} (h : Effect t a t') {id : Id} {s : IntentState}
    (hbefore : (t.intents.find? id).map PaymentIntent.state = some s) :
    ∃ s', (t'.intents.find? id).map PaymentIntent.state = some s' ∧ (s' = s ∨ Valid s s') := by
  obtain ⟨row, hrow, rfl⟩ := Option.map_eq_some_iff.1 hbefore
  cases h with
  | unchanged => exact ⟨_, hbefore, .inl rfl⟩
  | @created data new intents now hstate hversion hinsert =>
    refine ⟨_, ?_, .inl rfl⟩
    rw [Table.find?_insert? hinsert, if_neg, hbefore]
    rintro rfl
    have hfree := Table.insert?_isSome.1 (Option.isSome_of_eq_some hinsert)
    rw [hrow] at hfree
    cases hfree
  | @transitioned id' eventType payload row' o hrow' hedge =>
    rw [Tables.find?_record o eventType payload hrow']
    by_cases hid : id = id'
    · subst hid
      obtain rfl : row = row' := Option.some.inj (hrow.symm.trans hrow')
      exact ⟨_, by rw [if_pos rfl]; rfl, .inr hedge⟩
    · exact ⟨_, by rw [if_neg hid, hbefore], .inl rfl⟩
  | requoted o =>
    refine ⟨_, ?_, .inl rfl⟩
    rw [Table.find?_updateWhere, hrow]
    simp only [Option.map_some]
    split <;> rfl

end NexoraGateway.Intent
