import NexoraGateway.Intent.Lifecycle

/-!
# The outcomes of deliveries (webhook-delivery.service.ts:35-210)

`attemptDelivery` reads a row, derives what to do from its `attempt_count` alone, and writes its outcome over
whatever the row holds by then. `deliveries_kept` says that a row which has been tried is never sent again by a
repetition, and when no outcome is lost.

* `handle_deliveries` — what one call does to the rows.
* `Keeps` — what later calls leave of a row.
* `Orderly` — an attempt begins on a pending row, and no outcome of another one is written before its own.
-/
namespace NexoraGateway.Intent

open Async Store

/-! ## The rows -/

/-- `ON CONFLICT DO UPDATE`. -/
def excluded (o : Oracle) (webhookUrl : String) (payload : Payload) : WebhookDelivery → WebhookDelivery :=
  fun d => { d with payload, webhookUrl, updatedAt := some o.now }

/-- What an attempt sets. -/
def outcome (o : Oracle) (status : DeliveryStatus) (attemptCount : Nat) (nextRetryAt : Option Time)
    (lastError : Option String) : WebhookDelivery → WebhookDelivery :=
  fun d =>
    { d with
      status, attemptCount, nextRetryAt
      lastAttemptAt := some o.now
      lastError := lastError.filter (· ≠ "")
      completedAt := if status = .pending then d.completedAt else some o.now }

section
variable (o : Oracle) (status : DeliveryStatus) (attemptCount : Nat) (nextRetryAt : Option Time)
  (lastError : Option String) (webhookUrl : String) (payload : Payload) (d : WebhookDelivery)
theorem excluded_key : (excluded o webhookUrl payload d).key = d.key := rfl
theorem outcome_key : (outcome o status attemptCount nextRetryAt lastError d).key = d.key := rfl
end

/-- What a call does to the rows, with its answer. -/
inductive DeliveryEffect (t : Table WebhookDelivery.key) (o : Oracle) : (a : Call) → Answer a →
    Table WebhookDelivery.key → Prop
  | unchanged (a : Call) (r : Answer a) : DeliveryEffect t o a r t
  | inserted {intentId : Id} {eventType : EventType} {url : String} {payload : Payload}
      {t' : Table WebhookDelivery.key} {d : WebhookDelivery} (hkey : d.key = (intentId, eventType))
      (hid : d.id = o.uuid) (hstatus : d.status = .pending) (hinsert : t.insert? d = some t') :
      DeliveryEffect t o (.upsertDelivery intentId eventType url payload) (.ok o.uuid) t'
  | excluded {intentId : Id} {eventType : EventType} {url : String} {payload : Payload} {d : WebhookDelivery}
      (hfind : t.find? (intentId, eventType) = some d) :
      DeliveryEffect t o (.upsertDelivery intentId eventType url payload) (.ok d.id)
        (t.updateWhere (fun d => d.key = (intentId, eventType)) (excluded o url payload)
          (excluded_key o url payload))
  | attempted {id : Id} {status : DeliveryStatus} {attemptCount : Nat} {nextRetryAt : Option Time}
      {lastError : Option String} (ho : o.fault ≠ some .query) :
      DeliveryEffect t o (.updateDeliveryStatus id status attemptCount nextRetryAt lastError) (.ok ())
        (t.updateWhere (fun d => d.id = id) (outcome o status attemptCount nextRetryAt lastError)
          (outcome_key o status attemptCount nextRetryAt lastError))

variable {o : Oracle} {db : Db}

theorem upsertDelivery_deliveries {intentId : Id} {eventType : EventType} {url : String} {payload : Payload}
    {id : Id} (h : (upsertDelivery o intentId eventType url payload db).1 = .ok id) :
    DeliveryEffect db.deliveries o (.upsertDelivery intentId eventType url payload) (.ok id)
      (upsertDelivery o intentId eventType url payload db).2.deliveries := by
  rcases upsertDelivery_answered h with ⟨deliveries, rfl, hinsert, hdb⟩ | ⟨d, hfind, rfl, hdb⟩
  · rw [hdb]
    exact .inserted rfl rfl rfl hinsert
  · rw [hdb]
    exact .excluded hfind

/-- A row that is there is the one that is answered. -/
theorem upsertDelivery_id {intentId : Id} {eventType : EventType} {url : String} {payload : Payload} {id : Id}
    {d : WebhookDelivery} (hfind : db.deliveries.find? (intentId, eventType) = some d)
    (h : (upsertDelivery o intentId eventType url payload db).1 = .ok id) : id = d.id := by
  rcases upsertDelivery_answered h with ⟨deliveries, -, hinsert, -⟩ | ⟨d', hfind', hid, -⟩
  · have hfree := Table.insert?_isSome.1 (Option.isSome_of_eq_some hinsert)
    exact absurd (hfind.symm.trans hfree) (by simp)
  · rw [hid, Option.some.inj (hfind'.symm.trans hfind)]

theorem updateDeliveryStatus_deliveries {id : Id} {status : DeliveryStatus} {attemptCount : Nat}
    {nextRetryAt : Option Time} {lastError : Option String}
    (h : (updateDeliveryStatus o id status attemptCount nextRetryAt lastError db).1 = .ok ()) :
    DeliveryEffect db.deliveries o (.updateDeliveryStatus id status attemptCount nextRetryAt lastError) (.ok ())
      (updateDeliveryStatus o id status attemptCount nextRetryAt lastError db).2.deliveries := by
  have ho : o.fault ≠ some .query := by
    intro hfault
    simp [updateDeliveryStatus, query, atomically, statement, hfault, bind, Except.bind] at h
  obtain ⟨db', hdb, hbody⟩ := query_ok h
  have hquery : (updateDeliveryStatus o id status attemptCount nextRetryAt lastError db).2 = db' := hdb
  rw [hquery]
  cases hbody
  exact .attempted ho

/-- **The inversion of `handle` on the webhook deliveries.** -/
theorem handle_deliveries (a : Call) (o : Oracle) (db : Db) :
    DeliveryEffect db.deliveries o a (handle a o db).1 (handle a o db).2.deliveries := by
  cases hout : (handle a o db).1 with
  | error e =>
    rw [handle_error hout]
    exact .unchanged a _
  | ok x =>
    cases a with
    | upsertDelivery intentId eventType url payload => exact upsertDelivery_deliveries hout
    | updateDeliveryStatus id status attemptCount nextRetryAt lastError => exact updateDeliveryStatus_deliveries hout
    | create data =>
      obtain ⟨row, intents, -, -, -, -, -, hdb⟩ := create_ok hout
      simp only [handle, hdb]
      exact .unchanged _ _
    | transition id eventType payload =>
      obtain ⟨row, -, -, -, hdb⟩ := transition_ok hout
      simp only [handle, hdb]
      exact .unchanged _ _
    | updateQuote id rate expires deposit =>
      obtain ⟨row, -, -, hdb⟩ := updateQuote_ok hout
      simp only [handle, hdb]
      exact .unchanged _ _
    | now => exact .unchanged _ _
    | fetch url headers body =>
      simp only [handle]
      split <;> exact .unchanged _ _
    | findById | findExpiredIntents | getById | getDelivery | pendingRetries =>
      simpa only [handle, findById, findExpiredIntents, getById, getDelivery, pendingRetries, query_read]
        using DeliveryEffect.unchanged _ _

/-! ## What is kept of a row -/

/-- The row later: it has not been tried fewer times, and what has ended stays as it is. -/
structure Keeps (d d' : WebhookDelivery) : Prop where
  id : d'.id = d.id
  key : d'.key = d.key
  attemptCount : d.attemptCount ≤ d'.attemptCount
  ended : d.status ≠ .pending → d'.status = d.status
  uncounted : d'.attemptCount = d.attemptCount → d'.status = d.status

theorem Keeps.refl (d : WebhookDelivery) : Keeps d d := ⟨rfl, rfl, le_rfl, fun _ => rfl, fun _ => rfl⟩

theorem Keeps.trans {d d' d'' : WebhookDelivery} (h : Keeps d d') (h' : Keeps d' d'') : Keeps d d'' where
  id := h'.id.trans h.id
  key := h'.key.trans h.key
  attemptCount := h.attemptCount.trans h'.attemptCount
  ended := by
    intro hended
    have hstatus := h.ended hended
    rw [h'.ended (hstatus ▸ hended), hstatus]
  uncounted := by
    intro hcount
    have hle := h.attemptCount
    have hle' := h'.attemptCount
    rw [h'.uncounted (by omega), h.uncounted (by omega)]

/-- Every row is still there. -/
def Kept (t t' : Table WebhookDelivery.key) : Prop := ∀ d ∈ t.rows, ∃ d' ∈ t'.rows, Keeps d d'

theorem Kept.refl (t : Table WebhookDelivery.key) : Kept t t := fun d hd => ⟨d, hd, Keeps.refl d⟩

theorem Kept.trans {t t' t'' : Table WebhookDelivery.key} (h : Kept t t') (h' : Kept t' t'') : Kept t t'' := by
  intro d hd
  obtain ⟨d', hd', hkeeps⟩ := h d hd
  obtain ⟨d'', hd'', hkeeps'⟩ := h' d' hd'
  exact ⟨d'', hd'', hkeeps.trans hkeeps'⟩

/-- An `UPDATE` that keeps the rows that it finds. -/
theorem kept_updateWhere {t : Table WebhookDelivery.key} {p : WebhookDelivery → Bool}
    {f : WebhookDelivery → WebhookDelivery} {hf : ∀ d, (f d).key = d.key}
    (h : ∀ d ∈ t.rows, p d = true → Keeps d (f d)) : Kept t (t.updateWhere p f hf) := by
  intro d hd
  refine ⟨if p d then f d else d, Table.mem_updateWhere.2 ⟨d, hd, rfl⟩, ?_⟩
  split
  · rename_i hp
    exact h d hd hp
  · exact Keeps.refl d

/-- `id` is the primary key. -/
def UniqueIds (t : Table WebhookDelivery.key) : Prop := (t.rows.map WebhookDelivery.id).Nodup

theorem UniqueIds.eq {t : Table WebhookDelivery.key} (h : UniqueIds t) {d d' : WebhookDelivery} (hd : d ∈ t.rows)
    (hd' : d' ∈ t.rows) (hid : d.id = d'.id) : d = d' := List.inj_on_of_nodup_map h hd hd' hid

theorem UniqueIds.updateWhere {t : Table WebhookDelivery.key} (h : UniqueIds t) {p : WebhookDelivery → Bool}
    {f : WebhookDelivery → WebhookDelivery} {hf : ∀ d, (f d).key = d.key} (hid : ∀ d, (f d).id = d.id) :
    UniqueIds (t.updateWhere p f hf) := by
  rw [UniqueIds, Table.map_updateWhere hid]
  exact h

/-! ## Attempts -/

/-- A new row gets a new id, as its primary key demands. -/
def Fresh (db : Db) : Call → Oracle → Prop
  | .upsertDelivery intentId eventType _ _, o =>
    db.deliveries.find? (intentId, eventType) = none → ∀ d ∈ db.deliveries.rows, d.id ≠ o.uuid
  | _, _ => True

instance (db : Db) : (a : Call) → (o : Oracle) → Decidable (Fresh db a o)
  | .upsertDelivery intentId eventType _ _, o => inferInstanceAs (Decidable
      (db.deliveries.find? (intentId, eventType) = none → ∀ d ∈ db.deliveries.rows, d.id ≠ o.uuid))
  | .now, _ | .findById _, _ | .create _, _ | .transition .., _ | .updateQuote .., _ | .findExpiredIntents, _
  | .getById _, _ | .pendingRetries, _ | .fetch .., _ | .getDelivery _, _ | .updateDeliveryStatus .., _ =>
    inferInstanceAs (Decidable True)

/-- The tasks that have read a row of which no outcome has been written since. -/
def noteAttempt (reading : List (Nat × Id)) (i : Nat) : (a : Call) → Answer a → List (Nat × Id)
  | .getDelivery id, .ok (some _) => (i, id) :: reading
  | .updateDeliveryStatus id .., .ok _ => reading.filter fun r => r.2 ≠ id
  | _, _ => reading

/-- A step at which no outcome is lost: an attempt reads a row that is pending, and writes its outcome before any other
attempt of the row has written one. -/
def Orderly (db : Db) (reading : List (Nat × Id)) (i : Nat) (a : Call) (o : Oracle) : Prop :=
  match a with
  | .getDelivery id => o.fault ≠ some .query → ∀ d ∈ db.deliveries.rows, d.id = id → d.status = .pending
  | .updateDeliveryStatus id .. => o.fault ≠ some .query → (i, id) ∈ reading
  | _ => True

instance (db : Db) (reading : List (Nat × Id)) (i : Nat) (o : Oracle) :
    (a : Call) → Decidable (Orderly db reading i a o)
  | .getDelivery id => inferInstanceAs (Decidable
      (o.fault ≠ some .query → ∀ d ∈ db.deliveries.rows, d.id = id → d.status = .pending))
  | .updateDeliveryStatus id .. => inferInstanceAs (Decidable (o.fault ≠ some .query → (i, id) ∈ reading))
  | .now | .findById _ | .create _ | .transition .. | .updateQuote .. | .findExpiredIntents | .getById _
  | .pendingRetries | .fetch .. | .upsertDelivery .. => inferInstanceAs (Decidable True)

/-- An attempt writes the outcome of the row, and of the count, that it has read. -/
def attempting : Protocol Call Answer (Option (Id × Nat)) where
  ok
    | read, .updateDeliveryStatus id _ attemptCount _ _ => ∃ n, read = some (id, n) ∧ attemptCount = n + 1
    | _, _ => True
  rely _ _ := True
  next
    | _, .getDelivery id, .ok (some d) => some (id, d.attemptCount)
    | read, _, _ => read

/-- The row is as the attempt has read it. -/
def Unchanged (t : Table WebhookDelivery.key) (id : Id) (n : Nat) : Prop :=
  ∃ d ∈ t.rows, d.id = id ∧ d.attemptCount = n ∧ d.status = .pending

variable {read : Option (Id × Nat)} {reading : List (Nat × Id)} {a : Call} {id : Id} {n i j : Nat}

theorem handle_ids (hids : UniqueIds db.deliveries) (hfresh : Fresh db a o) :
    UniqueIds (handle a o db).2.deliveries := by
  have heffect := handle_deliveries a o db
  generalize (handle a o db).1 = r at heffect
  generalize (handle a o db).2.deliveries = t at heffect ⊢
  cases heffect with
  | unchanged => exact hids
  | @inserted intentId eventType url payload t' d hkey hid hstatus hinsert =>
    have hfree := Table.insert?_isSome.1 (Option.isSome_of_eq_some hinsert)
    rw [UniqueIds, Table.rows_insert? hinsert, List.map_append, List.nodup_append]
    refine ⟨hids, List.nodup_singleton _, fun i hi j hj => ?_⟩
    obtain ⟨d', hd', rfl⟩ := List.mem_map.1 hi
    rw [List.mem_singleton.1 hj, hid]
    exact hfresh (hkey ▸ hfree) d' hd'
  | excluded hfind => exact hids.updateWhere fun _ => rfl
  | attempted ho => exact hids.updateWhere fun _ => rfl

/-- A row that has been read stays as it is until an outcome of it is written. -/
theorem handle_unchanged (h : Unchanged db.deliveries id n)
    (hreading : (j, id) ∈ noteAttempt reading i a (handle a o db).1) : Unchanged (handle a o db).2.deliveries id n := by
  obtain ⟨d, hd, hid, hcount, hstatus⟩ := h
  have heffect := handle_deliveries a o db
  generalize (handle a o db).1 = r at heffect hreading
  generalize (handle a o db).2.deliveries = t at heffect ⊢
  cases heffect with
  | unchanged => exact ⟨d, hd, hid, hcount, hstatus⟩
  | inserted _ _ _ hinsert =>
    exact ⟨d, by rw [Table.rows_insert? hinsert]; exact List.mem_append_left _ hd, hid, hcount, hstatus⟩
  | excluded hfind =>
    refine ⟨_, Table.mem_updateWhere.2 ⟨d, hd, rfl⟩, ?_⟩
    split <;> exact ⟨hid, hcount, hstatus⟩
  | @attempted id' status attemptCount nextRetryAt lastError ho =>
    have hne : id ≠ id' := by simpa using (List.mem_filter.1 hreading).2
    refine ⟨_, Table.mem_updateWhere.2 ⟨d, hd, rfl⟩, ?_⟩
    rw [if_neg (by simpa [hid] using hne)]
    exact ⟨hid, hcount, hstatus⟩

/-- One step of an orderly run. -/
theorem handle_kept (hids : UniqueIds db.deliveries) (hok : attempting.ok read a) (horderly : Orderly db reading i a o)
    (hread : ∀ id n, read = some (id, n) → (i, id) ∈ reading → Unchanged db.deliveries id n) :
    Kept db.deliveries (handle a o db).2.deliveries := by
  have heffect := handle_deliveries a o db
  generalize (handle a o db).1 = r at heffect
  generalize (handle a o db).2.deliveries = t at heffect ⊢
  cases heffect with
  | unchanged => exact Kept.refl _
  | inserted _ _ _ hinsert =>
    intro d hd
    exact ⟨d, by rw [Table.rows_insert? hinsert]; exact List.mem_append_left _ hd, Keeps.refl d⟩
  | excluded hfind => exact kept_updateWhere fun d _ _ => ⟨rfl, rfl, le_rfl, fun _ => rfl, fun _ => rfl⟩
  | @attempted id status attemptCount nextRetryAt lastError ho =>
    refine kept_updateWhere fun d hd hp => ?_
    have hid : d.id = id := of_decide_eq_true hp
    obtain ⟨n, rfl, rfl⟩ := hok
    -- nothing has been written since the attempt read the row
    obtain ⟨d', hd', hid', rfl, hstatus⟩ := hread id n rfl (horderly ho)
    obtain rfl : d = d' := hids.eq hd hd' (hid.trans hid'.symm)
    have hle : d.attemptCount ≤ d.attemptCount + 1 := Nat.le_succ _
    exact ⟨rfl, rfl, hle, fun hended => absurd hstatus hended, fun hcount => absurd hcount (Nat.succ_ne_self _)⟩

theorem getDelivery_eq (o : Oracle) (id : Id) (db : Db) : handle (.getDelivery id) o db =
    if o.fault = some .query then (.error (.database .query), db)
    else (.ok (db.deliveries.rows.find? fun d : WebhookDelivery => decide (d.id = id)), db) :=
  query_pure fun db : Db => db.deliveries.rows.find? fun d : WebhookDelivery => decide (d.id = id)

theorem getDelivery_ok {id : Id} {found : Option WebhookDelivery}
    (h : (handle (.getDelivery id) o db).1 = .ok found) :
    o.fault ≠ some .query ∧ ∀ d ∈ found, d ∈ db.deliveries.rows ∧ d.id = id := by
  have hrun := congrArg Prod.fst (getDelivery_eq o id db)
  rw [h] at hrun
  split at hrun
  · cases hrun
  · rename_i ho
    refine ⟨ho, fun d hd => ?_⟩
    have hfind : _ = some d := (Except.ok.inj hrun).symm.trans hd
    exact ⟨List.mem_of_find?_eq_some hfind, by simpa using List.find?_some hfind⟩

/-- What holds of the rows and of the attempts that are under way. -/
structure AttemptInv (t : Table WebhookDelivery.key) (reading : List (Nat × Id)) (db : Db)
    (gs : List (Option (Id × Nat))) : Prop where
  ids : UniqueIds db.deliveries
  kept : Kept t db.deliveries
  unchanged : ∀ i id n, gs[i]? = some (some (id, n)) → (i, id) ∈ reading → Unchanged db.deliveries id n

section
variable {t : Table WebhookDelivery.key} {gs gs₁ gs₂ : List (Option (Id × Nat))}

theorem AttemptInv.spawn (h : AttemptInv t reading db gs) : AttemptInv t reading db (gs ++ [none]) := by
  refine ⟨h.ids, h.kept, fun i id n hi hmem => h.unchanged i id n ?_ hmem⟩
  rcases lt_or_ge i gs.length with hlt | hge
  · rwa [List.getElem?_append_left hlt] at hi
  · rw [List.getElem?_append_right hge] at hi
    cases List.mem_singleton.1 (List.mem_of_getElem? hi)

/-- What has been read is read now, or it has been read before. -/
theorem read_cases (horderly : Orderly db reading gs₁.length a o)
    (hi : (gs₁ ++ attempting.next read a (handle a o db).1 :: gs₂)[i]? = some (some (id, n)))
    (hmem : (i, id) ∈ noteAttempt reading gs₁.length a (handle a o db).1) :
    Unchanged db.deliveries id n ∨ (gs₁ ++ read :: gs₂)[i]? = some (some (id, n)) ∧ (i, id) ∈ reading := by
  have hset (x : Option (Id × Nat)) : gs₁ ++ x :: gs₂ = (gs₁ ++ read :: gs₂).set gs₁.length x := by simp
  have hsame (hnext : attempting.next read a (handle a o db).1 = read)
      (hnote : noteAttempt reading gs₁.length a (handle a o db).1 ⊆ reading) :
      (gs₁ ++ read :: gs₂)[i]? = some (some (id, n)) ∧ (i, id) ∈ reading :=
    ⟨by rwa [hnext] at hi, hnote hmem⟩
  cases a with
  | getDelivery id' =>
    cases hout : (handle (.getDelivery id') o db).1 with
    | error e =>
      rw [hout] at hi hmem
      exact .inr ⟨hi, hmem⟩
    | ok found =>
      cases found with
      | none =>
        rw [hout] at hi hmem
        exact .inr ⟨hi, hmem⟩
      | some d =>
        obtain ⟨ho, hfound⟩ := getDelivery_ok hout
        obtain ⟨hd, hid⟩ := hfound d rfl
        rw [hout] at hi hmem
        by_cases heq : i = gs₁.length
        · subst heq
          have hnow : attempting.next read (.getDelivery id') (.ok (some d)) = some (id, n) := by simpa using hi
          cases hnow
          exact .inl ⟨d, hd, hid, rfl, horderly ho d hd hid⟩
        · rw [hset, List.getElem?_set_ne (Ne.symm heq)] at hi
          rcases List.mem_cons.1 hmem with hhead | hold
          · exact absurd (congrArg Prod.fst hhead) heq
          · exact .inr ⟨hi, hold⟩
  | updateDeliveryStatus id' =>
    refine .inr (hsame rfl ?_)
    cases (handle (.updateDeliveryStatus id' _ _ _ _) o db).1 with
    | error e => exact List.Subset.refl _
    | ok x => exact List.filter_subset_self _
  | _ => exact .inr (hsame rfl (List.Subset.refl _))

/-- **One call of one attempt.** -/
theorem attempting_call (hinv : AttemptInv t reading db (gs₁ ++ read :: gs₂)) (hok : attempting.ok read a)
    (hfresh : Fresh db a o) (horderly : Orderly db reading gs₁.length a o) :
    AttemptInv t (noteAttempt reading gs₁.length a (handle a o db).1) (handle a o db).2
      (gs₁ ++ attempting.next read a (handle a o db).1 :: gs₂) := by
  have hread (id : Id) (n : Nat) (hg : read = some (id, n)) (hmem : (gs₁.length, id) ∈ reading) :
      Unchanged db.deliveries id n := hinv.unchanged gs₁.length id n (by simp [hg]) hmem
  refine ⟨handle_ids hinv.ids hfresh, hinv.kept.trans (handle_kept hinv.ids hok horderly hread),
    fun i id n hi hmem => ?_⟩
  rcases read_cases horderly hi hmem with hnow | ⟨hbefore, hold⟩
  · exact handle_unchanged hnow hmem
  · exact handle_unchanged (hinv.unchanged i id n hbefore hold) hmem

end

/-! ## What has been tried -/

/-- What has ended has been tried. -/
def Tried (t : Table WebhookDelivery.key) : Prop := ∀ d ∈ t.rows, d.status ≠ .pending → 0 < d.attemptCount

/-- What has been tried has been tried for good. -/
def StillTried (t t' : Table WebhookDelivery.key) : Prop :=
  ∀ d ∈ t.rows, ∃ d' ∈ t'.rows, d'.id = d.id ∧ d'.key = d.key ∧ (0 < d.attemptCount → 0 < d'.attemptCount)

theorem StillTried.refl (t : Table WebhookDelivery.key) : StillTried t t := fun d hd => ⟨d, hd, rfl, rfl, id⟩

theorem StillTried.trans {t t' t'' : Table WebhookDelivery.key} (h : StillTried t t') (h' : StillTried t' t'') :
    StillTried t t'' := by
  intro d hd
  obtain ⟨d', hd', hid, hkey, htried⟩ := h d hd
  obtain ⟨d'', hd'', hid', hkey', htried'⟩ := h' d' hd'
  exact ⟨d'', hd'', hid'.trans hid, hkey'.trans hkey, htried' ∘ htried⟩

/-- Every outcome is that of some try. -/
theorem handle_tried (htried : Tried db.deliveries) (hok : attempting.ok read a) :
    Tried (handle a o db).2.deliveries ∧ StillTried db.deliveries (handle a o db).2.deliveries := by
  have heffect := handle_deliveries a o db
  generalize (handle a o db).1 = r at heffect
  generalize (handle a o db).2.deliveries = t at heffect ⊢
  cases heffect with
  | unchanged => exact ⟨htried, StillTried.refl _⟩
  | @inserted intentId eventType url payload t' d hkey hid hstatus hinsert =>
    have hrows := Table.rows_insert? hinsert
    refine ⟨fun d' hd' hended => ?_, fun d' hd' => ⟨d', by rw [hrows]; exact List.mem_append_left _ hd', rfl, rfl, id⟩⟩
    rw [hrows, List.mem_append, List.mem_singleton] at hd'
    rcases hd' with hd' | rfl
    · exact htried d' hd' hended
    · exact absurd hstatus hended
  | @excluded intentId eventType url payload found hfind =>
    constructor
    · intro d' hd' hended
      obtain ⟨d, hd, rfl⟩ := Table.mem_updateWhere.1 hd'
      by_cases hp : decide (d.key = (intentId, eventType)) = true
      · rw [if_pos hp] at hended ⊢
        exact htried d hd hended
      · rw [if_neg hp] at hended ⊢
        exact htried d hd hended
    · intro d hd
      refine ⟨_, Table.mem_updateWhere.2 ⟨d, hd, rfl⟩, ?_⟩
      split <;> exact ⟨rfl, rfl, id⟩
  | @attempted id status attemptCount nextRetryAt lastError ho =>
    obtain ⟨n, -, rfl⟩ := hok
    constructor
    · intro d' hd' hended
      obtain ⟨d, hd, rfl⟩ := Table.mem_updateWhere.1 hd'
      by_cases hp : decide (d.id = id) = true
      · rw [if_pos hp]
        exact Nat.succ_pos n
      · rw [if_neg hp] at hended ⊢
        exact htried d hd hended
    · intro d hd
      refine ⟨_, Table.mem_updateWhere.2 ⟨d, hd, rfl⟩, ?_⟩
      split
      · exact ⟨rfl, rfl, fun _ => Nat.succ_pos n⟩
      · exact ⟨rfl, rfl, fun h => h⟩

/-! ## The programs -/

theorem attemptDelivery_attempts (deliveryId : Id) (read : Option (Id × Nat)) :
    (attemptDelivery deliveryId).Obeys attempting (fun _ _ => True) read := by
  refine Prog.Obeys.bind (Prog.obeys_await.2 ⟨trivial, fun r _ => ?_⟩)
  rcases r with e | _ | delivery
  · trivial
  · trivial
  · -- from here on the calls are those of one try, with the count that has been read
    let ofTry (a : Call) : Prop := attempting.ok (some (deliveryId, delivery.attemptCount)) a ∧
      ∀ r, attempting.next (some (deliveryId, delivery.attemptCount)) a r = some (deliveryId, delivery.attemptCount)
    have hupdate (status : DeliveryStatus) (nextRetryAt : Option Time) (lastError : Option String) :
        (Task.updateDeliveryStatus deliveryId status (delivery.attemptCount + 1) nextRetryAt lastError).Only ofTry
          fun _ => True :=
      Prog.Only.await ⟨⟨_, rfl, rfl⟩, fun _ => rfl⟩
    have hnow : Task.now.Only ofTry fun _ => True := Prog.Only.await ⟨trivial, fun _ => rfl⟩
    have hkeeps (a : Call) (ha : ofTry a) : attempting.ok (some (deliveryId, delivery.attemptCount)) a ∧
        ∀ r, attempting.next (some (deliveryId, delivery.attemptCount)) a r =
          some (deliveryId, delivery.attemptCount) := ha
    refine Prog.Obeys.mono (Prog.Only.obeys_still ?_ hkeeps) fun _ _ _ => trivial
    dsimp only
    split
    · exact Prog.Only.bind hnow fun now => hupdate ..
    · refine Prog.Only.tryCatch ?_ fun error _ => ?_
      · refine Prog.Only.bind (Prog.Only.await ⟨trivial, fun _ => rfl⟩) fun r => ?_
        obtain ⟨status, statusText⟩ := r
        dsimp only
        split
        · exact hupdate ..
        · exact Prog.Only.throw trivial
      · split
        · exact hupdate ..
        · exact Prog.Only.bind hnow fun now => hupdate ..

/-- The program keeps to its attempts, whatever it has read before. -/
def Attempts {α : Type} (p : Task α) : Prop := ∀ read, p.Obeys attempting (fun _ _ => True) read

section
variable {α β : Type}

theorem Attempts.bind {p : Task α} {f : α → Task β} (hp : Attempts p) (hf : ∀ x, Attempts (f x)) :
    Attempts (p.bind f) := by
  refine fun read => Prog.Obeys.bind ((hp read).mono fun read' out _ => ?_)
  cases out with
  | error e => trivial
  | ok x => exact hf x read'

theorem Attempts.forM {f : β → Task Unit} (hf : ∀ x, Attempts (f x)) (xs : List β) : Attempts (xs.forM f) := by
  induction xs with
  | nil => exact fun _ => trivial
  | cons x xs ih => exact (hf x).bind fun _ => ih

theorem attempts_await {a : Call} (ha : ∀ read, attempting.ok read a) : Attempts (Prog.await a : Task a.Ans) :=
  fun read => Prog.obeys_await.2 ⟨ha read, fun _ _ => trivial⟩

end

/-- `deliverWebhook` and `processRetries`. -/
inductive Delivers : Task Unit → Prop
  | deliverWebhook (intent : PaymentIntent) (eventType : EventType) (data : Payload) :
      Delivers (deliverWebhook intent eventType data)
  | processRetries : Delivers (do let _ ← processRetries)

theorem Delivers.attempts {p : Task Unit} (h : Delivers p) : Attempts p := by
  cases h with
  | deliverWebhook intent eventType data =>
    refine Attempts.bind (attempts_await fun _ => trivial) fun merchant => ?_
    dsimp only
    split
    · exact fun _ => trivial
    · refine Attempts.bind (attempts_await fun _ => trivial) fun _ => ?_
      exact Attempts.bind (attempts_await fun _ => trivial) fun id => attemptDelivery_attempts id
  | processRetries =>
    refine Attempts.bind (Attempts.bind (attempts_await fun _ => trivial) fun rows => ?_) fun _ _ => trivial
    exact (Attempts.forM (fun id => attemptDelivery_attempts id) rows).bind fun _ _ => trivial

/-! ## Runs -/

/-- The row of the key, with that id, has been tried. -/
def HasTried (id : Id) (key : Id × EventType) (t : Table WebhookDelivery.key) : Prop :=
  UniqueIds t ∧ ∃ d ∈ t.rows, d.id = id ∧ d.key = key ∧ 0 < d.attemptCount

/-- Where the row has been tried, a delivery does not come to its request. -/
theorem deliverWebhook_safe (intent : PaymentIntent) (eventType : EventType) (data : Payload) (id : Id) :
    Pool.Safe handle (fun s a o => Fresh s a o ∧ HasTried id (intent.id, eventType) s.deliveries)
      (fun a => ∀ url headers body, a ≠ .fetch url headers body) (deliverWebhook intent eventType data) := by
  refine Pool.Safe.await_bind nofun fun _ _ merchant _ _ => ?_
  dsimp only
  split
  · trivial
  · refine Pool.Safe.await_bind nofun fun _ _ timestamp _ _ => ?_
    refine Pool.Safe.await_bind nofun fun s o deliveryId hs hout => ?_
    -- the upsert finds the row that has been tried
    obtain rfl : deliveryId = id := by
      obtain ⟨-, -, d, hd, hid, hkey, -⟩ := hs
      exact (upsertDelivery_id (Table.find?_eq_some.2 ⟨hd, hkey⟩) hout).trans hid
    refine Pool.Safe.await_bind nofun fun s o delivery hs hout => ?_
    cases delivery with
    | none => trivial
    | some delivery =>
      obtain ⟨-, hids, d, hd, hid, -, htried⟩ := hs
      obtain ⟨hdelivery, hid'⟩ := (getDelivery_ok hout).2 delivery rfl
      obtain rfl : delivery = d := hids.eq hdelivery hd (hid'.trans hid.symm)
      dsimp only
      rw [if_pos (Nat.succ_lt_succ htried)]
      exact Pool.Safe.await_bind nofun fun _ _ now _ _ => Pool.Safe.await nofun

/-- What has been tried at some time in a run has been tried in what follows. -/
theorem exec_tried {w : Service} {t : Table WebhookDelivery.key}
    (hw : w.GhostInv attempting fun s _ => UniqueIds s.deliveries ∧ Tried s.deliveries ∧ StillTried t s.deliveries)
    {cs : List (Choice Call Answer IntentError Unit Oracle)} (hops : ∀ p, .spawn p ∈ cs → Delivers p)
    (hfresh : w.Careful handle Fresh cs) :
    (w.exec handle cs).GhostInv attempting fun s _ =>
      UniqueIds s.deliveries ∧ Tried s.deliveries ∧ StillTried t s.deliveries := by
  refine Pool.exec_careful_inv (fun _ hp => ⟨none, hp.attempts none, fun _ _ h => h⟩) ?_ hw hops hfresh
  rintro s gs₁ read gs₂ a o ⟨hids, htried, hstill⟩ hok hc
  obtain ⟨htried', hstill'⟩ := handle_tried htried hok
  exact ⟨trivial, handle_ids hids hc, htried', hstill.trans hstill'⟩

/-- A delivery of a row that has ended comes to no request. -/
theorem repeated_safe {w : Service} (hids : UniqueIds w.store.deliveries) (htried : Tried w.store.deliveries)
    (hw : w.GhostInv attempting fun _ _ => True) {intent : PaymentIntent} {eventType : EventType} {data : Payload}
    {later : List (Choice Call Answer IntentError Unit Oracle)}
    (hops : ∀ p, .spawn p ∈ .spawn (deliverWebhook intent eventType data) :: later → Delivers p)
    (hfresh : w.Careful handle Fresh (.spawn (deliverWebhook intent eventType data) :: later)) {d : WebhookDelivery}
    (hd : d ∈ w.store.deliveries.rows) (hkey : d.key = (intent.id, eventType)) (hended : d.status ≠ .pending)
    (url : String) (headers : List (String × Json)) (body : Payload) :
    (w.exec handle (.spawn (deliverWebhook intent eventType data) :: later)).pending w.tasks.length ≠
      some (.fetch url headers body) := by
  intro hpending
  have hstays (before after : List (Choice Call Answer IntentError Unit Oracle))
      (hsplit : .spawn (deliverWebhook intent eventType data) :: later = before ++ after) :
      HasTried d.id (intent.id, eventType) (w.exec handle before).store.deliveries := by
    obtain ⟨gs, hobey, -⟩ := hw
    rw [hsplit] at hops hfresh
    obtain ⟨-, -, hids', -, hstill⟩ := exec_tried (t := w.store.deliveries) ⟨gs, hobey, hids, htried, StillTried.refl _⟩
      (fun p hp => hops p (List.mem_append_left _ hp)) (Pool.careful_append.1 hfresh).1
    obtain ⟨d', hd', hid, hkey', htried'⟩ := hstill d hd
    exact ⟨hids', d', hd', hid, hkey'.trans hkey, htried' (htried d hd hended)⟩
  have htask : (w.next handle (.spawn (deliverWebhook intent eventType data))).tasks[w.tasks.length]? =
      some (deliverWebhook intent eventType data) := by simp [Pool.next]
  exact Pool.exec_safe (deliverWebhook_safe intent eventType data d.id) htask (hfresh.and hstays).2 _ hpending url
    headers body rfl

/-- In an orderly run what has ended stays so. -/
theorem exec_kept {s : Service × List (Nat × Id)} {t : Table WebhookDelivery.key}
    (hs : s.1.GhostInv attempting (AttemptInv t s.2)) {cs : List (Choice Call Answer IntentError Unit Oracle)}
    (hops : ∀ p, .spawn p ∈ cs → Delivers p) (hfresh : s.1.Careful handle Fresh cs)
    (horderly : Runs.Along (Pool.noted handle noteAttempt) (Pool.MeetsNoted Orderly) s cs) :
    (s.1.exec handle cs).GhostInv attempting
      (AttemptInv t (Runs.exec (Pool.noted handle noteAttempt) s cs).2) :=
  Pool.noted_inv (fun _ hp => ⟨none, hp.attempts none, fun _ _ _ h => h.spawn⟩)
    (fun _ _ _ _ _ _ _ hinv hok hc => ⟨trivial, attempting_call hinv hok hc.1 hc.2⟩) hs hops
    (Pool.along_and hfresh.along horderly)

/-- **A repetition sends nothing, and outcomes are kept.** In every run of deliveries and retries, whatever the requests
are answered and however long they take, a delivery that is begun after its row has ended comes to no request; and
where every attempt reads a pending row and writes its outcome before any other attempt of the row has written one,
no row goes back from what it has ended in, and none is counted down. -/
theorem deliveries_kept (db : Db) (hids : UniqueIds db.deliveries) (htried : Tried db.deliveries)
    (before after : List (Choice Call Answer IntentError Unit Oracle))
    (hops : ∀ p, .spawn p ∈ before ++ after → Delivers p)
    (hfresh : (⟨db, []⟩ : Service).Careful handle Fresh (before ++ after)) :
    let w := Pool.exec handle (⟨db, []⟩ : Service) before
    (∀ intent eventType data later, after = .spawn (deliverWebhook intent eventType data) :: later →
      (∃ d ∈ w.store.deliveries.rows, d.key = (intent.id, eventType) ∧ d.status ≠ .pending) →
      ∀ url headers body, (w.exec handle after).pending w.tasks.length ≠ some (.fetch url headers body)) ∧
    (Runs.Along (Pool.noted handle noteAttempt) (Pool.MeetsNoted Orderly) (⟨db, []⟩, []) (before ++ after) →
      Kept w.store.deliveries (w.exec handle after).store.deliveries) := by
  intro w
  obtain ⟨hbefore, hafter⟩ := Pool.careful_append.1 hfresh
  have hfirst (p : Task Unit) (hp : .spawn p ∈ before) : Delivers p := hops p (List.mem_append_left _ hp)
  have hthen (p : Task Unit) (hp : .spawn p ∈ after) : Delivers p := hops p (List.mem_append_right _ hp)
  constructor
  · rintro intent eventType data later rfl ⟨d, hd, hkey, hended⟩
    have hinit : (⟨db, []⟩ : Service).GhostInv attempting fun s _ =>
        UniqueIds s.deliveries ∧ Tried s.deliveries ∧ StillTried db.deliveries s.deliveries :=
      ⟨[], .nil, hids, htried, StillTried.refl _⟩
    obtain ⟨gs, hobey, hids', htried', -⟩ := exec_tried hinit hfirst hbefore
    exact repeated_safe hids' htried' ⟨gs, hobey, trivial⟩ hthen hafter hd hkey hended
  · intro horderly
    obtain ⟨hbefore', hafter'⟩ := Runs.along_append.1 horderly
    have hinit : (⟨db, []⟩ : Service).GhostInv attempting (AttemptInv db.deliveries []) :=
      ⟨[], .nil, hids, Kept.refl _, nofun⟩
    obtain ⟨gs, hobey, hinv⟩ := exec_kept (s := (⟨db, []⟩, [])) hinit hfirst hbefore hbefore'
    -- from there on, with the rows as they are there
    rw [← Pool.exec_noted handle noteAttempt (⟨db, []⟩, [])] at hobey hinv hafter
    obtain ⟨_, -, hlater⟩ := exec_kept ⟨gs, hobey, hinv.ids, Kept.refl _, hinv.unchanged⟩ hthen hafter hafter'
    rw [Pool.exec_noted] at hlater
    exact hlater.kept

/-- The shop with a webhook. -/
def hookedDb : Db :=
  { shopDb with
    merchants := ⟨[{ shop with webhookUrl := some "https://shop/hook" }], List.nodup_singleton _⟩ }

def tellShop : Task Unit := deliverWebhook quotedRow .quoteGenerated []

/-- Task `i` makes `n` calls; a request is answered `status`. -/
def steps (i n status : Nat) : List (Choice Call Answer IntentError Unit Oracle) :=
  List.replicate n (.step i { now := 1, uuid := "d", http := .response status "" })

/-- The status and the count of the rows. -/
def outcomes (cs : List (Choice Call Answer IntentError Unit Oracle)) : List (DeliveryStatus × Nat) :=
  (Pool.exec handle (⟨hookedDb, []⟩ : Service) cs).store.deliveries.rows.map fun d => (d.status, d.attemptCount)

/-- A delivery that succeeds. -/
def toldShop : List (Choice Call Answer IntentError Unit Oracle) := .spawn tellShop :: steps 0 6 200

/-- The rule for it, when the delivery is begun again. -/
theorem deliveries_kept_told :
    let w := Pool.exec handle (⟨hookedDb, []⟩ : Service) toldShop
    (∀ intent eventType data later, .spawn tellShop :: steps 1 3 200 =
        .spawn (deliverWebhook intent eventType data) :: later →
      (∃ d ∈ w.store.deliveries.rows, d.key = (intent.id, eventType) ∧ d.status ≠ .pending) →
      ∀ url headers body, (w.exec handle (.spawn tellShop :: steps 1 3 200)).pending w.tasks.length ≠
        some (.fetch url headers body)) ∧
    Kept w.store.deliveries (w.exec handle (.spawn tellShop :: steps 1 3 200)).store.deliveries := by
  have hnone : Tried hookedDb.deliveries := fun d hd => absurd hd List.not_mem_nil
  obtain ⟨hsends, hkept⟩ := deliveries_kept hookedDb List.nodup_nil hnone toldShop (.spawn tellShop :: steps 1 3 200)
    (fun p hp => by
      simp only [toldShop, steps, List.mem_append, List.mem_cons, List.mem_replicate, Choice.spawn.injEq, reduceCtorEq,
        and_false, or_false, or_self] at hp
      subst hp
      exact .deliverWebhook quotedRow .quoteGenerated [])
    (by decide +kernel)
  exact ⟨hsends, hkept (by decide +kernel)⟩

/-- A repetition makes a delivered row pending again; and a delivery that is slow to be answered writes its first
attempt over the second one of others. -/
theorem outcomes_lost :
    outcomes toldShop = [(.delivered, 1)] ∧
    outcomes (toldShop ++ .spawn tellShop :: steps 1 6 200) = [(.pending, 2)] ∧
    let overtaken := .spawn tellShop :: steps 0 4 200 ++ .spawn tellShop :: steps 1 7 500 ++
      .spawn tellShop :: steps 2 6 200
    outcomes overtaken = [(.pending, 2)] ∧ outcomes (overtaken ++ steps 0 2 200) = [(.delivered, 1)] := by
  decide +kernel

end NexoraGateway.Intent
