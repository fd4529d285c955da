import NexoraGateway.Intent.Deposits
import NexoraGateway.Intent.Replay
import NexoraGateway.Store.Ranks
import NexoraGateway.Worker.Observers

/-!
# The audit trail read back (payment-intent.repository.ts:187, confirmation-tracker.ts:168)

Every event carries the version that it made, and the time that its writer's clock read. `getEvents` sorts by the time,
and says nothing of events with the same one, which PostgreSQL may answer in any order (`Answers`).

* `readBack_iff_stamped` — the order read back is that of the versions just when the times of the intent's events rise.
* `readBack_iff` — they do just when each writer's clock read more than every earlier one of that intent had.
* `findDepositTxHash_runs` — the tracker takes the hash of the last event, of those read back, that names one.
-/
namespace NexoraGateway.Worker

open Async Store
open Intent (IntentEvent EventType Tables Consistent Valid)

/-- The events of an intent, as they were written. -/
def eventsOf (id : Id) (db : Intent.Db) : List IntentEvent := db.events.filter fun e => e.intentId = id

/-- What `ORDER BY created_at ASC` may answer. -/
def Answers (id : Id) (db : Intent.Db) (answer : List IntentEvent) : Prop :=
  answer.Perm (eventsOf id db) ∧ answer.Pairwise fun a b => a.createdAt ≤ b.createdAt

/-- The hash that the event with the highest version names, of those that name one. -/
def Latest (id : Id) (db : Intent.Db) : Option Id → Prop
  | none => ∀ e ∈ eventsOf id db, depositTxHash e = none
  | some hash => ∃ e ∈ eventsOf id db, depositTxHash e = some hash ∧
      ∀ e' ∈ eventsOf id db, (depositTxHash e').isSome → e'.version ≤ e.version

/-- Whatever is answered for an intent, the versions rise, and the tracker finds the latest hash. -/
def ReadBack (db : Intent.Db) : Prop :=
  ∀ id answer, Answers id db answer → (answer.Pairwise fun a b => a.version < b.version) ∧
    ∀ (Ω S : Type) (h : Handler (Jobs.Call worker) Jobs.Answer Ω S) (ω : Nat → Ω) (n : Nat) (s s' : S),
      h (.outer none (Call.getEvents id)) (ω n) s = (.ok answer, s') →
      ∃ hash, ((findDepositTxHash id).run h ω n s).1 = .ok hash ∧ Latest id db hash

/-- The times of each intent's events rise. -/
def Stamped (db : Intent.Db) : Prop := ∀ id, (eventsOf id db).Pairwise fun a b => a.createdAt < b.createdAt

/-- A transition that is made is stamped later than all before it of the intent. -/
def StampsLater (db : Intent.Db) (c : Intent.Call × Intent.Oracle) : Prop :=
  ∀ id eventType payload intent, c.1 = .transition id eventType payload →
    (Intent.transition c.2 id eventType payload db).1 = .ok intent →
    ∀ e ∈ eventsOf id db, e.createdAt < c.2.now

/-- Every transition of a run is. -/
def InStep (db : Intent.Db) : List (Intent.Call × Intent.Oracle) → Prop
  | [] => True
  | c :: calls => StampsLater db c ∧ InStep (Intent.handle c.1 c.2 db).2 calls

variable {id : Id} {db : Intent.Db} {answer : List IntentEvent}

theorem answers_getEvents (id : Id) (db : Intent.Db) : Answers id db (getEvents id db) :=
  ⟨List.perm_insertionSort _ _, List.pairwise_insertionSort (fun a b : IntentEvent => a.createdAt ≤ b.createdAt) _⟩

/-! ## One state -/

/-- The versions of an intent's events rise as they are written. -/
theorem eventsOf_versions (hc : Consistent Valid db.toTables) (id : Id) :
    (eventsOf id db).Pairwise fun a b => a.version < b.version := by
  by_cases hid : db.intents.find? id = none
  · have hnil : (eventsOf id db).map (fun e => (e.version, e.eventType)) = [] := Intent.logOf_eq_nil hc hid
    rw [List.map_eq_nil_iff.1 hnil]
    exact .nil
  · obtain ⟨row, hrow⟩ := Option.ne_none_iff_exists'.1 hid
    obtain ⟨hmem, rfl⟩ := Table.find?_eq_some.1 hrow
    have hversions : (eventsOf row.id db).map (fun e => e.version) = List.range' 1 row.version := by
      rw [← (hc.explained row hmem).versions, Tables.logOf, List.map_map]
      rfl
    refine List.pairwise_map.1 (?_ : List.Pairwise (· < ·) ((eventsOf row.id db).map fun e => e.version))
    rw [hversions]
    exact List.pairwise_lt_range'

/-- The last event that names a hash, of events whose versions rise, is the latest. -/
theorem latest_findSome? (hperm : answer.Perm (eventsOf id db))
    (hversions : answer.Pairwise fun a b => a.version < b.version) :
    Latest id db (answer.reverse.findSome? depositTxHash) := by
  cases hfound : answer.reverse.findSome? depositTxHash with
  | none =>
    intro e he
    exact List.findSome?_eq_none_iff.1 hfound e (List.mem_reverse.2 (hperm.mem_iff.2 he))
  | some hash =>
    obtain ⟨before, e, after, hsplit, hhash, hbefore⟩ := List.findSome?_eq_some_iff.1 hfound
    have hanswer : answer = after.reverse ++ e :: before.reverse := by
      rw [← List.reverse_reverse answer, hsplit]
      simp
    refine ⟨e, hperm.mem_iff.1 (by rw [hanswer]; simp), hhash, fun e' he' hsome => ?_⟩
    have hmem := hperm.mem_iff.2 he'
    rw [hanswer, List.mem_append, List.mem_cons] at hmem
    rw [hanswer] at hversions
    rcases hmem with hmem | rfl | hmem
    · exact ((List.pairwise_append.1 hversions).2.2 e' hmem e List.mem_cons_self).le
    · exact le_rfl
    · rw [hbefore e' (List.mem_reverse.1 hmem)] at hsome
      exact absurd hsome Bool.false_ne_true

/-- `findDepositTxHash`, told these events. -/
theorem findDepositTxHash_runs {Ω S : Type} {h : Handler (Jobs.Call worker) Jobs.Answer Ω S} {ω : Nat → Ω} {n : Nat}
    {s s' : S} (hanswer : h (.outer none (Call.getEvents id)) (ω n) s = (.ok answer, s')) :
    ((findDepositTxHash id).run h ω n s).1 = .ok (answer.reverse.findSome? depositTxHash) := by
  change ((Prog.bind (Prog.ofExcept (h (.outer none (Call.getEvents id)) (ω n) s).1) _).run h ω (n + 1) _).1 = _
  rw [hanswer]
  rfl

/-- **When the times rise, and only then, the events are read back by version.** -/
theorem readBack_iff_stamped (hc : Consistent Valid db.toTables) : ReadBack db ↔ Stamped db := by
  have hversions := eventsOf_versions hc
  have hnodup (id : Id) : (eventsOf id db).Nodup := (hversions id).imp fun hab heq => hab.ne (congrArg _ heq)
  constructor
  · intro h id
    refine (sort_unique_iff (hnodup id)).1 fun answer hperm hsorted => ?_
    have hanswer := (h id answer ⟨hperm, hsorted⟩).1
    exact hperm.eq_of_pairwise (fun a b _ _ hab hba => absurd hab hba.not_gt) hanswer (hversions id)
  · rintro h id answer ⟨hperm, hsorted⟩
    have hanswer : answer.Pairwise fun a b => a.version < b.version := by
      rw [(sort_unique_iff (hnodup id)).2 (h id) answer hperm hsorted]
      exact hversions id
    exact ⟨hanswer, fun Ω S handler ω n s s' htold =>
      ⟨_, findDepositTxHash_runs htold, latest_findSome? hperm hanswer⟩⟩

/-! ## Runs -/

/-- The times rise after one more event just when they did, and it is later than what it follows. -/
theorem stamped_append {db' : Intent.Db} {e : IntentEvent} (h : db'.events = db.events ++ [e]) :
    Stamped db' ↔ Stamped db ∧ ∀ e' ∈ eventsOf e.intentId db, e'.createdAt < e.createdAt := by
  have heventsOf (id : Id) : eventsOf id db' = eventsOf id db ++ if e.intentId = id then [e] else [] := by
    rw [eventsOf, h, List.filter_append]
    by_cases hid : e.intentId = id <;> simp [eventsOf, hid]
  simp only [Stamped, heventsOf]
  constructor
  · intro hstamped
    refine ⟨fun id => (List.pairwise_append.1 (hstamped id)).1, fun e' he' => ?_⟩
    have hlast := (List.pairwise_append.1 (hstamped e.intentId)).2.2 e' he'
    rw [if_pos rfl] at hlast
    exact hlast e (List.mem_singleton_self e)
  · rintro ⟨hstamped, hlater⟩ id
    by_cases hid : e.intentId = id
    · rw [if_pos hid]
      refine List.pairwise_append.2 ⟨hstamped id, List.pairwise_singleton _ e, fun e' he' e'' he'' => ?_⟩
      rw [List.mem_singleton.1 he'']
      exact hlater e' (hid ▸ he')
    · rw [if_neg hid, List.append_nil]
      exact hstamped id

/-- A call that is no transition stamps no transition. -/
theorem stampsLater_of_ne {c : Intent.Call × Intent.Oracle}
    (h : ∀ id eventType payload, c.1 ≠ .transition id eventType payload) : StampsLater db c :=
  fun id eventType payload _ ha => absurd ha (h id eventType payload)

/-- Only the creation and the transition of an intent write events. -/
theorem events_of_other {a : Intent.Call} (o : Intent.Oracle) (hcreate : ∀ data, a ≠ .create data)
    (htransition : ∀ id eventType payload, a ≠ .transition id eventType payload) :
    (Intent.handle a o db).2.events = db.events := by
  have heffect := Intent.handle_effect a o db
  generalize htables : (Intent.handle a o db).2.toTables = t at heffect
  have hevents : t.events = db.events := by
    cases heffect with
    | unchanged | requoted => rfl
    | created => exact absurd rfl (hcreate _)
    | transitioned => exact absurd rfl (htransition _ _ _)
  rw [← hevents, ← htables]

/-- One call. -/
theorem stamped_step (hc : Consistent Valid db.toTables) (c : Intent.Call × Intent.Oracle) :
    Stamped (Intent.handle c.1 c.2 db).2 ↔ Stamped db ∧ StampsLater db c := by
  obtain ⟨a, o⟩ := c
  have hkept (h : (Intent.handle a o db).2.events = db.events) :
      Stamped (Intent.handle a o db).2 ↔ Stamped db := by simp only [Stamped, eventsOf, h]
  cases hout : (Intent.handle a o db).1 with
  | error e =>
    -- What is rejected writes nothing.
    rw [hkept (by rw [Intent.handle_error hout])]
    refine (and_iff_left ?_).symm
    rintro id eventType payload intent rfl hok
    cases hout.symm.trans hok
  | ok x =>
    cases a with
    | transition id eventType payload =>
      obtain ⟨row, hrow, -, -, hdb⟩ := Intent.transition_ok hout
      obtain ⟨-, rfl⟩ := Table.find?_eq_some.1 hrow
      have hevents : (Intent.handle (.transition row.id eventType payload) o db).2.events =
          db.events ++ [⟨row.id, eventType, payload, row.version + 1, o.now⟩] := congrArg (fun db => db.events) hdb
      rw [stamped_append hevents]
      refine and_congr_right fun _ => ⟨?_, fun hlater => hlater row.id eventType payload x rfl hout⟩
      rintro hlater id' eventType' payload' intent ha -
      obtain ⟨rfl, -, -⟩ := Intent.Call.transition.inj ha
      exact hlater
    | create data =>
      obtain ⟨row, intents, -, hid, -, -, hinsert, hdb⟩ := Intent.create_ok hout
      have hfresh : db.intents.find? row.id = none := Table.insert?_isSome.1 (hinsert ▸ rfl)
      have hnil : eventsOf row.id db = [] := List.map_eq_nil_iff.1 (Intent.logOf_eq_nil hc hfresh)
      have hevents : (Intent.handle (.create data) o db).2.events =
          db.events ++ [⟨o.uuid, .intentCreated, data.toPayload, 1, o.now⟩] := congrArg (fun db => db.events) hdb
      rw [stamped_append hevents, ← hid, hnil]
      exact and_congr_right fun _ => iff_of_true (fun _ h => absurd h List.not_mem_nil)
        (stampsLater_of_ne fun _ _ _ h => Intent.Call.noConfusion h)
    | _ =>
      rw [hkept (events_of_other o (fun _ h => Intent.Call.noConfusion h) fun _ _ _ h => Intent.Call.noConfusion h)]
      exact (and_iff_left (stampsLater_of_ne fun _ _ _ h => Intent.Call.noConfusion h)).symm

/-- **A run stamps the events in their order just when each of its transitions is in step.** -/
theorem stamped_run (hc : Consistent Valid db.toTables) (calls : List (Intent.Call × Intent.Oracle)) :
    Stamped (Intent.execCalls db calls) ↔ Stamped db ∧ InStep db calls := by
  induction calls generalizing db with
  | nil => exact (and_iff_left trivial).symm
  | cons c calls ih =>
    change Stamped (Intent.execCalls (Intent.handle c.1 c.2 db).2 calls) ↔ _
    rw [ih (Intent.handle_consistent c.1 c.2 hc), stamped_step hc, InStep, and_assoc]

/-- **The trail is read back in the order of the versions** — and the deposit that was detected last is found — after a
run just when every transition of the run was stamped later than all before it of its intent. -/
theorem readBack_iff (merchants : Table Intent.MerchantConfig.id) (deliveries : Table Intent.WebhookDelivery.key)
    (calls : List (Intent.Call × Intent.Oracle)) :
    ReadBack (Intent.execCalls { Tables.empty with merchants, deliveries } calls) ↔
      InStep { Tables.empty with merchants, deliveries } calls := by
  rw [readBack_iff_stamped (Intent.execCalls_consistent calls Consistent.empty), stamped_run Consistent.empty]
  exact and_iff_right fun _ => .nil

/-! ## Two clocks -/

/-- An order is paid too little, and a second payment is recorded by a process whose clock is six behind. -/
def belatedHistory : List (Intent.Call × Intent.Oracle) :=
  let stamped (eventType : EventType) (payload : Payload) (now : Time) : Intent.Call × Intent.Oracle :=
    (.transition "pi" eventType payload, { now })
  [(.create ⟨"shop", "order-1", 100, "USDC", "ethereum", ["USDC"]⟩, { now := 0, uuid := "pi" }),
    stamped .quoteGenerated [] 1, stamped .paymentAwaited [] 2, stamped .depositDetected [("tx_hash", .str "0x1")] 9,
    stamped .underpaymentDetected [] 10, stamped .paymentAwaited [] 11,
    stamped .depositDetected [("tx_hash", .str "0x2")] 6]

/-- The second payment is read back before the first, whose hash the tracker takes. -/
theorem belated_trail : ¬ ReadBack (Intent.execCalls Intent.shopDb belatedHistory) ∧
    (getEvents "pi" (Intent.execCalls Intent.shopDb belatedHistory)).map (·.version) = [1, 2, 3, 7, 4, 5, 6] ∧
    (getEvents "pi" (Intent.execCalls Intent.shopDb belatedHistory)).reverse.findSome? depositTxHash = some "0x1" := by
  have hversions : (getEvents "pi" (Intent.execCalls Intent.shopDb belatedHistory)).map (·.version) =
      [1, 2, 3, 7, 4, 5, 6] := by decide +kernel
  refine ⟨fun h => ?_, hversions, by decide +kernel⟩
  have hrise := List.pairwise_map.2 (h "pi" _ (answers_getEvents _ _)).1
  rw [hversions] at hrise
  exact absurd hrise (by decide)

end NexoraGateway.Worker
