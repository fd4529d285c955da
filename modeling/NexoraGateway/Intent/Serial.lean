import NexoraGateway.Intent.Transactions

/-!
# Transactions one after another

`Consistent` relates the server to the ghost states of the tasks: a client that is out is with one task, a row is
locked by one transaction, and what a transaction knows of its row is so. Each step keeps it, and moves the call of
its task on as the call in one step would.
-/
namespace NexoraGateway.Intent.Sessions

open Async Store

variable {db db' : Db} {t : Txn} {a : Call} {q : Sql} {id : Id}

/-! ## The statements -/

theorem run_insertIntent {row : PaymentIntent} {rows : List PaymentIntent}
    (h : (Sql.insertIntent row).run db = some (rows, db')) :
    (db.merchants.find? row.merchantId).isSome = true ∧ rows = [row] ∧
      ∃ intents, db.intents.insert? row = some intents ∧ db' = { db with intents } := by
  obtain ⟨merchant, hmerchant, h⟩ := Option.bind_eq_some_iff.1 h
  obtain ⟨intents, hinsert, h⟩ := Option.bind_eq_some_iff.1 h
  cases h
  exact ⟨by rw [hmerchant, Option.isSome_some], rfl, intents, hinsert, rfl⟩

theorem run_insertEvent {event : IntentEvent} {x : Unit} (h : (Sql.insertEvent event).run db = some (x, db')) :
    db' = { db with events := db.events ++ [event] } := by
  obtain ⟨row, -, h⟩ := Option.bind_eq_some_iff.1 h
  cases h
  rfl

/-- What a statement does not touch stays. -/
theorem run_frame {rows : q.Rows} (h : q.run db = some (rows, db')) :
    (∀ id ∉ q.touches, db'.intents.find? id = db.intents.find? id) ∧ db'.merchants = db.merchants := by
  cases q with
  | insertIntent row =>
    obtain ⟨-, -, intents, hinsert, rfl⟩ := run_insertIntent h
    refine ⟨fun id hid => ?_, rfl⟩
    have hne : row.id ≠ id := fun heq => hid (by simp [Sql.touches, heq])
    rw [Table.find?_insert? hinsert, if_neg hne]
  | updateIntent id' version state newVersion now =>
    cases h
    refine ⟨fun id hid => ?_, rfl⟩
    have hne : id' ≠ id := fun heq => hid (by simp [Sql.touches, heq])
    rw [Table.find?_updateWhere]
    cases hrow : db.intents.find? id with
    | none => rfl
    | some row =>
      obtain ⟨-, rfl⟩ := Table.find?_eq_some.1 hrow
      simp [hne.symm]
  | insertEvent event =>
    rw [run_insertEvent h]
    exact ⟨fun _ _ => rfl, rfl⟩
  | lockIntent | begin | commit | rollback =>
    cases h
    exact ⟨fun _ _ => rfl, rfl⟩

/-- What the statements do not touch stays. -/
theorem replay_frame {done : List Sql} :
    (∀ id, (∀ q ∈ done, id ∉ q.touches) → (replay done db).intents.find? id = db.intents.find? id) ∧
      (replay done db).merchants = db.merchants := by
  induction done generalizing db with
  | nil => exact ⟨fun _ _ => rfl, rfl⟩
  | cons q done ih =>
    change (∀ id, _ → (replay done ((q.run db).elim db Prod.snd)).intents.find? id = _) ∧
      (replay done ((q.run db).elim db Prod.snd)).merchants = _
    cases hrun : q.run db with
    | none =>
      obtain ⟨hfind, hmerchants⟩ := @ih db
      exact ⟨fun id hid => hfind id fun q hq => hid q (List.mem_cons_of_mem _ hq), hmerchants⟩
    | some r =>
      obtain ⟨rows, db'⟩ := r
      obtain ⟨hfind, hmerchants⟩ := @ih db'
      obtain ⟨hframe, hframe'⟩ := run_frame hrun
      refine ⟨fun id hid => ?_, hmerchants.trans hframe'⟩
      exact (hfind id fun q hq => hid q (List.mem_cons_of_mem _ hq)).trans (hframe id (hid q List.mem_cons_self))

/-- A transaction leaves alone the rows that it has not locked. -/
theorem Txn.replay_frame (t : Txn) (db : Db) :
    (∀ id ∉ t.locks, (replay t.done db).intents.find? id = db.intents.find? id) ∧
      (replay t.done db).merchants = db.merchants := by
  refine ⟨fun id hid => Sessions.replay_frame.1 id fun q hq htouch => hid ?_, Sessions.replay_frame.2⟩
  exact List.mem_filterMap.2 ⟨q, hq, htouch⟩

/-! ## The call in one step -/

section
variable {row : PaymentIntent} {eventType : EventType} (payload : Payload) (now : Time)

/-- What the statements of a transition make of the database. -/
theorem replay_recorded (hrow : db.intents.find? row.id = some row) (state : IntentState) (event : IntentEvent)
    (hevent : event.intentId = row.id) :
    replay (Txn.recorded row state now event).done db = { db with
      intents := db.intents.updateWhere (fun r => decide (r.id = row.id ∧ r.version = row.version))
        (Sql.set state (row.version + 1) now) (Sql.set_id state (row.version + 1) now)
      events := db.events ++ [event] } := by
  simp only [Txn.done, replay, List.foldl_cons, List.foldl_nil, Sql.run, Option.elim_some, hevent,
    Table.find?_updateWhere, hrow]
  simp

theorem transition_answered_at (hrow : db.intents.find? row.id = some row)
    (hedge : Valid row.state (getExpectedNextState eventType)) :
    handle (.transition row.id eventType payload) { now } db =
      (.ok (mapRow (Sql.set (getExpectedNextState eventType) (row.version + 1) now row)),
        replay (Txn.recorded row (getExpectedNextState eventType) now
          ⟨row.id, eventType, payload, row.version + 1, now⟩).done db) := by
  rw [replay_recorded now hrow _ _ rfl]
  rcases transition_cases { now } eventType payload hrow with ⟨s, hs, -⟩ | ⟨hrefused, -⟩ | ⟨-, h⟩
  · cases hs
  · exact absurd hedge hrefused
  · exact h

/-- A transition that is rejected after its row has been found. -/
theorem transition_rejected_at (hrow : db.intents.find? row.id = some row)
    (hedge : Valid row.state (getExpectedNextState eventType)) {s : Statement}
    (hs : s ∈ [.updateIntent, .insertEvent, .commit]) :
    handle (.transition row.id eventType payload) { now, fault := some s } db = (.error (.database s), db) := by
  have hallowed : isValidTransition validTransitions row.state (getExpectedNextState eventType) = true := hedge
  have hreturn (f : PaymentIntent → PaymentIntent) :
      db.intents.returning (fun r => decide (r.id = row.id ∧ r.version = (mapRow row).version)) f = [f row] :=
    returning_current (Table.find?_eq_some.1 hrow).1
  simp only [List.mem_cons, List.not_mem_nil, or_false] at hs
  rcases hs with rfl | rfl | rfl
  all_goals
    simp only [handle, Intent.transition, Intent.transaction, atomically, Intent.statement, hrow, mapRow_state,
      hallowed,
      hreturn, bind, Except.bind, pure, Except.pure, Option.some.injEq, reduceCtorEq, if_true, if_false, Bool.not_true,
      Bool.false_eq_true, List.head?_cons]
    rfl

end

section
variable (data : NewPaymentIntent) (id : Id) (now : Time)

/-- What a creation finds when its merchant exists and its key is free. -/
theorem create_finds (hnew : db.intents.find? id = none)
    (hmerchant : (db.merchants.find? data.merchantId).isSome = true) :
    ∃ merchant intents, db.merchants.find? data.merchantId = some merchant ∧
      db.intents.insert? (newRow id now data) = some intents ∧ intents.find? id = some (newRow id now data) := by
  obtain ⟨merchant, hmerchant⟩ := Option.isSome_iff_exists.1 hmerchant
  have hfree : db.intents.find? (newRow id now data).id = none := hnew
  obtain ⟨intents, hinsert⟩ := Option.isSome_iff_exists.1 (Table.insert?_isSome.2 hfree)
  exact ⟨merchant, intents, hmerchant, hinsert, (Table.find?_insert? hinsert id).trans (if_pos rfl)⟩

theorem create_answered_at (hnew : db.intents.find? id = none)
    (hmerchant : (db.merchants.find? data.merchantId).isSome = true) :
    handle (.create data) { now, uuid := id } db = (.ok (mapRow (newRow id now data)),
      replay (Txn.announced (newRow id now data) ⟨id, .intentCreated, data.toPayload, 1, now⟩).done db) := by
  obtain ⟨merchant, intents, hmerchant, hinsert, hrow⟩ := create_finds data id now hnew hmerchant
  have hreplay : replay (Txn.announced (newRow id now data) ⟨id, .intentCreated, data.toPayload, 1, now⟩).done db =
      { db with intents, events := db.events ++ [⟨id, .intentCreated, data.toPayload, 1, now⟩] } := by
    have howner : db.merchants.find? (newRow id now data).merchantId = some merchant := hmerchant
    simp only [Txn.done, replay, List.foldl_cons, List.foldl_nil, Sql.run, howner, hinsert, Option.bind_eq_bind,
      Option.bind_some, Option.pure_def, Option.elim_some, hrow]
  rw [hreplay]
  rw [newRow] at hinsert
  simp only [handle, Intent.create, Intent.transaction, atomically, Intent.statement, hmerchant, hinsert, bind,
    Except.bind,
    pure, Except.pure, reduceCtorEq, if_false, newRow]
  rfl

theorem create_rejected_at (hnew : db.intents.find? id = none)
    (hmerchant : (db.merchants.find? data.merchantId).isSome = true)
    {s : Statement} (hs : s ∈ [.insertEvent, .commit]) :
    handle (.create data) { now, uuid := id, fault := some s } db = (.error (.database s), db) := by
  obtain ⟨merchant, intents, hmerchant, hinsert, -⟩ := create_finds data id now hnew hmerchant
  rw [newRow] at hinsert
  simp only [List.mem_cons, List.not_mem_nil, or_false] at hs
  rcases hs with rfl | rfl
  all_goals
    simp only [handle, Intent.create, Intent.transaction, atomically, Intent.statement, hmerchant, hinsert, bind,
      Except.bind, pure, Except.pure, Option.some.injEq, reduceCtorEq, if_true, if_false]
    rfl

end

/-- **What a transaction has done when it commits is what the call does in one step.** -/
theorem Completes.answered {x : a.Ans} (h : Completes a t x) (hknown : t.Knows db) :
    ∃ o, handle a o db = (.ok x, replay t.done db) := by
  cases h with
  | created data id now => exact ⟨_, create_answered_at data id now hknown.1 hknown.2⟩
  | transitioned row eventType payload now hedge => exact ⟨_, transition_answered_at payload now hknown hedge⟩

/-- A transaction may be rejected at its next statement as the call in one step. -/
theorem Next.rejected (h : Next a t q) (hknown : t.Knows db) :
    ∃ o, handle a o db = (.error (.database q.statement), db) := by
  cases h with
  | insert data id now => exact ⟨{ now, fault := some .insertIntent }, rfl⟩
  | announce data id now => exact ⟨_, create_rejected_at data id now hknown.1 hknown.2 (by simp [Sql.statement])⟩
  | lock id eventType payload => exact ⟨{ now := 0, fault := some .lockIntent }, rfl⟩
  | update row eventType payload now hedge | record row eventType payload now hedge =>
    exact ⟨_, transition_rejected_at payload now hknown hedge (by simp [Sql.statement])⟩
  | commit hdone =>
    cases hdone with
    | created data id now => exact ⟨_, create_rejected_at data id now hknown.1 hknown.2 (by decide)⟩
    | transitioned row eventType payload now hedge =>
      exact ⟨_, transition_rejected_at payload now hknown hedge (by decide)⟩

theorem Transactional.rejected (ha : Transactional a) (db : Db) {s : Statement} (hs : s ∈ [.connect, .begin]) :
    ∃ o, handle a o db = (.error (.database s), db) := by
  simp only [List.mem_cons, List.not_mem_nil, or_false] at hs
  cases a with
  | create data =>
    rcases hs with rfl | rfl
    · exact ⟨{ now := 0, fault := some .connect }, rfl⟩
    · exact ⟨{ now := 0, fault := some .begin }, rfl⟩
  | transition id eventType payload =>
    rcases hs with rfl | rfl
    · exact ⟨{ now := 0, fault := some .connect }, rfl⟩
    · exact ⟨{ now := 0, fault := some .begin }, rfl⟩
  | _ => exact ha.elim

/-- A transition of an intent that is not there. -/
theorem transition_missing_at {id : Id} (eventType : EventType) (payload : Payload)
    (hnone : db.intents.find? id = none) :
    handle (.transition id eventType payload) { now := 0 } db = (.error (.rowNotFound id), db) := by
  simp only [handle, Intent.transition, Intent.transaction, atomically, Intent.statement, hnone, bind, Except.bind,
    reduceCtorEq, if_false]
  rfl

theorem transition_invalid_at {row : PaymentIntent} {eventType : EventType} (payload : Payload)
    (hrow : db.intents.find? row.id = some row) (hedge : ¬ Valid row.state (getExpectedNextState eventType)) :
    handle (.transition row.id eventType payload) { now := 0 } db =
      (.error (.invalidTransition row.state (getExpectedNextState eventType)), db) := by
  rcases transition_cases { now := 0 } eventType payload hrow with ⟨s, hs, -⟩ | ⟨-, h⟩ | ⟨hvalid, -⟩
  · cases hs
  · exact h
  · exact absurd hvalid hedge

/-! ## The server -/

/-- What a task has is so on the server. -/
def Ghost.Matches (s : Server) : Ghost → Prop
  | rest | failing _ => True
  | holding client | leaving client => s.sessions client = none
  | within client t => s.sessions client = some (.active t.locks t.done) ∧ t.Knows s.committed

structure Consistent (s : Server) (gs : List Ghost) : Prop where
  clients : (gs.filterMap Ghost.client).Perm s.clients
  nodup : s.clients.Nodup
  closed : ∀ client ∉ s.clients, s.sessions client = none
  single : ∀ client client' id, s.Holds client id → s.Holds client' id → client = client'
  ghosts : ∀ g ∈ gs, g.Matches s

variable {s s' : Server} {g g' : Ghost} {gs gs₁ gs₂ : List Ghost} {client : Client}

/-- A transaction that has rows locked goes on knowing what it knows while those rows are as they were. -/
theorem Ghost.Matches.frame (h : g.Matches s) (hsession : ∀ client ∈ g.client, s'.sessions client = s.sessions client)
    (hrows : ∀ client ∈ g.client, ∀ id, s.Holds client id →
      s'.committed.intents.find? id = s.committed.intents.find? id)
    (hmerchants : s'.committed.merchants = s.committed.merchants) : g.Matches s' := by
  cases g with
  | rest | failing => trivial
  | holding client | leaving client => exact (hsession client rfl).trans h
  | within client t =>
    obtain ⟨hactive, hknown⟩ := h
    refine ⟨(hsession client rfl).trans hactive, ?_⟩
    have hlocked (id : Id) (hid : id ∈ t.locks) : s'.committed.intents.find? id = s.committed.intents.find? id :=
      hrows client rfl id ⟨_, hactive, hid⟩
    cases t with
    | begun => trivial
    | locked row | advanced row | recorded row => exact (hlocked row.id List.mem_cons_self).trans hknown
    | inserted row | announced row =>
      exact ⟨(hlocked row.id List.mem_cons_self).trans hknown.1, by rw [hmerchants]; exact hknown.2⟩

theorem clients_middle (hclient : g.client = some client) : (gs₁ ++ g :: gs₂).filterMap Ghost.client =
    gs₁.filterMap Ghost.client ++ client :: gs₂.filterMap Ghost.client := by
  rw [List.filterMap_append, List.filterMap_cons_some hclient]

theorem clients_rest : (gs₁ ++ .rest :: gs₂).filterMap Ghost.client =
    gs₁.filterMap Ghost.client ++ gs₂.filterMap Ghost.client := by
  rw [List.filterMap_append, List.filterMap_cons_none rfl]

theorem Consistent.mem_clients (h : Consistent s gs) (hg : g ∈ gs) (hclient : g.client = some client) :
    client ∈ s.clients :=
  h.clients.subset (List.mem_filterMap.2 ⟨g, hg, hclient⟩)

/-- No other task has the client. -/
theorem Consistent.ne_client (h : Consistent s (gs₁ ++ g :: gs₂)) (hclient : g.client = some client)
    (hg' : g' ∈ gs₁ ∨ g' ∈ gs₂) : ∀ client' ∈ g'.client, client' ≠ client := by
  have hnodup := h.clients.nodup_iff.2 h.nodup
  rw [clients_middle hclient] at hnodup
  obtain ⟨hne, -⟩ := List.nodup_cons.1 (List.nodup_middle.1 hnodup)
  rintro client' hclient' rfl
  refine hne (List.mem_append.2 ?_)
  exact hg'.imp (fun hmem => List.mem_filterMap.2 ⟨g', hmem, hclient'⟩)
    fun hmem => List.mem_filterMap.2 ⟨g', hmem, hclient'⟩

theorem holds_setSession {session : Option Session} {client' : Client} {id : Id} :
    (s.setSession client session).Holds client' id ↔
      if client' = client then ∃ x ∈ session, id ∈ x.locks else s.Holds client' id := by
  unfold Server.Holds Server.setSession
  by_cases hclient : client' = client
  · subst hclient
    simp
  · simp [hclient]

/-- **One transaction changes**: its locks are its own, and of the committed rows it changes none that another has
locked. -/
theorem Consistent.replace (h : Consistent s (gs₁ ++ g :: gs₂)) (hclient : g.client = some client)
    (hclient' : g'.client = some client) {session : Option Session} {db : Db}
    (hlocks : ∀ x ∈ session, ∀ id ∈ x.locks, ∀ other ∈ s.clients, s.Holds other id → other = client)
    (hrows : ∀ other id, other ≠ client → s.Holds other id → db.intents.find? id = s.committed.intents.find? id)
    (hmerchants : db.merchants = s.committed.merchants)
    (hmatches : g'.Matches { s.setSession client session with committed := db }) :
    Consistent { s.setSession client session with committed := db } (gs₁ ++ g' :: gs₂) := by
  have hmid : g ∈ gs₁ ++ g :: gs₂ := List.mem_append_right _ List.mem_cons_self
  have hout (other : Client) (id : Id) (hholds : s.Holds other id) : other ∈ s.clients := by
    by_contra hnot
    obtain ⟨x, hx, -⟩ := hholds
    rw [h.closed other hnot] at hx
    cases hx
  refine ⟨?_, h.nodup, fun other hother => ?_, fun other other' id hholds hholds' => ?_, fun g₀ hg₀ => ?_⟩
  · have hperm := h.clients
    rw [clients_middle hclient] at hperm
    rwa [clients_middle hclient']
  · have hne : other ≠ client := by
      rintro rfl
      exact hother (h.mem_clients hmid hclient)
    exact (Function.update_of_ne hne _ _).trans (h.closed other hother)
  · have hown (c : Client) (hc : (s.setSession client session).Holds c id) :
        (c = client ∧ ∃ x ∈ session, id ∈ x.locks) ∨ (c ≠ client ∧ s.Holds c id) := by
      rw [holds_setSession] at hc
      split at hc
      · exact .inl ⟨‹_›, hc⟩
      · exact .inr ⟨‹_›, hc⟩
    rcases hown other hholds with ⟨rfl, x, hx, hid⟩ | ⟨hne, hold⟩
    · rcases hown other' hholds' with ⟨rfl, -⟩ | ⟨hne', hold'⟩
      · rfl
      · exact (hlocks x hx id hid other' (hout _ _ hold') hold').symm
    · rcases hown other' hholds' with ⟨rfl, x, hx, hid⟩ | ⟨hne', hold'⟩
      · exact hlocks x hx id hid other (hout _ _ hold) hold
      · exact h.single other other' id hold hold'
  · have hold (hg : g₀ ∈ gs₁ ∨ g₀ ∈ gs₂) : g₀.Matches { s.setSession client session with committed := db } := by
      have hne := h.ne_client hclient hg
      have hmem : g₀ ∈ gs₁ ++ g :: gs₂ := by
        rcases hg with hg | hg
        · exact List.mem_append_left _ hg
        · exact List.mem_append_right _ (List.mem_cons_of_mem _ hg)
      refine (h.ghosts g₀ hmem).frame (fun c hc => Function.update_of_ne (hne c hc) _ _)
        (fun c hc id hholds => ?_) hmerchants
      exact hrows c id (hne c hc) hholds
    rcases List.mem_append.1 hg₀ with hg | hg
    · exact hold (.inl hg)
    · rcases List.mem_cons.1 hg with rfl | hg
      · exact hmatches
      · exact hold (.inr hg)

/-! ## One step -/

/-- What a step that answers `r` and leaves `s'` must do. -/
structure Kept (s : Server) (g : Ghost) (gs₁ gs₂ : List Ghost) (b : Step) (r : Reply b) (s' : Server) : Prop where
  relies : g.Relies b r
  consistent : Consistent s' (gs₁ ++ g.next b r :: gs₂)
  explained : ∀ a st st', Moves a g b r st st' → Explained handle a s.committed s'.committed st st'

/-- The transaction of a client that has one and its end. -/
theorem Consistent.ended (h : Consistent s (gs₁ ++ g :: gs₂)) (hclient : g.client = some client)
    (hclient' : g'.client = some client) {session : Option Session} (hlocks : ∀ x ∈ session, x.locks = [])
    (hmatches : g'.Matches (s.setSession client session)) :
    Consistent (s.setSession client session) (gs₁ ++ g' :: gs₂) := by
  refine h.replace hclient hclient' (fun x hx id hid => ?_) (fun _ _ _ _ => rfl) rfl hmatches
  rw [hlocks x hx] at hid
  cases hid

theorem setSession_same (s : Server) (client : Client) (session : Option Session) :
    (s.setSession client session).sessions client = session := Function.update_self ..

theorem setSession_eq {session : Option Session} (h : s.sessions client = session) :
    s.setSession client session = s := by
  rw [Server.setSession, ← h, Function.update_eq_self]

/-- `ROLLBACK`. -/
theorem kept_rollback (h : Consistent s (gs₁ ++ g :: gs₂))
    (hg : g = .failing client ∨ ∃ t, g = .within client t) (r : Reply (.query client .rollback))
    (hrelies : g.Relies (.query client .rollback) r) :
    Kept s g gs₁ gs₂ (.query client .rollback) r (s.setSession client none) := by
  have hnext : g.next (.query client .rollback) r = .leaving client := by
    rcases hg with rfl | ⟨t, rfl⟩
    · cases r <;> rfl
    · cases r with
      | error e => rfl
      | ok x => cases t <;> rfl
  have hclient : g.client = some client := by rcases hg with rfl | ⟨t, rfl⟩ <;> rfl
  refine ⟨hrelies, ?_, fun a st st' hmoves => ?_⟩
  · rw [hnext]
    exact h.ended hclient rfl nofun (setSession_same s client none)
  · cases hmoves with
    | rolledBack => exact .confirms _ rfl
    | lost ha e =>
      obtain ⟨o, hcall⟩ := ha.rejected s.committed List.mem_cons_self
      exact .overrules o hcall rfl
    | rejected hq => cases hq
    | executed hq => cases hq

/-- A statement of a transaction that fails. -/
theorem kept_failed (h : Consistent s (gs₁ ++ .within client t :: gs₂)) (hq : Next a t q) {session : Option Session}
    (hlocks : ∀ x ∈ session, x.locks = []) :
    Kept s (.within client t) gs₁ gs₂ (.query client q) (.error (.database q.statement))
      (s.setSession client session) := by
  have hknown : t.Knows s.committed := (h.ghosts _ (List.mem_append_right _ List.mem_cons_self)).2
  have hnext : Ghost.next (.within client t) (.query client q) (.error (.database q.statement)) = .failing client := by
    cases hq <;> rfl
  refine ⟨.rejected .., ?_, fun a st st' hmoves => ?_⟩
  · rw [hnext]
    exact h.ended rfl rfl hlocks trivial
  · cases hmoves with
    | rejected hq' =>
      obtain ⟨o, hcall⟩ := hq'.rejected hknown
      exact .refuses o hcall rfl
    | lost => cases hq

/-- A statement of a transaction that is carried out. -/
theorem kept_executed (h : Consistent s (gs₁ ++ .within client t :: gs₂)) (hq : Next a t q) (hcommit : q ≠ .commit)
    {rows : q.Rows} (t' : Txn) (hnext : t.next client q rows = .within client t') (hdone : t'.done = t.done ++ [q])
    (hknows : t'.Knows s.committed) (hrelies : Ghost.Relies (.within client t) (.query client q) (.ok rows))
    (hfree : ∀ id ∈ q.touches, ∀ other ∈ s.clients, s.Holds other id → other = client) :
    Kept s (.within client t) gs₁ gs₂ (.query client q) (.ok rows)
      (s.setSession client (some (.active (t.locks ++ q.touches.toList) (t.done ++ [q])))) := by
  have hactive : s.sessions client = some (.active t.locks t.done) :=
    (h.ghosts _ (List.mem_append_right _ List.mem_cons_self)).1
  have hlocks : t'.locks = t.locks ++ q.touches.toList := by
    rw [Txn.locks, hdone, List.filterMap_append]
    cases htouch : q.touches <;> simp [Txn.locks, htouch]
  refine ⟨hrelies, ?_, fun a st st' hmoves => ?_⟩
  · change Consistent _ (gs₁ ++ t.next client q rows :: gs₂)
    rw [hnext]
    refine h.replace rfl rfl (fun x hx id hid other hother hholds => ?_) (fun _ _ _ _ => rfl) rfl ⟨?_, hknows⟩
    · cases hx
      rcases List.mem_append.1 hid with hid | hid
      · exact h.single other client id hholds ⟨_, hactive, hid⟩
      · exact hfree id (Option.mem_toList.1 hid) other hother hholds
    · exact (setSession_same ..).trans (by rw [hlocks, hdone])
  · cases hmoves with
    | executed => exact .silent _ rfl
    | committed => exact absurd rfl hcommit
    | rolledBack => cases hq
    | missing => cases hnext
    | invalid _ row eventType payload hedge =>
      cases hnext
      exact .refuses _ (transition_invalid_at payload hknows hedge) rfl

theorem reject_next (hq : Next a t q) (s : Server) (client : Client) :
    ∃ session, s.reject client q = s.setSession client session ∧ ∀ x ∈ session, x.locks = [] := by
  have haborted : ∀ x ∈ (s.sessions client).map fun _ => Session.aborted, x.locks = [] := by
    intro x hx
    obtain ⟨_, -, rfl⟩ := Option.map_eq_some_iff.1 hx
    rfl
  cases hq with
  | commit => exact ⟨none, rfl, nofun⟩
  | insert | announce | lock | update | record => exact ⟨_, rfl, haborted⟩

/-- What a statement inside a transaction answers. -/
theorem answer_next (hq : Next a t q) (hcommit : q ≠ .commit)
    (hactive : s.sessions client = some (.active t.locks t.done)) :
    s.answer client q = match q.run (replay t.done s.committed) with
      | none => (.error (.database q.statement), s.setSession client (some .aborted))
      | some (rows, db) => (.ok rows, s.setSession client (some (.active
          (t.locks ++ (q.touches.filter fun id => (db.intents.find? id).isSome).toList) (t.done ++ [q])))) := by
  cases hrun : q.run (replay t.done s.committed) <;> cases hq with
  | commit => exact absurd rfl hcommit
  | insert | announce | lock | update | record => simp only [Server.answer, hactive, hrun]

/-- `COMMIT`. -/
theorem kept_commit (h : Consistent s (gs₁ ++ .within client t :: gs₂)) {x : a.Ans} (hdone : Completes a t x) :
    Kept s (.within client t) gs₁ gs₂ (.query client .commit) (.ok ())
      { s.setSession client none with committed := replay t.done s.committed } := by
  obtain ⟨hactive, hknown⟩ : s.sessions client = some (.active t.locks t.done) ∧ t.Knows s.committed :=
    h.ghosts _ (List.mem_append_right _ List.mem_cons_self)
  have hnext : Ghost.next (.within client t) (.query client .commit) (.ok ()) = .leaving client := by
    cases hdone <;> rfl
  refine ⟨.committed .., ?_, fun a' st st' hmoves => ?_⟩
  · rw [hnext]
    refine h.replace rfl rfl nofun (fun other id hne hholds => ?_) (t.replay_frame s.committed).2
      (setSession_same s client none)
    -- another's row is not among those that are written
    exact (t.replay_frame s.committed).1 id fun hid => hne (h.single other client id hholds ⟨_, hactive, hid⟩)
  · cases hmoves with
    | executed _ hcommit => exact absurd rfl hcommit
    | committed hdone =>
      obtain ⟨o, hcall⟩ := hdone.answered hknown
      exact .settles o hcall

/-- A statement of a transaction that a constraint does not refuse. -/
theorem kept_run (h : Consistent s (gs₁ ++ .within client t :: gs₂)) (hq : Next a t q) (hcommit : q ≠ .commit)
    {rows : q.Rows} {db : Db} (hrun : q.run (replay t.done s.committed) = some (rows, db))
    {o : Turn} (hrejects : o.rejects = false) (hfree : Unblocked s (.query client q) o) :
    Kept s (.within client t) gs₁ gs₂ (.query client q) (.ok rows) (s.setSession client (some (.active
      (t.locks ++ (q.touches.filter fun id => (db.intents.find? id).isSome).toList) (t.done ++ [q])))) := by
  have hknown : t.Knows s.committed := (h.ghosts _ (List.mem_append_right _ List.mem_cons_self)).2
  have htouched (hfound : ∀ id ∈ q.touches, (db.intents.find? id).isSome = true) :
      (q.touches.filter fun id => (db.intents.find? id).isSome) = q.touches := by
    cases htouch : q.touches with
    | none => rfl
    | some id => exact Option.filter_some_pos (hfound id htouch)
  cases hq with
  | commit => exact absurd rfl hcommit
  | insert data id now =>
    obtain ⟨hmerchant, rfl, intents, hinsert, rfl⟩ := run_insertIntent hrun
    have hnew : s.committed.intents.find? (newRow id now data).id = none :=
      Table.insert?_isSome.1 (Option.isSome_iff_exists.2 ⟨intents, hinsert⟩)
    rw [htouched fun id' hid' => by cases hid'; rw [Table.find?_insert? hinsert, if_pos rfl, Option.isSome_some]]
    refine kept_executed h (.insert data id now) hcommit (.inserted (newRow id now data)) rfl rfl ⟨hnew, hmerchant⟩
      (.inserted ..) fun id' hid' => ?_
    cases hid'
    exact hfree hrejects _ rfl (by rw [hnew, Option.isSome_none]; rfl)
  | announce data id now =>
    refine kept_executed h (.announce data id now) hcommit (.announced _ _) rfl rfl hknown (.recorded ..)
      fun id' hid' => ?_
    cases hid'
  | lock id eventType payload =>
    obtain ⟨hrows, rfl⟩ := Prod.mk.inj (Option.some.inj hrun)
    change (s.committed.intents.find? id).toList = rows at hrows
    change Kept _ _ _ _ _ _ (s.setSession client (some (.active
      (Option.filter (fun id => (s.committed.intents.find? id).isSome) (some id)).toList [.lockIntent id])))
    cases hrow : s.committed.intents.find? id with
    | none =>
      rw [hrow, Option.toList_none] at hrows
      subst hrows
      refine ⟨.missing .., h.ended rfl rfl (fun x hx => ?_) trivial, fun a st st' hmoves => ?_⟩
      · cases hx
        simp [Session.locks, hrow]
      · cases hmoves with
        | executed => exact .silent _ rfl
        | missing => exact .refuses _ (transition_missing_at _ _ hrow) rfl
    | some row =>
      rw [hrow, Option.toList_some] at hrows
      subst hrows
      obtain ⟨-, rfl⟩ := Table.find?_eq_some.1 hrow
      have hfound : (s.committed.intents.find? row.id).isSome = true := by rw [hrow, Option.isSome_some]
      have hfilter : (some row.id).filter (fun id => (s.committed.intents.find? id).isSome) = some row.id :=
        Option.filter_some_pos hfound
      rw [hfilter]
      refine kept_executed h (.lock row.id eventType payload) hcommit (.locked row) rfl rfl hrow (.locked ..)
        fun id' hid' => ?_
      cases hid'
      exact hfree hrejects row.id rfl hfound
  | update row eventType payload now hedge =>
    obtain ⟨hrows, rfl⟩ := Prod.mk.inj (Option.some.inj hrun)
    have hrow : s.committed.intents.find? row.id = some row := hknown
    have hreturn : s.committed.intents.returning (fun r => decide (r.id = row.id ∧ r.version = row.version))
        (Sql.set (getExpectedNextState eventType) (row.version + 1) now) = [Sql.set _ _ now row] :=
      returning_current (Table.find?_eq_some.1 hrow).1
    obtain rfl := hreturn.symm.trans hrows
    rw [htouched fun id' hid' => by cases hid'; simp [Table.find?_updateWhere, Txn.done, replay, Sql.run, hrow]]
    refine kept_executed h (.update row eventType payload now hedge) hcommit (.advanced row _ now) rfl rfl hknown
      (.updated ..) fun id' hid' => ?_
    cases hid'
    exact hfree hrejects row.id rfl (by rw [hrow, Option.isSome_some]; rfl)
  | record row eventType payload now hedge =>
    refine kept_executed h (.record row eventType payload now hedge) hcommit (.recorded _ _ _ _) rfl rfl hknown
      (.recorded ..) fun id' hid' => ?_
    cases hid'

/-- The next statement of a transaction. -/
theorem kept_statement (h : Consistent s (gs₁ ++ .within client t :: gs₂)) (hq : Next a t q) (o : Turn)
    (hfree : Unblocked s (.query client q) o) :
    Kept s (.within client t) gs₁ gs₂ (.query client q) (serve (.query client q) o s).1
      (serve (.query client q) o s).2 := by
  obtain ⟨hactive, hknown⟩ : s.sessions client = some (.active t.locks t.done) ∧ t.Knows s.committed :=
    h.ghosts _ (List.mem_append_right _ List.mem_cons_self)
  by_cases hrejects : o.rejects = true
  · obtain ⟨session, hsession, hlocks⟩ := reject_next hq s client
    rw [show serve (.query client q) o s = (.error (.database q.statement), s.reject client q) from if_pos hrejects,
      hsession]
    exact kept_failed h hq hlocks
  rw [show serve (.query client q) o s = s.answer client q from if_neg hrejects]
  by_cases hcommit : q = .commit
  · subst hcommit
    cases hq with
    | commit hdone =>
      simp only [Server.answer, hactive]
      exact kept_commit h hdone
  · rw [answer_next hq hcommit hactive]
    cases hrun : q.run (replay t.done s.committed) with
    | none =>
      refine kept_failed h hq fun x hx => ?_
      cases hx
      rfl
    | some r =>
      obtain ⟨rows, db⟩ := r
      exact kept_run h hq hcommit hrun (Bool.eq_false_iff.2 hrejects) hfree

theorem Consistent.committed_frame (h : Consistent s gs) {db : Db}
    (hrows : ∀ client ∈ s.clients, ∀ id, s.Holds client id → db.intents.find? id = s.committed.intents.find? id)
    (hmerchants : db.merchants = s.committed.merchants) : Consistent { s with committed := db } gs := by
  refine ⟨h.clients, h.nodup, h.closed, h.single, fun g hg => ?_⟩
  exact (h.ghosts g hg).frame (fun _ _ => rfl)
    (fun client hclient id hholds => hrows client (h.mem_clients hg hclient) id hholds) hmerchants

theorem query_faulted {α : Type} {o : Oracle} {fn : Db → Except IntentError (α × Db)} (hfault : o.fault = some .query)
    (db : Db) : Intent.query o fn db = (.error (.database .query), db) := by
  unfold Intent.query atomically Intent.statement
  rw [if_pos hfault]
  rfl

theorem direct_tables {o : Oracle} (ha : ¬ Transactional a)
    (hquote : ∀ id rate expires deposit, a ≠ .updateQuote id rate expires deposit) :
    (handle a o db).2.toTables = db.toTables := by
  have heffect := handle_effect a o db
  generalize (handle a o db).2.toTables = after at heffect ⊢
  cases heffect with
  | unchanged => rfl
  | created => exact absurd trivial ha
  | transitioned => exact absurd trivial ha
  | requoted => exact (hquote _ _ _ _ rfl).elim

/-- A call that is one statement does not change rows that are locked. -/
theorem direct_frame (ha : ¬ Transactional a) {o : Turn} (hfree : Unblocked s (.direct a) o) :
    ∀ client ∈ s.clients, ∀ id, s.Holds client id →
      (handle a o.toOracle s.committed).2.intents.find? id = s.committed.intents.find? id := by
  intro client hclient id hholds
  cases a with
  | create | transition => exact absurd trivial ha
  | updateQuote id' rate expires deposit =>
    change (Intent.updateQuote o.toOracle id' rate expires deposit s.committed).2.intents.find? id = _
    cases hout : (Intent.updateQuote o.toOracle id' rate expires deposit s.committed).1 with
    | error e => rw [show (Intent.updateQuote o.toOracle id' rate expires deposit s.committed).2 = s.committed from
        atomically_error hout]
    | ok intent =>
      obtain ⟨row, hrow, -, hdb⟩ := updateQuote_ok hout
      have hfault : o.fault ≠ some .query := by
        intro hfault
        rw [Intent.updateQuote, query_faulted hfault] at hout
        cases hout
      have hne : id ≠ id' := by
        rintro rfl
        exact hfree hfault id rfl (by rw [hrow, Option.isSome_some]) client hclient hholds
      rw [hdb, Table.find?_updateWhere]
      cases hold : s.committed.intents.find? id with
      | none => rfl
      | some old =>
        obtain ⟨-, rfl⟩ := Table.find?_eq_some.1 hold
        simp [hne]
  | _ => exact congrArg (fun tables : Tables => tables.intents.find? id) (direct_tables ha nofun)

/-- `new Date()`. -/
theorem kept_clock (h : Consistent s (gs₁ ++ g :: gs₂)) (o : Turn) :
    Kept s g gs₁ gs₂ .clock (serve .clock o s).1 (serve .clock o s).2 := by
  change Kept s g gs₁ gs₂ .clock (.ok o.now) s
  refine ⟨.clock .., ?_, fun a st st' hmoves => ?_⟩
  · have hnext : g.next .clock (.ok o.now) = g := by cases g <;> rfl
    rwa [hnext]
  · cases hmoves
    exact .silent _ rfl

/-- `BEGIN`. -/
theorem kept_begin (h : Consistent s (gs₁ ++ .holding client :: gs₂)) (o : Turn) :
    Kept s (.holding client) gs₁ gs₂ (.query client .begin) (serve (.query client .begin) o s).1
      (serve (.query client .begin) o s).2 := by
  have hnone : s.sessions client = none := h.ghosts _ (List.mem_append_right _ List.mem_cons_self)
  by_cases hrejects : o.rejects = true
  · rw [show serve (.query client .begin) o s = (.error (.database .begin), s) from if_pos hrejects,
      ← setSession_eq hnone]
    refine ⟨.rejected .., h.ended rfl rfl nofun trivial, fun a st st' hmoves => ?_⟩
    cases hmoves with
    | unbegun ha =>
      obtain ⟨o, hcall⟩ := ha.rejected s.committed (List.mem_cons_of_mem _ List.mem_cons_self)
      exact .refuses o hcall rfl
  · have hanswer : s.answer client .begin = (.ok (), s.setSession client (some (.active [] []))) := by
      simp only [Server.answer, hnone, Option.getD_none]
    rw [show serve (.query client .begin) o s = s.answer client .begin from if_neg hrejects, hanswer]
    refine ⟨.begun .., h.ended rfl rfl (fun x hx => ?_) ⟨setSession_same .., trivial⟩, fun a st st' hmoves => ?_⟩
    · cases hx
      rfl
    · cases hmoves
      exact .silent _ rfl

theorem kept_rollback_turn (h : Consistent s (gs₁ ++ g :: gs₂))
    (hg : g = .failing client ∨ ∃ t, g = .within client t) (o : Turn) :
    Kept s g gs₁ gs₂ (.query client .rollback) (serve (.query client .rollback) o s).1
      (serve (.query client .rollback) o s).2 := by
  by_cases hrejects : o.rejects = true
  · rw [show serve (.query client .rollback) o s = (.error (.database .connect), s.setSession client none) from
      if_pos hrejects]
    exact kept_rollback h hg _ (.rejected ..)
  · rw [show serve (.query client .rollback) o s = (.ok (), s.setSession client none) from if_neg hrejects]
    exact kept_rollback h hg _ (.rolledBack ..)

/-- `pool.connect()`. -/
theorem kept_connect (h : Consistent s (gs₁ ++ .rest :: gs₂)) {o : Turn} (hfree : Unblocked s .connect o) :
    Kept s .rest gs₁ gs₂ .connect (serve .connect o s).1 (serve .connect o s).2 := by
  by_cases hrejects : o.rejects = true
  · rw [show serve .connect o s = (.error (.database .connect), s) from if_pos hrejects]
    refine ⟨.unconnected .., h, fun a st st' hmoves => ?_⟩
    cases hmoves with
    | unconnected ha =>
      obtain ⟨o, hcall⟩ := ha.rejected s.committed List.mem_cons_self
      exact .settles o hcall
  · have hnew : o.client ∉ s.clients := hfree (Bool.eq_false_iff.2 hrejects)
    rw [show serve .connect o s = (.ok o.client, { s with clients := o.client :: s.clients }) from if_neg hrejects]
    refine ⟨.connected .., ⟨?_, ?_, ?_, h.single, fun g hg => ?_⟩, fun a st st' hmoves => ?_⟩
    · have hclients := h.clients
      rw [clients_rest] at hclients
      have hgiven : (gs₁ ++ .holding o.client :: gs₂).filterMap Ghost.client = _ := clients_middle rfl
      exact (List.Perm.of_eq hgiven).trans (List.perm_middle.trans (hclients.cons o.client))
    · exact List.nodup_cons.2 ⟨hnew, h.nodup⟩
    · exact fun client hclient => h.closed client fun hmem => hclient (List.mem_cons_of_mem _ hmem)
    · have hold (hmem : g ∈ gs₁ ++ .rest :: gs₂) : g.Matches { s with clients := o.client :: s.clients } :=
        (h.ghosts g hmem).frame (fun _ _ => rfl) (fun _ _ _ _ => rfl) rfl
      rcases List.mem_append.1 hg with hg | hg
      · exact hold (List.mem_append_left _ hg)
      · rcases List.mem_cons.1 hg with rfl | hg
        · exact h.closed o.client hnew
        · exact hold (List.mem_append_right _ (List.mem_cons_of_mem _ hg))
    · cases hmoves
      exact .silent _ rfl

/-- `client.release()`. -/
theorem kept_release (h : Consistent s (gs₁ ++ .leaving client :: gs₂)) :
    Kept s (.leaving client) gs₁ gs₂ (.release client) (.ok ()) { s with clients := s.clients.erase client } := by
  have hnone : s.sessions client = none := h.ghosts _ (List.mem_append_right _ List.mem_cons_self)
  refine ⟨.released .., ⟨?_, h.nodup.erase client, fun other hother => ?_, h.single, fun g hg => ?_⟩,
    fun a st st' hmoves => ?_⟩
  · have hclients := h.clients
    have hgiven : (gs₁ ++ .leaving client :: gs₂).filterMap Ghost.client = _ := clients_middle rfl
    rw [hgiven] at hclients
    have herased := (List.perm_middle.symm.trans hclients).erase client
    rw [List.erase_cons_head] at herased
    exact (List.Perm.of_eq clients_rest).trans herased
  · by_cases hclient : other = client
    · rw [hclient]
      exact hnone
    · exact h.closed other fun hmem => hother (h.nodup.mem_erase_iff.2 ⟨hclient, hmem⟩)
  · have hold (hmem : g ∈ gs₁ ++ .leaving client :: gs₂) : g.Matches { s with clients := s.clients.erase client } :=
      (h.ghosts g hmem).frame (fun _ _ => rfl) (fun _ _ _ _ => rfl) rfl
    rcases List.mem_append.1 hg with hg | hg
    · exact hold (List.mem_append_left _ hg)
    · rcases List.mem_cons.1 hg with rfl | hg
      · trivial
      · exact hold (List.mem_append_right _ (List.mem_cons_of_mem _ hg))
  · cases hmoves
    exact .silent _ rfl

/-- **One step**: it keeps the server consistent, and moves its task's call on as the call in one step would. -/
theorem kept_step {b : Step} (h : Consistent s (gs₁ ++ g :: gs₂)) (hok : g.Ok b) {o : Turn}
    (hfree : Unblocked s b o) : Kept s g gs₁ gs₂ b (serve b o s).1 (serve b o s).2 := by
  cases g with
  | rest =>
    cases b with
    | direct a =>
      refine ⟨.direct .., h.committed_frame (direct_frame hok hfree) (@handle_outer "" a _ _).1,
        fun a' st st' hmoves => ?_⟩
      generalize hr : (serve (.direct a) o s).1 = r at hmoves
      cases hmoves with
      | direct => exact .settles o.toOracle (Prod.ext hr rfl)
    | generateId =>
      refine ⟨.generateId .., h, fun a' st st' hmoves => ?_⟩
      generalize (serve .generateId o s).1 = r at hmoves
      cases hmoves
      exact .silent _ rfl
    | clock => exact kept_clock h o
    | connect => exact kept_connect h hfree
    | query | release => exact absurd hok id
  | holding client =>
    cases b with
    | query client' q =>
      cases q with
      | begin =>
        obtain rfl : client' = client := hok
        exact kept_begin h o
      | _ => exact absurd hok id
    | _ => exact absurd hok id
  | within client t =>
    cases b with
    | query client' q =>
      obtain ⟨rfl, rfl | ⟨a, hq⟩⟩ := hok
      · exact kept_rollback_turn h (.inr ⟨t, rfl⟩) o
      · exact kept_statement h hq o hfree
    | clock => exact kept_clock h o
    | _ => exact absurd hok id
  | failing client =>
    cases b with
    | query client' q =>
      cases q with
      | rollback =>
        obtain rfl : client' = client := hok
        exact kept_rollback_turn h (.inl rfl) o
      | _ => exact absurd hok id
    | _ => exact absurd hok id
  | leaving client =>
    cases b with
    | release client' =>
      obtain rfl : client' = client := hok
      exact kept_release h
    | _ => exact absurd hok id

/-- **The code over the statements simulates the calls in one step.** -/
theorem simulates : conduct.Simulates expand handle serve Unblocked Server.committed Consistent where
  carries := expand_part
  spawn s gs h := by
    refine ⟨?_, h.nodup, h.closed, h.single, fun g hg => ?_⟩
    · rw [List.filterMap_append]
      exact (List.Perm.of_eq (List.append_nil _)).trans h.clients
    · rcases List.mem_append.1 hg with hg | hg
      · exact h.ghosts g hg
      · rw [List.mem_singleton.1 hg]
        trivial
  call s gs₁ g gs₂ b o h hok hfree :=
    let hkept := kept_step h hok hfree
    ⟨hkept.relies, hkept.consistent, hkept.explained⟩

/-! ## Whole runs -/

/-- The database between requests. -/
def idleServer (db : Db) : Server := ⟨db, [], fun _ => none⟩

theorem idleServer_consistent (db : Db) : Consistent (idleServer db) [] := by
  refine ⟨List.Perm.refl _, List.nodup_nil, fun _ _ => rfl, fun _ _ _ h => ?_, fun g hg => absurd hg List.not_mem_nil⟩
  obtain ⟨x, hx, -⟩ := h
  cases hx

/-- A statement-level run of tasks that keep to `start` in a database that holds `db`. -/
structure Concurrent (db : Db) (start : Task Unit → Prop) (cs : List (Choice Step Reply IntentError Unit Turn)) :
    Prop where
  tasks : ∀ q, .spawn q ∈ cs → ∃ p, start p ∧ q = p.refine expand
  waits : Pool.Careful serve Unblocked ⟨idleServer db, []⟩ cs

variable {start : Task Unit → Prop} {cs : List (Choice Step Reply IntentError Unit Turn)}

/-- **Transactions are one step each**: whatever statements are rejected and however those of different tasks are
interleaved, what has been committed, and how each finished task has ended, is as in some run in which each creation
and each transition is one step. -/
theorem transactions_serial (h : Concurrent db start cs) :
    ∃ ds, (∀ p, .spawn p ∈ ds → start p) ∧
      (Pool.exec handle ⟨db, []⟩ ds).store = (Pool.exec serve ⟨idleServer db, []⟩ cs).store.committed ∧
      ∀ i out, (Pool.exec serve ⟨idleServer db, []⟩ cs).Ended i out → (Pool.exec handle ⟨db, []⟩ ds).Ended i out :=
  (Conduct.refines simulates (idleServer_consistent db) h.tasks h.waits).1

/-- Two confirmations of `pi` at once: after five calls of the first, the second makes `n` calls, and goes on when the
first has ended. Its fifth is the `SELECT … FOR UPDATE`. -/
def twoConfirmations (n : Nat) : List (Choice Step Reply IntentError Unit Turn) :=
  let first : Choice Step Reply IntentError Unit Turn := .step 0 { now := 3 }
  let second : Choice Step Reply IntentError Unit Turn := .step 1 { now := 4, client := 1 }
  .spawn (confirmPi.task.refine expand) :: .spawn (confirmPi.task.refine expand) ::
    (List.replicate 5 first ++ List.replicate n second ++ List.replicate 6 first ++ List.replicate 3 second)

/-- The first has locked the row when the second comes to lock it. -/
example : ¬ Pool.Careful serve Unblocked ⟨idleServer detectedDb, []⟩ (twoConfirmations 5) := by decide +kernel

theorem twoConfirmations_concurrent : Concurrent detectedDb (· = confirmPi.task) (twoConfirmations 4) where
  tasks q hq := by
    simp only [twoConfirmations, List.mem_cons, List.mem_append, List.mem_replicate, reduceCtorEq, and_false, or_false,
      Choice.spawn.injEq, or_self] at hq
    exact ⟨_, rfl, hq⟩
  waits := by decide +kernel

/-- The rule where the second finds the intent moved, and is rolled back. -/
theorem transactions_serial_confirmations :
    (Pool.exec serve ⟨idleServer detectedDb, []⟩ (twoConfirmations 4)).tasks.map Prog.ended = [true, true] ∧
      ∃ ds, (∀ p, .spawn p ∈ ds → p = confirmPi.task) ∧
        (Pool.exec handle ⟨detectedDb, []⟩ ds).store =
          (Pool.exec serve ⟨idleServer detectedDb, []⟩ (twoConfirmations 4)).store.committed ∧
        ∀ i out, (Pool.exec serve ⟨idleServer detectedDb, []⟩ (twoConfirmations 4)).Ended i out →
          (Pool.exec handle ⟨detectedDb, []⟩ ds).Ended i out :=
  ⟨by decide +kernel, transactions_serial twoConfirmations_concurrent⟩

/-- Tasks that are at rest have no client. -/
theorem clients_length_le {tasks : List (Work Unit)}
    (h : List.Forall₂ (fun g p => p.ended = true → g = conduct.rest) gs tasks) :
    (gs.filterMap Ghost.client).length ≤ (tasks.filter fun p => !p.ended).length := by
  induction h with
  | nil => exact Nat.le_refl _
  | @cons g p gs tasks hgp _ ih =>
    by_cases hend : p.ended = true
    · obtain rfl : g = .rest := hgp hend
      rw [List.filterMap_cons_none rfl, List.filter_cons_of_neg (by simp [hend])]
      exact ih
    · rw [List.filter_cons_of_pos (by simp [hend])]
      cases hclient : g.client with
      | none =>
        rw [List.filterMap_cons_none hclient]
        exact Nat.le_succ_of_le ih
      | some client =>
        rw [List.filterMap_cons_some hclient]
        exact Nat.succ_le_succ ih

/-- **No client leaks**: there are at most as many out as tasks that have not ended, no two tasks have the same, and
a client that has been returned has no transaction left open, whatever was rejected. -/
theorem clients_returned (h : Concurrent db start cs) :
    (Pool.exec serve ⟨idleServer db, []⟩ cs).store.clients.length ≤
        ((Pool.exec serve ⟨idleServer db, []⟩ cs).tasks.filter fun p => !p.ended).length ∧
      (Pool.exec serve ⟨idleServer db, []⟩ cs).store.clients.Nodup ∧
      ∀ client ∉ (Pool.exec serve ⟨idleServer db, []⟩ cs).store.clients,
        (Pool.exec serve ⟨idleServer db, []⟩ cs).store.sessions client = none := by
  obtain ⟨-, gs, hconsistent, hrest⟩ := Conduct.refines simulates (idleServer_consistent db) h.tasks h.waits
  refine ⟨?_, hconsistent.nodup, hconsistent.closed⟩
  rw [← hconsistent.clients.length_eq]
  exact clients_length_le hrest

theorem clients_returned_confirmations :
    (Pool.exec serve ⟨idleServer detectedDb, []⟩ (twoConfirmations 4)).store.clients.length ≤
        ((Pool.exec serve ⟨idleServer detectedDb, []⟩ (twoConfirmations 4)).tasks.filter fun p => !p.ended).length ∧
      (Pool.exec serve ⟨idleServer detectedDb, []⟩ (twoConfirmations 4)).store.clients.Nodup ∧
      ∀ client ∉ (Pool.exec serve ⟨idleServer detectedDb, []⟩ (twoConfirmations 4)).store.clients,
        (Pool.exec serve ⟨idleServer detectedDb, []⟩ (twoConfirmations 4)).store.sessions client = none :=
  clients_returned twoConfirmations_concurrent

end NexoraGateway.Intent.Sessions
