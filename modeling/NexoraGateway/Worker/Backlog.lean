import NexoraGateway.Async.Observed
import NexoraGateway.Worker.Confirmed

/-!
# A backlog and its sweeps (confirmation-tracker.ts:74, payment-intent.repository.ts:153)

A sweep takes the `LIMIT` intents that were updated first, and examining one does not update it. `all_examined` says
when sweeps that are together as large as the backlog examine all of it.

* `Yields` — the condition on one query: what has been examined gives way to what has not.
* `Asked` — how far a sweep has got.
* `Backlog` — the invariant: each answer takes a whole batch off what is left.
-/
namespace NexoraGateway.Worker

open Async Store
open Intent (PaymentIntent)

/-! ## The first rows of an order -/

section
variable {α : Type} {key : α → Int} {seen : α → Bool}

/-- When in a sorted list what has not been seen comes before what has, the first `b` are `b` that have not been
seen, or all of them. -/
theorem countP_drop {xs : List α} (hsorted : xs.Pairwise fun x y => key x ≤ key y)
    (hold : ∀ x ∈ xs, ∀ y ∈ xs, seen x = false → seen y = true → key x < key y) (b : Nat) :
    (xs.drop b).countP (fun x => !seen x) = 0 ∨
      (xs.drop b).countP (fun x => !seen x) + b = xs.countP fun x => !seen x := by
  by_cases hnone : (xs.drop b).countP (fun x => !seen x) = 0
  · exact .inl hnone
  obtain ⟨x, hx, hunseen⟩ := List.countP_pos_iff.1 (Nat.pos_of_ne_zero hnone)
  rw [← List.take_append_drop b xs, List.pairwise_append] at hsorted
  have htake : ∀ y ∈ xs.take b, (!seen y) = true := by
    intro y hy
    cases hseen : seen y with
    | false => rfl
    | true =>
      have hlt : key x < key y :=
        hold x (List.mem_of_mem_drop hx) y (List.mem_of_mem_take hy) (by simpa using hunseen) hseen
      have hle : key y ≤ key x := hsorted.2.2 y hy x hx
      omega
  have hlen : b < xs.length := by
    by_contra hge
    rw [List.drop_eq_nil_of_le (by omega)] at hx
    cases hx
  have hall : (xs.take b).countP (fun x => !seen x) = b := by
    rw [List.countP_eq_length.2 htake, List.length_take]
    omega
  right
  conv_rhs => rw [← List.take_append_drop b xs, List.countP_append, hall]
  omega

end

/-! ## What the sweeps have seen -/

/-- The answers to sweeps: the task of the sweep, and the intents. -/
abbrev Batches := List (Nat × List Id)

/-- The sweeps are the tasks before `k`. -/
def noteBatch (k : Nat) (batches : Batches) (i : Nat) : (a : Jobs.Call worker) → Jobs.Answer a → Batches
  | .outer _ (.findByState ..), .ok (rows : List PaymentIntent) =>
    if i < k then batches ++ [(i, rows.map PaymentIntent.id)] else batches
  | _, _ => batches

def Batches.Seen (batches : Batches) (id : Id) : Prop := ∃ batch ∈ batches, id ∈ batch.2

instance (batches : Batches) (id : Id) : Decidable (batches.Seen id) := inferInstanceAs (Decidable (∃ _ ∈ _, _))

/-- The intents that a sweep may be answered. -/
def detectedRows (db : Intent.Db) : List PaymentIntent := db.intents.rows.filter fun row => row.state = .detected

def detected (db : Intent.Db) : List Id := (detectedRows db).map PaymentIntent.id

/-- How many of them no sweep has seen. -/
def unseen (batches : Batches) (db : Intent.Db) : Nat := (detected db).countP fun id => !decide (batches.Seen id)

theorem detected_nodup (db : Intent.Db) : (detected db).Nodup :=
  db.intents.nodup.sublist (List.filter_sublist.map _)

/-- No intent becomes `DETECTED`, and none stops being so that no sweep has seen. -/
def Steady (batches : Batches) (db db' : Intent.Db) : Prop :=
  (∀ id ∈ detected db', id ∈ detected db) ∧ ∀ id ∈ detected db, ¬ batches.Seen id → id ∈ detected db'

instance (batches : Batches) (db db' : Intent.Db) : Decidable (Steady batches db db') :=
  inferInstanceAs (Decidable (_ ∧ _))

/-- All `DETECTED` intents fit into the batch, or those that no sweep has seen were updated before those that one
has. -/
def Yields (batches : Batches) (limit : Nat) (db : Intent.Db) : Prop :=
  (detected db).length ≤ limit ∨
    ∀ row ∈ detectedRows db, ∀ row' ∈ detectedRows db, ¬ batches.Seen row.id → batches.Seen row'.id →
      row.updatedAt < row'.updatedAt

instance (batches : Batches) (limit : Nat) (db : Intent.Db) : Decidable (Yields batches limit db) :=
  inferInstanceAs (Decidable (_ ∨ _))

section
variable {batches : Batches} {db db' : Intent.Db}

theorem Steady.unseen_le (h : Steady batches db db') : unseen batches db' ≤ unseen batches db :=
  (List.subperm_of_subset (detected_nodup db') fun _ hid => h.1 _ hid).countP_le _

/-- **What a query takes off the backlog**: everything, or a whole batch. -/
theorem Yields.answered {limit : Nat} (h : Yields batches limit db) (i : Nat) :
    let batches' := batches ++ [(i, (findByState .detected limit db).map PaymentIntent.id)]
    unseen batches' db = 0 ∨ unseen batches' db + limit ≤ unseen batches db := by
  intro batches'
  let order : List PaymentIntent := (detectedRows db).insertionSort fun x y => x.updatedAt ≤ y.updatedAt
  have hperm : order.Perm (detectedRows db) := List.perm_insertionSort _ _
  have hcount (seen : Id → Bool) : (detected db).countP seen = order.countP fun row => seen row.id := by
    rw [detected, List.countP_map, ← hperm.countP_eq]
    rfl
  have hbatch : (findByState .detected limit db).map PaymentIntent.id = (order.take limit).map PaymentIntent.id := by
    rw [findByState, List.map_map]
    rfl
  -- the batch is seen now, so what is left lies behind it
  have hleft : unseen batches' db ≤ (order.drop limit).countP fun row => !decide (batches.Seen row.id) := by
    have htake : (order.take limit).countP (fun row => !decide (batches'.Seen row.id)) = 0 := by
      refine List.countP_eq_zero.2 fun row hrow => ?_
      have hseen : batches'.Seen row.id := by
        refine ⟨_, List.mem_append_right _ (List.mem_singleton_self _), ?_⟩
        rw [hbatch]
        exact List.mem_map_of_mem hrow
      simp [hseen]
    rw [unseen, hcount, ← List.take_append_drop limit order, List.countP_append, htake, Nat.zero_add,
      List.take_append_drop]
    refine List.countP_mono_left fun row _ hrow => ?_
    have hmono : batches.Seen row.id → batches'.Seen row.id :=
      fun ⟨batch, hmem, hid⟩ => ⟨batch, List.mem_append_left _ hmem, hid⟩
    simp only [Bool.not_eq_true', decide_eq_false_iff_not] at hrow ⊢
    exact fun hseen => hrow (hmono hseen)
  rcases h with hfits | hold
  · left
    have hlen : order.length ≤ limit := by rw [hperm.length_eq]; simpa [detected] using hfits
    rw [List.drop_eq_nil_of_le hlen] at hleft
    exact Nat.le_zero.1 hleft
  · have hsorted : order.Pairwise fun x y => x.updatedAt ≤ y.updatedAt := by
      have htotal : Std.Total fun x y : PaymentIntent => x.updatedAt ≤ y.updatedAt := ⟨fun _ _ => le_total _ _⟩
      have htrans : IsTrans PaymentIntent fun x y => x.updatedAt ≤ y.updatedAt := ⟨fun _ _ _ => le_trans⟩
      exact List.pairwise_insertionSort _ _
    have hdrop := @countP_drop _ _ (fun row => decide (batches.Seen row.id)) _ hsorted
      (fun x hx y hy hunseen hseen => hold x (hperm.mem_iff.1 hx) y (hperm.mem_iff.1 hy)
        (by simpa using hunseen) (by simpa using hseen)) limit
    rw [← hcount fun id => !decide (batches.Seen id), ← unseen] at hdrop
    omega

end

/-! ## Runs -/

/-- A run of which the answers to the sweeps are noted. -/
abbrev Swept := Jobs.Queue worker × Batches

def sweepStep (k : Nat) :
    Swept → Choice (Jobs.Call worker) Jobs.Answer Jobs.JsError Unit (Jobs.Oracle worker) → Swept :=
  Pool.noted Jobs.handle (noteBatch k)

/-- The query of a sweep finds that what has been seen gives way. -/
def QueryYields (k : Nat) (batches : Batches) (db : Intent.Db) (i : Nat) : Jobs.Call worker → Prop
  | .outer _ (.findByState _ limit) => i < k → Yields batches limit db
  | _ => True

instance (k : Nat) (batches : Batches) (db : Intent.Db) (i : Nat) :
    (a : Jobs.Call worker) → Decidable (QueryYields k batches db i a)
  | .outer _ (.findByState _ limit) => inferInstanceAs (Decidable (i < k → Yields batches limit db))
  | .outer _ (.intent _) | .outer _ (.getEvents _) | .outer _ (.findAwaitingDepositAt ..)
  | .outer _ (.getTransactionStatus ..) | .enqueue .. | .claimBatch .. | .writeOutcome .. | .reclaimStale _ | .random
  | .sleep _ => inferInstanceAs (Decidable True)

/-- The condition on one step. -/
def Drains (k : Nat) (s : Swept) :
    Choice (Jobs.Call worker) Jobs.Answer Jobs.JsError Unit (Jobs.Oracle worker) → Prop
  | .spawn _ => True
  | .step i o =>
    Steady s.2 s.1.store.outer.intents (s.1.next Jobs.handle (.step i o)).store.outer.intents ∧
      ∀ a ∈ s.1.pending i, QueryYields k s.2 s.1.store.outer.intents i a

instance (k : Nat) (s : Swept) :
    (c : Choice (Jobs.Call worker) Jobs.Answer Jobs.JsError Unit (Jobs.Oracle worker)) → Decidable (Drains k s c)
  | .spawn _ => inferInstanceAs (Decidable True)
  | .step i o => inferInstanceAs (Decidable (Steady s.2 s.1.store.outer.intents
      (s.1.next Jobs.handle (.step i o)).store.outer.intents ∧
      ∀ a ∈ s.1.pending i, QueryYields k s.2 s.1.store.outer.intents i a))

/-- A call is the query of a sweep, which is answered, or nothing is noted. -/
theorem noteBatch_handle (k : Nat) (batches : Batches) (i : Nat) (a : Jobs.Call worker) (o : Jobs.Oracle worker)
    (db : Jobs.Db worker) :
    noteBatch k batches i a (Jobs.handle a o db).1 = batches ∨
    ∃ job state limit, a = .outer job (Call.findByState state limit) ∧ i < k ∧
      (Jobs.handle a o db).2.outer.intents = db.outer.intents ∧
      noteBatch k batches i a (Jobs.handle a o db).1 =
        batches ++ [(i, (findByState state limit db.outer.intents).map PaymentIntent.id)] := by
  cases a with
  | enqueue | claimBatch | writeOutcome | reclaimStale | random | sleep => exact .inl rfl
  | outer job b =>
    cases b with
    | intent | getEvents | findAwaitingDepositAt | getTransactionStatus => exact .inl rfl
    | findByState state limit =>
      have hanswer : (Jobs.handle (.outer job (Call.findByState state limit)) o db).1 =
        (handle (.findByState state limit) o.outer db.outer).1 := rfl
      rw [hanswer]
      cases hrows : (handle (.findByState state limit) o.outer db.outer).1 with
      | error e => exact .inl rfl
      | ok rows =>
        obtain ⟨rfl, hdb⟩ := findByState_ok hrows
        have hintents : (handle (.findByState state limit) o.outer db.outer).2.intents = db.outer.intents := by
          rw [hdb]
        by_cases hi : i < k
        · refine .inr ⟨job, state, limit, rfl, hi, hintents, ?_⟩
          simp only [noteBatch, if_pos hi]
        · exact .inl (by simp only [noteBatch, if_neg hi])

section
variable (options : Jobs.JobQueueOptions) (chains : List ChainClient) (batchSize : Option Nat) (k : Nat)

/-- A sweep, as a task. -/
def sweepTask : Task Unit := do let _ ← sweep options chains batchSize

/-- The call is not the query of a sweep. -/
def NoQuery : Jobs.Call worker → Prop
  | .outer _ (.findByState ..) => False
  | _ => True

/-- How far the sweep that is task `i` has got: it is to make its query, has thrown, or has been answered. -/
inductive Asked (i : Nat) (s : Swept) : Prop
  | waiting (h : s.1.tasks[i]? = some (sweepTask options chains batchSize))
  | failed (e : Jobs.JsError) (h : s.1.tasks[i]? = some (.throw e))
  | answered (hbatch : i ∈ s.2.map Prod.fst) (p : Task Unit) (hp : s.1.tasks[i]? = some p)
      (honly : p.Only NoQuery fun _ => True)

variable {options chains batchSize k} {i : Nat} {s : Swept}
  {c : Choice (Jobs.Call worker) Jobs.Answer Jobs.JsError Unit (Jobs.Oracle worker)}

theorem noteBatch_subset {batches : Batches} (i : Nat) (a : Jobs.Call worker) (o : Jobs.Oracle worker)
    (db : Jobs.Db worker) : batches ⊆ noteBatch k batches i a (Jobs.handle a o db).1 := by
  rcases noteBatch_handle k batches i a o db with hsame | ⟨_, _, _, _, _, _, hnoted⟩
  · rw [hsame]
    exact List.Subset.refl _
  · rw [hnoted]
    exact List.subset_append_left _ _

/-- A sweep that is answered has nothing more to ask. -/
theorem asked_call (hi : i < k) {a : Jobs.Call worker} {kont : Jobs.Answer a → Task Unit} {o : Jobs.Oracle worker}
    (hcall : s.1.tasks[i]? = some (.call a kont)) (h : Asked options chains batchSize i s) :
    Asked options chains batchSize i (⟨(Jobs.handle a o s.1.store).2,
      s.1.tasks.set i (kont (Jobs.handle a o s.1.store).1)⟩, noteBatch k s.2 i a (Jobs.handle a o s.1.store).1) := by
  have hlt : i < s.1.tasks.length := (List.getElem?_eq_some_iff.1 hcall).1
  have hset (p : Task Unit) : (s.1.tasks.set i p)[i]? = some p := List.getElem?_set_self hlt
  cases h with
  | waiting h =>
    have hquery : sweepTask options chains batchSize = .call a kont := Option.some.inj (h.symm.trans hcall)
    cases hquery
    generalize hx : (Jobs.handle _ o s.1.store).1 = x
    cases x with
    | error e => exact .failed e (hset _)
    | ok rows =>
      refine .answered ?_ _ (hset _) ?_
      · simp only [noteBatch, if_pos hi]
        simp
      · have hrest : (do rows.forM (examine options chains); return rows.length : Task Nat).Only NoQuery
            fun _ => True := by
          refine Prog.Only.bind (Prog.Only.forM (examine_only options chains ?_ ?_ ?_) rows) fun _ => Prog.Only.ret _
          · exact fun _ => trivial
          · exact fun _ _ => trivial
          · exact fun _ _ _ _ => trivial
        exact Prog.Only.bind hrest fun _ => Prog.Only.ret _
  | failed e h =>
    rw [h] at hcall
    cases hcall
  | answered hbatch p hp honly =>
    obtain rfl : p = .call a kont := Option.some.inj (hp.symm.trans hcall)
    exact .answered (List.map_subset _ (noteBatch_subset i a o s.1.store) hbatch) _ (hset _)
      (honly.2 _ fun _ _ => trivial)

/-- Other tasks leave it where it is. -/
theorem Asked.frame {s' : Swept} (h : Asked options chains batchSize i s) (hbatches : s.2 ⊆ s'.2)
    (htask : s'.1.tasks[i]? = s.1.tasks[i]?) : Asked options chains batchSize i s' := by
  cases h with
  | waiting h => exact .waiting (htask.trans h)
  | failed e h => exact .failed e (htask.trans h)
  | answered hbatch p hp honly => exact .answered (List.map_subset _ hbatches hbatch) p (htask.trans hp) honly

theorem asked_step (hi : i < k) (h : Asked options chains batchSize i s) :
    Asked options chains batchSize i (sweepStep k s c) := by
  have hlt : i < s.1.tasks.length := by
    cases h with
    | waiting h => exact (List.getElem?_eq_some_iff.1 h).1
    | failed e h => exact (List.getElem?_eq_some_iff.1 h).1
    | answered hbatch p hp honly => exact (List.getElem?_eq_some_iff.1 hp).1
  rcases Pool.noted_cases Jobs.handle (noteBatch k) s c with
    ⟨p, rfl, hnext⟩ | ⟨j, o, a, kont, rfl, hj, hnext⟩ | hnext
  · rw [sweepStep, hnext]
    exact h.frame (List.Subset.refl _) (List.getElem?_append_left hlt)
  · rw [sweepStep, hnext]
    by_cases hji : j = i
    · subst hji
      exact asked_call hi hj h
    · exact h.frame (noteBatch_subset j a o s.1.store) (List.getElem?_set_ne hji)
  · rw [sweepStep, hnext]
    exact h

/-- Of the intents `ids` each has been seen or is still `DETECTED`, and each answer has taken a whole batch off what
is left. -/
structure Backlog (options : Jobs.JobQueueOptions) (chains : List ChainClient) (batchSize : Option Nat) (k : Nat)
    (ids : List Id) (s : Swept) : Prop where
  asked : ∀ i < k, Asked options chains batchSize i s
  sweeps : ∀ batch ∈ s.2, batch.1 < k
  kept : ∀ id ∈ ids, s.2.Seen id ∨ id ∈ detected s.1.store.outer.intents
  left : unseen s.2 s.1.store.outer.intents = 0 ∨
    unseen s.2 s.1.store.outer.intents + batchSize.getD 100 * s.2.length ≤ ids.length

theorem steady_kept {ids : List Id} {batches : Batches} {db db' : Intent.Db} (h : Steady batches db db')
    (hkept : ∀ id ∈ ids, batches.Seen id ∨ id ∈ detected db) : ∀ id ∈ ids, batches.Seen id ∨ id ∈ detected db' := by
  intro id hid
  by_cases hseen : batches.Seen id
  · exact .inl hseen
  · exact .inr (h.2 id ((hkept id hid).resolve_left hseen) hseen)

/-- The limit of a sweep's query is the size of its batch. -/
theorem Asked.limit (h : Asked options chains batchSize i s) {job : Option Jobs.JobRecord}
    {state : Intent.IntentState} {limit : Nat} {kont : Jobs.Answer _ → Task Unit}
    (hcall : s.1.tasks[i]? = some (.call (Jobs.Call.outer job (Call.findByState state limit)) kont)) :
    state = .detected ∧ limit = batchSize.getD 100 := by
  cases h with
  | waiting h =>
    cases Option.some.inj (h.symm.trans hcall)
    exact ⟨rfl, rfl⟩
  | failed e h =>
    rw [h] at hcall
    cases hcall
  | answered hbatch p hp honly =>
    obtain rfl := Option.some.inj (hp.symm.trans hcall)
    exact honly.1.elim

theorem backlog_step {ids : List Id} (hs : Backlog options chains batchSize k ids s) (hc : Drains k s c) :
    Backlog options chains batchSize k ids (sweepStep k s c) := by
  have hasked : ∀ i < k, Asked options chains batchSize i (sweepStep k s c) := fun i hi => asked_step hi (hs.asked i hi)
  rcases Pool.noted_cases Jobs.handle (noteBatch k) s c with
    ⟨p, rfl, hnext⟩ | ⟨i, o, a, kont, rfl, hi, hnext⟩ | hnext
  · rw [sweepStep, hnext] at hasked ⊢
    exact ⟨hasked, hs.sweeps, hs.kept, hs.left⟩
  · have hpending : s.1.pending i = some a := by simp only [Pool.pending, hi]
    obtain ⟨hsteady, hyields⟩ := hc
    rw [Pool.next_store hpending] at hsteady
    rw [sweepStep, hnext] at hasked ⊢
    rcases noteBatch_handle k s.2 i a o s.1.store with hsame | ⟨job, state, limit, rfl, hik, hdb, hnoted⟩
    · rw [hsame] at hasked ⊢
      refine ⟨hasked, hs.sweeps, steady_kept hsteady hs.kept, ?_⟩
      have hle := hsteady.unseen_le
      have hleft := hs.left
      dsimp only at hleft ⊢
      omega
    · rw [hnoted] at hasked ⊢
      obtain ⟨rfl, rfl⟩ := (hs.asked i hik).limit hi
      refine ⟨hasked, ?_, ?_, ?_⟩
      · intro batch hbatch
        rcases List.mem_append.1 hbatch with hold | hnew
        · exact hs.sweeps batch hold
        · rw [List.mem_singleton.1 hnew]
          exact hik
      · intro id hid
        dsimp only
        rw [hdb]
        refine (hs.kept id hid).imp_left ?_
        rintro ⟨batch, hbatch, hmem⟩
        exact ⟨batch, List.mem_append_left _ hbatch, hmem⟩
      · have hanswered := (hyields _ hpending hik).answered i
        have hleft := hs.left
        dsimp only at hanswered hleft ⊢
        rw [hdb, List.length_append, List.length_singleton, Nat.mul_add_one]
        omega
  · rw [sweepStep, hnext] at hasked ⊢
    exact hs

/-! ## The sweeps together -/

/-- The intent is in the batch of a sweep that has returned: it has gone over its whole batch. -/
def Examined (k : Nat) (s : Swept) (id : Id) : Prop :=
  ∃ i < k, s.1.returned i = true ∧ ∃ batch, (i, batch) ∈ s.2 ∧ id ∈ batch

end

/-- `0xa` has 12 confirmations; the task `i` is answered so, with the id `uuid` for a row. -/
def answered (uuid : Id) (i : Nat) :
    Choice (Jobs.Call worker) Jobs.Answer Jobs.JsError Unit (Jobs.Oracle worker) :=
  .step i
    { outer := { intent := { now := 4 }, status := ⟨"0xa", .confirmed, 12, none, none, none⟩ }, uuid := uuid }

/-- A sweep of one intent, a worker that confirms it, and a sweep of one more. -/
def drained : Jobs.Schedule worker :=
  List.replicate 4 (answered "job" 0) ++ List.replicate 9 (answered "job" 2) ++
    List.replicate 4 (answered "job-2" 1)

end NexoraGateway.Worker
