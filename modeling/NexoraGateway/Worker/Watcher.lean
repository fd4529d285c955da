import NexoraGateway.Async.Runs
import NexoraGateway.Worker.Calls

/-!
# The watcher's subscriptions (`worker/src/deposit-watcher.ts:75-172`)

`start`, `refresh` and `stop` run without interruption from one `await` to the next; an activation that waits is
kept in `pending`. What a refresh does after its one `await` is a function of the intents that it was answered
(`refreshed`), and so is what it asks of the chain clients (`ClientCall`).

* `byChain`, `reconcile`, `refreshed` — `refresh` (:111).
* `stopped` — `stop` (:158).
* `Keeps` — the subscriptions that are live are those that are tracked.
* `subscribe_keeps`, `drop_keeps` — one step of the two loops.
-/
namespace NexoraGateway.Worker.Watcher

open Async Store
open Intent (PaymentIntent)

/-- A call on a chain client. The function that `watchDeposits` returns goes by its number. -/
inductive ClientCall where
  | watchDeposits (chainId address : String) (id : Nat)
  | unsubscribe (chainId address : String) (id : Nat)
  deriving DecidableEq

/-- The chain and the address that a call is about. -/
def ClientCall.place : ClientCall → String × String
  | watchDeposits chainId address _ | unsubscribe chainId address _ => (chainId, address)

/-- The fields of `DepositWatcher` that `start`, `refresh` and `stop` use, and the number of the next function that
a client returns. -/
structure DepositWatcher where
  subscriptions : Dict String (Dict String Nat) := .empty
  refreshTimer : Option Nat := none
  started : Bool := false
  nextId : Nat := 0

/-! ## One refresh -/

/-- Where an intent awaits a deposit, if it has been given a place. -/
def awaits (intent : PaymentIntent) : Option (String × String) :=
  match intent.depositChain, intent.depositAddress with
  | some chainId, some address => if address = "" ∨ chainId = "" then none else some (chainId, address)
  | _, _ => none

def addAwaited (byChain : Dict String (List String)) (intent : PaymentIntent) : Dict String (List String) :=
  match awaits intent with
  | none => byChain
  | some (chainId, address) =>
    let addresses := (byChain.get? chainId).getD []
    byChain.put (chainId, if address ∈ addresses then addresses else addresses ++ [address])

def byChain (awaiting : List PaymentIntent) : Dict String (List String) := awaiting.foldl addAwaited .empty

def wanted (awaiting : List PaymentIntent) (chainId : String) : List String :=
  ((byChain awaiting).get? chainId).getD []

/-- The loops over the addresses of one client: the map of its subscriptions, and the calls so far. -/
structure Reconciling where
  current : Dict String Nat
  nextId : Nat
  calls : List ClientCall

/-- One newly wanted address. -/
def subscribe (chainId : String) (s : Reconciling) (address : String) : Reconciling :=
  if (s.current.get? address).isSome then s
  else ⟨s.current.put (address, s.nextId), s.nextId + 1, s.calls ++ [.watchDeposits chainId address s.nextId]⟩

/-- One subscription, which may be wanted no longer. -/
def drop (chainId : String) (wanted : List String) (s : Reconciling) (entry : String × Nat) : Reconciling :=
  if entry.1 ∈ wanted then s
  else { s with current := s.current.erase entry.1, calls := s.calls ++ [.unsubscribe chainId entry.1 entry.2] }

/-- One client's subscriptions against the addresses wanted on its chain. -/
def reconcile (chainId : String) (wanted : List String) (s : Reconciling) : Reconciling :=
  let added := wanted.foldl (subscribe chainId) s
  added.current.rows.foldl (drop chainId wanted) added

/-- One client of a refresh. -/
def refreshClient (awaiting : List PaymentIntent) (s : DepositWatcher × List ClientCall) (client : ChainClient) :
    DepositWatcher × List ClientCall :=
  let current := (s.1.subscriptions.get? client.chainId).getD .empty
  let reconciled := reconcile client.chainId (wanted awaiting client.chainId) ⟨current, s.1.nextId, s.2⟩
  ({ s.1 with
      subscriptions := s.1.subscriptions.put (client.chainId, reconciled.current), nextId := reconciled.nextId },
    reconciled.calls)

/-- The rest of `refresh` after its `await`, with the calls that it makes. -/
def refreshed (chains : List ChainClient) (awaiting : List PaymentIntent) (w : DepositWatcher) :
    DepositWatcher × List ClientCall :=
  chains.foldl (refreshClient awaiting) (w, [])

/-- `stop`, with the calls that it makes. -/
def stopped (w : DepositWatcher) : DepositWatcher × List ClientCall :=
  ({ w with subscriptions := .empty, refreshTimer := none, started := false },
    w.subscriptions.rows.flatMap fun chain => chain.2.rows.map fun entry => .unsubscribe chain.1 entry.1 entry.2)

/-! ## The system -/

/-- A subscription with a chain client. -/
structure Subscription where
  chainId : String
  address : String
  id : Nat
  deriving DecidableEq

/-- What a call makes of the subscriptions that are live. -/
def call (live : List Subscription) : ClientCall → List Subscription
  | .watchDeposits chainId address id => live ++ [⟨chainId, address, id⟩]
  | .unsubscribe _ _ id => live.filter fun s => s.id ≠ id

/-- Where an activation waits: a refresh for the intents, by itself or within `start`; and `start` for the refresh,
which is done. -/
inductive Activation where
  | refresh
  | startRefresh
  | start
  deriving DecidableEq

/-- The watcher, the intervals that are set, the number of the next one, the activations that wait, the live
subscriptions, and the calls so far. -/
structure Runtime extends DepositWatcher where
  timers : List Nat := []
  nextTimer : Nat := 0
  pending : List Activation := []
  live : List Subscription := []
  calls : List ClientCall := []

/-- The clients are called. -/
def Runtime.perform (r : Runtime) (done : DepositWatcher × List ClientCall) : Runtime :=
  { r with toDepositWatcher := done.1, live := done.2.foldl call r.live, calls := r.calls ++ done.2 }

/-- `start` (:93). -/
def start (r : Runtime) : Runtime :=
  if r.started then r else { r with started := true, pending := r.pending ++ [.startRefresh] }

/-- An interval's callback is run. -/
def tick (timer : Nat) (r : Runtime) : Runtime :=
  if timer ∈ r.timers then { r with pending := r.pending ++ [.refresh] } else r

/-- The rest of `start` after its `await`. -/
def startTimer (r : Runtime) : Runtime :=
  { r with refreshTimer := some r.nextTimer, timers := r.timers ++ [r.nextTimer], nextTimer := r.nextTimer + 1 }

/-- Activation `i` goes on; a refresh that waits is answered the intents, or a rejection. -/
def resumed (chains : List ChainClient) (i : Nat) (answer : Option (List PaymentIntent)) (r : Runtime) : Runtime :=
  match r.pending[i]?, answer with
  | none, _ => r
  | some .start, _ => startTimer { r with pending := r.pending.eraseIdx i }
  | some _, none => { r with pending := r.pending.eraseIdx i }
  | some .refresh, some awaiting =>
    { r with pending := r.pending.eraseIdx i }.perform (refreshed chains awaiting r.toDepositWatcher)
  | some .startRefresh, some awaiting =>
    { r with pending := r.pending.set i .start }.perform (refreshed chains awaiting r.toDepositWatcher)

/-- `stop` (:158). -/
def stop (r : Runtime) : Runtime :=
  { r with timers := r.timers.filter fun timer => r.refreshTimer ≠ some timer }.perform (stopped r.toDepositWatcher)

inductive Step where
  | start
  | refresh
  | tick (timer : Nat)
  | resumed (i : Nat) (answer : Option (List PaymentIntent))
  | stop

def step (chains : List ChainClient) (r : Runtime) : Step → Runtime
  | .start => start r
  | .refresh => { r with pending := r.pending ++ [.refresh] }
  | .tick timer => tick timer r
  | .resumed i answer => resumed chains i answer r
  | .stop => stop r

/-! ## What is wanted -/

section
variable {chainId address : String}

theorem mem_addAwaited {m : Dict String (List String)} {intent : PaymentIntent} :
    address ∈ ((addAwaited m intent).get? chainId).getD [] ↔
      address ∈ (m.get? chainId).getD [] ∨ awaits intent = some (chainId, address) := by
  unfold addAwaited
  cases hawaits : awaits intent with
  | none => simp
  | some place =>
    obtain ⟨chainId', address'⟩ := place
    simp only [Dict.get?_put, Option.some.injEq, Prod.mk.injEq]
    by_cases hchain : chainId' = chainId
    · subst hchain
      simp only [if_true, Option.getD_some, true_and]
      by_cases hin : address' ∈ (m.get? chainId').getD []
      · rw [if_pos hin]
        exact ⟨.inl, fun h => h.elim id fun h => h ▸ hin⟩
      · rw [if_neg hin]
        simp [eq_comm]
    · simp [hchain]

theorem mem_wanted {awaiting : List PaymentIntent} :
    address ∈ wanted awaiting chainId ↔ ∃ intent ∈ awaiting, awaits intent = some (chainId, address) := by
  have hfold (m : Dict String (List String)) : address ∈ ((awaiting.foldl addAwaited m).get? chainId).getD [] ↔
      address ∈ (m.get? chainId).getD [] ∨ ∃ intent ∈ awaiting, awaits intent = some (chainId, address) := by
    induction awaiting generalizing m with
    | nil => simp
    | cons intent awaiting ih => simp [ih, mem_addAwaited, or_assoc]
  exact (hfold .empty).trans (by simp [Table.empty, Dict.get?, Table.find?])

end

/-! ## What is tracked -/

/-- The watcher has the subscription. -/
def Tracks (subscriptions : Dict String (Dict String Nat)) (s : Subscription) : Prop :=
  ∃ addresses, (s.chainId, addresses) ∈ subscriptions.rows ∧ (s.address, s.id) ∈ addresses.rows

/-- The live subscriptions are those that are tracked, and each has a number of its own. -/
structure Keeps (subscriptions : Dict String (Dict String Nat)) (nextId : Nat) (live : List Subscription) : Prop where
  tracked : ∀ s, s ∈ live ↔ Tracks subscriptions s
  ids : (live.map Subscription.id).Nodup
  below : ∀ s ∈ live, s.id < nextId

section
variable {m : Dict String (Dict String Nat)} {live : List Subscription} {chainId : String}

theorem tracks_put {current : Dict String Nat} {s : Subscription} : Tracks (m.put (chainId, current)) s ↔
    s.chainId = chainId ∧ (s.address, s.id) ∈ current.rows ∨ s.chainId ≠ chainId ∧ Tracks m s := by
  simp only [Tracks, Table.mem_put]
  constructor
  · rintro ⟨addresses, hput | ⟨hmem, hne⟩, hin⟩
    · injection hput with hchain haddresses
      exact .inl ⟨hchain, haddresses ▸ hin⟩
    · exact .inr ⟨hne, addresses, hmem, hin⟩
  · rintro (⟨hchain, hin⟩ | ⟨hne, addresses, hmem, hin⟩)
    · exact ⟨current, .inl (by rw [hchain]), hin⟩
    · exact ⟨addresses, .inr ⟨hmem, hne⟩, hin⟩

theorem tracks_unique {s s' : Subscription} (h : Tracks m s) (h' : Tracks m s') (hchain : s.chainId = s'.chainId)
    (haddress : s.address = s'.address) : s = s' := by
  obtain ⟨addresses, hmem, hin⟩ := h
  obtain ⟨addresses', hmem', hin'⟩ := h'
  obtain rfl : addresses = addresses' := (Prod.ext_iff.1 (Table.eq_of_key hmem hmem' hchain)).2
  have hid : s.id = s'.id := (Prod.ext_iff.1 (Table.eq_of_key hin hin' haddress)).2
  cases s
  cases s'
  simp_all

theorem Keeps.places {nextId : Nat} (h : Keeps m nextId live) : (live.map fun s => (s.chainId, s.address)).Nodup := by
  refine (List.nodup_map_iff_inj_on (List.Nodup.of_map _ h.ids)).2 fun s hs s' hs' hplace => ?_
  injection hplace with hchain haddress
  exact tracks_unique ((h.tracked s).1 hs) ((h.tracked s').1 hs') hchain haddress

end

/-! ## One step of the loops -/

section
variable {m : Dict String (Dict String Nat)} {live : List Subscription} {chainId : String} {s : Reconciling}

/-- A new subscription. -/
theorem subscribe_keeps (h : Keeps (m.put (chainId, s.current)) s.nextId (s.calls.foldl call live)) (address : String) :
    Keeps (m.put (chainId, (subscribe chainId s address).current)) (subscribe chainId s address).nextId
      ((subscribe chainId s address).calls.foldl call live) := by
  unfold subscribe
  split
  · exact h
  · rename_i hnew
    rw [List.foldl_append]
    generalize s.calls.foldl call live = live at h
    have hold {id : Nat} (hin : (address, id) ∈ s.current.rows) : False := hnew (by rw [Dict.get?_eq_some.2 hin]; rfl)
    refine ⟨fun x => ?_, ?_, ?_⟩
    · simp only [List.foldl_cons, List.foldl_nil, call, List.mem_append, List.mem_singleton, h.tracked, tracks_put,
        Table.mem_put, Prod.mk.injEq]
      constructor
      · rintro ((⟨hchain, hin⟩ | hother) | rfl)
        · exact .inl ⟨hchain, .inr ⟨hin, fun haddress => hold (haddress ▸ hin)⟩⟩
        · exact .inr hother
        · exact .inl ⟨rfl, .inl ⟨rfl, rfl⟩⟩
      · rintro (⟨hchain, ⟨haddress, hid⟩ | ⟨hin, -⟩⟩ | hother)
        · exact .inr (by rw [← hchain, ← haddress, ← hid])
        · exact .inl (.inl ⟨hchain, hin⟩)
        · exact .inl (.inr hother)
    · simp only [List.foldl_cons, List.foldl_nil, call, List.map_append, List.map_cons, List.map_nil]
      refine List.nodup_append.2 ⟨h.ids, List.nodup_singleton _, ?_⟩
      intro id hid id' hid' heq
      obtain ⟨x, hx, rfl⟩ := List.mem_map.1 hid
      rw [List.mem_singleton.1 hid'] at heq
      exact absurd (h.below x hx) (by omega)
    · intro x hx
      rcases List.mem_append.1 hx with hx | hx
      · exact Nat.lt_succ_of_lt (h.below x hx)
      · rw [List.mem_singleton.1 hx]
        exact Nat.lt_succ_self _

/-- A subscription is given up. -/
theorem drop_keeps (h : Keeps (m.put (chainId, s.current)) s.nextId (s.calls.foldl call live)) {entry : String × Nat}
    (hentry : entry ∈ s.current.rows) (wanted : List String) :
    Keeps (m.put (chainId, (drop chainId wanted s entry).current)) (drop chainId wanted s entry).nextId
      ((drop chainId wanted s entry).calls.foldl call live) := by
  unfold drop
  split
  · exact h
  · rw [List.foldl_append]
    generalize s.calls.foldl call live = live at h
    have hdropped : ⟨chainId, entry.1, entry.2⟩ ∈ live := (h.tracked _).2 (tracks_put.2 (.inl ⟨rfl, hentry⟩))
    simp only [List.foldl_cons, List.foldl_nil, call]
    refine ⟨fun x => ?_, h.ids.sublist (List.filter_sublist.map _), fun x hx => h.below x (List.mem_filter.1 hx).1⟩
    have hsame (hx : x ∈ live) (hid : x.id = entry.2) : x = ⟨chainId, entry.1, entry.2⟩ :=
      List.inj_on_of_nodup_map h.ids hx hdropped hid
    rw [List.mem_filter, tracks_put, Table.mem_erase, decide_eq_true_eq]
    constructor
    · rintro ⟨hx, hid⟩
      rcases tracks_put.1 ((h.tracked x).1 hx) with ⟨hchain, hin⟩ | hother
      · refine .inl ⟨hchain, hin, fun haddress => hid ?_⟩
        exact (Prod.ext_iff.1 (Table.eq_of_key hin hentry haddress)).2
      · exact .inr hother
    · rintro (⟨hchain, hin, hne⟩ | hother)
      · have hx : x ∈ live := (h.tracked x).2 (tracks_put.2 (.inl ⟨hchain, hin⟩))
        exact ⟨hx, fun hid => hne (by rw [hsame hx hid])⟩
      · have hx : x ∈ live := (h.tracked x).2 (tracks_put.2 (.inr hother))
        exact ⟨hx, fun hid => hother.1 (by rw [hsame hx hid])⟩

end

/-! ## One client -/

section
variable {m : Dict String (Dict String Nat)} {live : List Subscription} {chainId : String} {s : Reconciling}

/-- What the first loop does to a client's map, and what it calls. -/
structure Added (chainId : String) (addresses : List String) (s s' : Reconciling) : Prop where
  kept : ∀ entry ∈ s.current.rows, entry ∈ s'.current.rows
  new : ∀ entry ∈ s'.current.rows, entry ∈ s.current.rows ∨ entry.1 ∈ addresses
  present : ∀ address ∈ addresses, ∃ id, (address, id) ∈ s'.current.rows
  calls : ∃ calls, s'.calls = s.calls ++ calls ∧ ∀ x ∈ calls, ∃ address ∈ addresses,
    x.place = (chainId, address) ∧ ∀ id, (address, id) ∉ s.current.rows

theorem subscribe_added (chainId : String) (s : Reconciling) (address : String) :
    Added chainId [address] s (subscribe chainId s address) := by
  unfold subscribe
  split
  · rename_i hsome
    obtain ⟨id, hid⟩ := Option.isSome_iff_exists.1 hsome
    refine ⟨fun entry h => h, fun entry h => .inl h, ?_, [], (List.append_nil _).symm,
      fun x hx => absurd hx List.not_mem_nil⟩
    intro address' haddress
    rw [List.mem_singleton.1 haddress]
    exact ⟨id, Dict.get?_eq_some.1 hid⟩
  · rename_i hnone
    have hnew (id : Nat) : (address, id) ∉ s.current.rows := fun hin => hnone (by rw [Dict.get?_eq_some.2 hin]; rfl)
    refine ⟨fun entry h => ?_, fun entry h => ?_, ?_, _, rfl, ?_⟩
    · obtain ⟨address', id⟩ := entry
      refine Table.mem_put.2 (.inr ⟨h, ?_⟩)
      rintro rfl
      exact hnew id h
    · rcases Table.mem_put.1 h with rfl | ⟨h, -⟩
      · exact .inr List.mem_cons_self
      · exact .inl h
    · intro address' haddress
      rw [List.mem_singleton.1 haddress]
      exact ⟨s.nextId, Table.mem_put.2 (.inl rfl)⟩
    · intro x hx
      rw [List.mem_singleton.1 hx]
      exact ⟨address, List.mem_cons_self, rfl, hnew⟩

theorem foldl_added (chainId : String) (addresses : List String) (s : Reconciling) :
    Added chainId addresses s (addresses.foldl (subscribe chainId) s) := by
  induction addresses generalizing s with
  | nil => exact ⟨fun entry h => h, fun entry h => .inl h, nofun, [], (List.append_nil _).symm, nofun⟩
  | cons address addresses ih =>
    have hfirst := subscribe_added chainId s address
    have hrest := ih (subscribe chainId s address)
    rw [List.foldl_cons]
    refine ⟨fun entry h => hrest.kept entry (hfirst.kept entry h), fun entry h => ?_, fun address' haddress => ?_, ?_⟩
    · rcases hrest.new entry h with h | h
      · rcases hfirst.new entry h with h | h
        · exact .inl h
        · exact .inr (List.mem_singleton.1 h ▸ List.mem_cons_self)
      · exact .inr (List.mem_cons_of_mem _ h)
    · rcases List.mem_cons.1 haddress with rfl | haddress
      · obtain ⟨id, hid⟩ := hfirst.present address' List.mem_cons_self
        exact ⟨id, hrest.kept _ hid⟩
      · exact hrest.present address' haddress
    · obtain ⟨calls, hcalls, hplace⟩ := hfirst.calls
      obtain ⟨calls', hcalls', hplace'⟩ := hrest.calls
      refine ⟨calls ++ calls', by rw [hcalls', hcalls, List.append_assoc], fun x hx => ?_⟩
      rcases List.mem_append.1 hx with hx | hx
      · obtain ⟨address', haddress, hx⟩ := hplace x hx
        exact ⟨address', List.mem_singleton.1 haddress ▸ List.mem_cons_self, hx⟩
      · obtain ⟨address', haddress, hx, hnew⟩ := hplace' x hx
        exact ⟨address', List.mem_cons_of_mem _ haddress, hx, fun id hid => hnew id (hfirst.kept _ hid)⟩

/-- What the second loop leaves of a client's map, and what it calls. -/
theorem foldl_drop (chainId : String) (wanted : List String) (rows : List (String × Nat)) (s : Reconciling) :
    let s' := rows.foldl (drop chainId wanted) s
    (∀ entry, entry ∈ s'.current.rows ↔ entry ∈ s.current.rows ∧ (entry.1 ∈ wanted ∨ entry.1 ∉ rows.map Prod.fst)) ∧
    ∃ calls, s'.calls = s.calls ++ calls ∧ ∀ x ∈ calls, ∃ address, x.place = (chainId, address) ∧ address ∉ wanted := by
  induction rows generalizing s with
  | nil => exact ⟨fun entry => by simp, [], (List.append_nil _).symm, nofun⟩
  | cons row rows ih =>
    obtain ⟨hentries, calls, hcalls, hplace⟩ := ih (drop chainId wanted s row)
    rw [List.foldl_cons]
    by_cases hwanted : row.1 ∈ wanted
    · have hdrop : drop chainId wanted s row = s := if_pos hwanted
      rw [hdrop] at hentries hcalls ⊢
      refine ⟨fun entry => (hentries entry).trans ?_, calls, hcalls, hplace⟩
      by_cases hrow : entry.1 = row.1
      · simp [hrow, hwanted]
      · simp [hrow]
    · have hdrop : drop chainId wanted s row =
          { s with current := s.current.erase row.1, calls := s.calls ++ [.unsubscribe chainId row.1 row.2] } :=
        if_neg hwanted
      rw [hdrop] at hentries hcalls ⊢
      refine ⟨fun entry => (hentries entry).trans ?_, .unsubscribe chainId row.1 row.2 :: calls, by simpa using hcalls,
        fun x hx => ?_⟩
      · simp only [Table.mem_erase, List.map_cons, List.mem_cons, not_or]
        by_cases hrow : entry.1 = row.1
        · simp [hrow, hwanted]
        · simp [hrow]
      · rcases List.mem_cons.1 hx with rfl | hx
        · exact ⟨row.1, rfl, hwanted⟩
        · exact hplace x hx

/-- **What one client comes to**: the wanted addresses and no others, with the subscriptions it had for them, and
no call for these. -/
structure Reconciled (chainId : String) (wanted : List String) (s s' : Reconciling) : Prop where
  present : ∀ address, (∃ id, (address, id) ∈ s'.current.rows) ↔ address ∈ wanted
  kept : ∀ address id, (address, id) ∈ s.current.rows → address ∈ wanted → (address, id) ∈ s'.current.rows
  calls : ∃ calls, s'.calls = s.calls ++ calls ∧ ∀ x ∈ calls, ∃ address, x.place = (chainId, address) ∧
    ∀ id, (address, id) ∈ s.current.rows → address ∉ wanted

theorem reconcile_reconciled (chainId : String) (wanted : List String) (s : Reconciling) :
    Reconciled chainId wanted s (reconcile chainId wanted s) := by
  have hadded := foldl_added chainId wanted s
  unfold reconcile
  dsimp only
  generalize wanted.foldl (subscribe chainId) s = added at hadded
  obtain ⟨hentries, calls, hcalls, hplace⟩ := foldl_drop chainId wanted added.current.rows added
  have hmem (address : String) (id : Nat) :
      (address, id) ∈ (added.current.rows.foldl (drop chainId wanted) added).current.rows ↔
        (address, id) ∈ added.current.rows ∧ address ∈ wanted := by
    rw [hentries]
    refine and_congr_right fun hin => ⟨fun h => h.resolve_right fun hnot => hnot ?_, .inl⟩
    exact List.mem_map_of_mem (f := Prod.fst) hin
  obtain ⟨calls', hcalls', hplace'⟩ := hadded.calls
  refine ⟨fun address => ⟨fun ⟨id, hid⟩ => ((hmem address id).1 hid).2, fun haddress => ?_⟩,
    fun address id hid haddress => (hmem address id).2 ⟨hadded.kept _ hid, haddress⟩,
    calls' ++ calls, by rw [hcalls, hcalls', List.append_assoc], fun x hx => ?_⟩
  · obtain ⟨id, hid⟩ := hadded.present address haddress
    exact ⟨id, (hmem address id).2 ⟨hid, haddress⟩⟩
  · rcases List.mem_append.1 hx with hx | hx
    · obtain ⟨address, -, hx, hnew⟩ := hplace' x hx
      exact ⟨address, hx, fun id hid => absurd hid (hnew id)⟩
    · obtain ⟨address, hx, haddress⟩ := hplace x hx
      exact ⟨address, hx, fun _ _ => haddress⟩

theorem reconcile_keeps (h : Keeps (m.put (chainId, s.current)) s.nextId (s.calls.foldl call live))
    (wanted : List String) :
    Keeps (m.put (chainId, (reconcile chainId wanted s).current)) (reconcile chainId wanted s).nextId
      ((reconcile chainId wanted s).calls.foldl call live) := by
  have hadded : Keeps (m.put (chainId, (wanted.foldl (subscribe chainId) s).current))
      (wanted.foldl (subscribe chainId) s).nextId ((wanted.foldl (subscribe chainId) s).calls.foldl call live) :=
    Runs.exec_inv' (I := fun s : Reconciling => Keeps (m.put (chainId, s.current)) s.nextId (s.calls.foldl call live))
      (fun s address hs => subscribe_keeps hs address) h wanted
  unfold reconcile
  dsimp only
  generalize wanted.foldl (subscribe chainId) s = added at hadded
  -- what is still to be looked at is still in the map
  have hloop (rows : List (String × Nat)) (hnodup : (rows.map Prod.fst).Nodup) (t : Reconciling)
      (hrows : ∀ row ∈ rows, row ∈ t.current.rows)
      (ht : Keeps (m.put (chainId, t.current)) t.nextId (t.calls.foldl call live)) :
      Keeps (m.put (chainId, (rows.foldl (drop chainId wanted) t).current)) (rows.foldl (drop chainId wanted) t).nextId
        ((rows.foldl (drop chainId wanted) t).calls.foldl call live) := by
    induction rows generalizing t with
    | nil => exact ht
    | cons row rows ih =>
      obtain ⟨hrow, hnodup⟩ := List.nodup_cons.1 hnodup
      refine ih hnodup (drop chainId wanted t row) (fun row' hrow' => ?_) ?_
      · have hmem := hrows row' (List.mem_cons_of_mem _ hrow')
        unfold drop
        split
        · exact hmem
        · exact Table.mem_erase.2 ⟨hmem, fun hkey => hrow (hkey ▸ List.mem_map_of_mem hrow')⟩
      · exact drop_keeps ht (hrows row List.mem_cons_self) wanted
  exact hloop added.current.rows added.current.nodup added (fun row hrow => hrow) hadded

end

/-! ## One refresh -/

section
variable {awaiting : List PaymentIntent} {live : List Subscription}

/-- The refresh of some clients: each has subscriptions for what is wanted on its chain, no other has changed, and
no call was for a place that was tracked and is wanted. -/
structure Refreshed (chains : List String) (awaiting : List PaymentIntent)
    (s s' : DepositWatcher × List ClientCall) : Prop where
  present : ∀ chainId ∈ chains, ∀ address,
    (∃ id, Tracks s'.1.subscriptions ⟨chainId, address, id⟩) ↔ address ∈ wanted awaiting chainId
  kept : ∀ x : Subscription, x.chainId ∈ chains → x.address ∈ wanted awaiting x.chainId →
    Tracks s.1.subscriptions x → Tracks s'.1.subscriptions x
  others : ∀ x : Subscription, x.chainId ∉ chains → (Tracks s'.1.subscriptions x ↔ Tracks s.1.subscriptions x)
  calls : ∃ calls, s'.2 = s.2 ++ calls ∧ ∀ x ∈ calls, ∃ chainId ∈ chains, ∃ address, x.place = (chainId, address) ∧
    ∀ id, Tracks s.1.subscriptions ⟨chainId, address, id⟩ → address ∉ wanted awaiting chainId

/-- What a client's map was. -/
theorem tracks_current {m : Dict String (Dict String Nat)} {chainId address : String} {id : Nat} :
    (address, id) ∈ ((m.get? chainId).getD .empty).rows ↔ Tracks m ⟨chainId, address, id⟩ := by
  cases hget : m.get? chainId with
  | none =>
    refine iff_of_false List.not_mem_nil fun ⟨addresses, hmem, _⟩ => ?_
    rw [Dict.get?_eq_some.2 hmem] at hget
    cases hget
  | some addresses =>
    have hmem := Dict.get?_eq_some.1 hget
    refine ⟨fun hin => ⟨addresses, hmem, hin⟩, fun ⟨addresses', hmem', hin⟩ => ?_⟩
    rw [Dict.get?_eq_some.2 hmem'] at hget
    cases hget
    exact hin

theorem refreshClient_refreshed (s : DepositWatcher × List ClientCall) (client : ChainClient) :
    Refreshed [client.chainId] awaiting s (refreshClient awaiting s client) := by
  have hreconciled := reconcile_reconciled client.chainId (wanted awaiting client.chainId)
    ⟨(s.1.subscriptions.get? client.chainId).getD .empty, s.1.nextId, s.2⟩
  unfold refreshClient
  dsimp only
  generalize reconcile client.chainId (wanted awaiting client.chainId)
    ⟨(s.1.subscriptions.get? client.chainId).getD .empty, s.1.nextId, s.2⟩ = s' at hreconciled
  refine ⟨?_, ?_, ?_, ?_⟩
  · intro chainId hchain address
    obtain rfl := List.mem_singleton.1 hchain
    rw [← hreconciled.present]
    simp [tracks_put]
  · intro x hchain hwanted hx
    have hchain := List.mem_singleton.1 hchain
    rw [hchain] at hwanted
    refine tracks_put.2 (.inl ⟨hchain, hreconciled.kept x.address x.id (tracks_current.2 ?_) hwanted⟩)
    rw [← hchain]
    exact hx
  · intro x hx
    have hne : x.chainId ≠ client.chainId := by simpa using hx
    simp [tracks_put, hne]
  · obtain ⟨calls, hcalls, hplace⟩ := hreconciled.calls
    refine ⟨calls, hcalls, fun x hx => ?_⟩
    obtain ⟨address, hx, hunwanted⟩ := hplace x hx
    exact ⟨client.chainId, List.mem_cons_self, address, hx, fun id hid => hunwanted id (tracks_current.2 hid)⟩

theorem foldl_refreshed {chains : List ChainClient} (hchains : (chains.map ChainClient.chainId).Nodup)
    (s : DepositWatcher × List ClientCall) :
    Refreshed (chains.map ChainClient.chainId) awaiting s (chains.foldl (refreshClient awaiting) s) := by
  induction chains generalizing s with
  | nil => exact ⟨nofun, nofun, fun x _ => Iff.rfl, [], (List.append_nil _).symm, nofun⟩
  | cons client chains ih =>
    obtain ⟨hnew, hchains⟩ := List.nodup_cons.1 hchains
    have hfirst : Refreshed [client.chainId] awaiting s (refreshClient awaiting s client) :=
      refreshClient_refreshed s client
    have hrest := ih hchains (refreshClient awaiting s client)
    rw [List.foldl_cons, List.map_cons]
    refine ⟨?_, ?_, ?_, ?_⟩
    · intro chainId hchain address
      rcases List.mem_cons.1 hchain with rfl | hchain
      · rw [← hfirst.present client.chainId List.mem_cons_self address]
        exact exists_congr fun id => hrest.others _ hnew
      · exact hrest.present chainId hchain address
    · intro x hchain hwanted hx
      rcases List.mem_cons.1 hchain with hclient | hchain
      · exact (hrest.others x (hclient ▸ hnew)).2 (hfirst.kept x (List.mem_singleton.2 hclient) hwanted hx)
      · refine hrest.kept x hchain hwanted ((hfirst.others x ?_).2 hx)
        simp only [List.mem_singleton]
        intro hclient
        exact hnew (hclient ▸ hchain)
    · intro x hx
      obtain ⟨hclient, hrestx⟩ := not_or.1 (mt List.mem_cons.2 hx)
      exact (hrest.others x hrestx).trans (hfirst.others x (by simpa using hclient))
    · obtain ⟨calls, hcalls, hplace⟩ := hfirst.calls
      obtain ⟨calls', hcalls', hplace'⟩ := hrest.calls
      refine ⟨calls ++ calls', by rw [hcalls', hcalls, List.append_assoc], fun x hx => ?_⟩
      rcases List.mem_append.1 hx with hx | hx
      · obtain ⟨chainId, hchain, hx⟩ := hplace x hx
        exact ⟨chainId, List.mem_singleton.1 hchain ▸ List.mem_cons_self, hx⟩
      · obtain ⟨chainId, hchain, address, hx, hunwanted⟩ := hplace' x hx
        refine ⟨chainId, List.mem_cons_of_mem _ hchain, address, hx, fun id hid => hunwanted id ?_⟩
        -- the clients before have left this one's map alone
        refine (hfirst.others _ ?_).2 hid
        simp only [List.mem_singleton]
        rintro rfl
        exact hnew hchain

theorem refreshClient_keeps {s : DepositWatcher × List ClientCall}
    (h : Keeps s.1.subscriptions s.1.nextId (s.2.foldl call live)) (client : ChainClient) :
    Keeps (refreshClient awaiting s client).1.subscriptions (refreshClient awaiting s client).1.nextId
      ((refreshClient awaiting s client).2.foldl call live) := by
  refine reconcile_keeps ?_ _
  refine ⟨fun x => (h.tracked x).trans ?_, h.ids, h.below⟩
  rw [tracks_put, tracks_current]
  by_cases hchain : x.chainId = client.chainId
  · simp [← hchain]
  · simp [hchain]

end

/-! ## Runs -/

/-- The live subscriptions are those that are tracked, on the chains that there are clients for. -/
structure Consistent (chains : List ChainClient) (r : Runtime) : Prop where
  keeps : Keeps r.subscriptions r.nextId r.live
  configured : ∀ s ∈ r.live, s.chainId ∈ chains.map ChainClient.chainId

/-- What is left when subscriptions are given up. -/
theorem mem_foldl_unsubscribe {calls : List ClientCall}
    (hcalls : ∀ x ∈ calls, ∃ chainId address id, x = .unsubscribe chainId address id) {live : List Subscription}
    {s : Subscription} (hs : s ∈ calls.foldl call live) :
    s ∈ live ∧ ∀ chainId address, .unsubscribe chainId address s.id ∉ calls := by
  induction calls generalizing live with
  | nil => exact ⟨hs, fun _ _ => List.not_mem_nil⟩
  | cons x calls ih =>
    obtain ⟨hlive, hids⟩ := ih (fun y hy => hcalls y (List.mem_cons_of_mem _ hy)) hs
    obtain ⟨chainId, address, id, rfl⟩ := hcalls x List.mem_cons_self
    obtain ⟨hlive, hid⟩ := List.mem_filter.1 hlive
    refine ⟨hlive, fun chainId' address' hmem => ?_⟩
    rcases List.mem_cons.1 hmem with hsame | hmem
    · injection hsame with _ _ hsame
      exact absurd hsame (by simpa using hid)
    · exact hids chainId' address' hmem

theorem fresh_keeps : Keeps (.empty : Dict String (Dict String Nat)) 0 [] where
  tracked _ := iff_of_false List.not_mem_nil fun ⟨_, hmem, _⟩ => absurd hmem List.not_mem_nil
  ids := List.nodup_nil
  below _ h := absurd h List.not_mem_nil

theorem fresh_consistent (chains : List ChainClient) : Consistent chains {} where
  keeps := fresh_keeps
  configured _ h := absurd h List.not_mem_nil

section
variable {chains : List ChainClient} {r : Runtime}

theorem refreshed_keeps (h : Keeps r.subscriptions r.nextId r.live) (awaiting : List PaymentIntent) :
    Keeps (refreshed chains awaiting r.toDepositWatcher).1.subscriptions
      (refreshed chains awaiting r.toDepositWatcher).1.nextId
      ((refreshed chains awaiting r.toDepositWatcher).2.foldl call r.live) :=
  Runs.exec_inv' (I := fun s : DepositWatcher × List ClientCall =>
      Keeps s.1.subscriptions s.1.nextId (s.2.foldl call r.live))
    (fun _ client hs => refreshClient_keeps hs client) h chains

/-- `stop` gives up every subscription. -/
theorem stop_live (h : Keeps r.subscriptions r.nextId r.live) : (stop r).live = [] := by
  refine List.eq_nil_iff_forall_not_mem.2 fun s hs => ?_
  have hcalls : ∀ x ∈ (stopped r.toDepositWatcher).2, ∃ chainId address id, x = .unsubscribe chainId address id := by
    intro x hx
    obtain ⟨chain, -, hx⟩ := List.mem_flatMap.1 hx
    obtain ⟨entry, -, rfl⟩ := List.mem_map.1 hx
    exact ⟨_, _, _, rfl⟩
  obtain ⟨hlive, hids⟩ := mem_foldl_unsubscribe hcalls hs
  obtain ⟨addresses, hmem, hin⟩ := (h.tracked s).1 hlive
  exact hids s.chainId s.address (List.mem_flatMap.2 ⟨_, hmem, List.mem_map.2 ⟨_, hin, rfl⟩⟩)

theorem stop_keeps (h : Keeps r.subscriptions r.nextId r.live) :
    Keeps (stop r).subscriptions (stop r).nextId (stop r).live := by
  rw [stop_live h]
  refine ⟨fun s => iff_of_false List.not_mem_nil ?_, List.nodup_nil, nofun⟩
  rintro ⟨_, hmem, _⟩
  exact absurd hmem List.not_mem_nil

theorem resumed_keeps (h : Keeps r.subscriptions r.nextId r.live) (i : Nat) (answer : Option (List PaymentIntent)) :
    Keeps (resumed chains i answer r).subscriptions (resumed chains i answer r).nextId
      (resumed chains i answer r).live := by
  unfold resumed
  split
  · exact h
  · exact h
  · exact h
  · exact refreshed_keeps (r := { r with pending := r.pending.eraseIdx i }) h _
  · exact refreshed_keeps (r := { r with pending := r.pending.set i .start }) h _

variable (hchains : (chains.map ChainClient.chainId).Nodup)
include hchains

theorem refreshed_consistent (h : Consistent chains r) (awaiting : List PaymentIntent) :
    Consistent chains (r.perform (refreshed chains awaiting r.toDepositWatcher)) := by
  have hkeeps := @refreshed_keeps chains r h.keeps awaiting
  refine ⟨hkeeps, fun s hs => ?_⟩
  by_contra hchain
  have htracks := ((foldl_refreshed hchains _).others s hchain).1 ((hkeeps.tracked s).1 hs)
  exact hchain (h.configured s ((h.keeps.tracked s).2 htracks))

theorem step_consistent (h : Consistent chains r) (x : Step) : Consistent chains (step chains r x) := by
  cases x with
  | start =>
    simp only [step, start]
    split <;> exact ⟨h.keeps, h.configured⟩
  | refresh => exact ⟨h.keeps, h.configured⟩
  | tick timer =>
    simp only [step, tick]
    split <;> exact ⟨h.keeps, h.configured⟩
  | resumed i answer =>
    simp only [step, resumed]
    split
    · exact h
    · exact ⟨h.keeps, h.configured⟩
    · exact ⟨h.keeps, h.configured⟩
    · exact refreshed_consistent hchains (r := { r with pending := r.pending.eraseIdx i }) ⟨h.keeps, h.configured⟩ _
    · exact refreshed_consistent hchains (r := { r with pending := r.pending.set i .start }) ⟨h.keeps, h.configured⟩ _
  | stop => exact ⟨stop_keeps h.keeps, by simp [step, stop_live h.keeps]⟩

/-- What a refresh leaves, and what it lets alone. -/
theorem refresh_step (h : Consistent chains r) {i : Nat} {activation : Activation}
    (hi : r.pending[i]? = some activation) (hrefresh : activation ≠ .start) (awaiting : List PaymentIntent) :
    let r' := step chains r (.resumed i (some awaiting))
    (∀ chainId address, (∃ id, ⟨chainId, address, id⟩ ∈ r'.live) ↔
      chainId ∈ chains.map ChainClient.chainId ∧ address ∈ wanted awaiting chainId) ∧
    ∃ calls, r'.calls = r.calls ++ calls ∧ ∀ s ∈ r.live, (∃ id, ⟨s.chainId, s.address, id⟩ ∈ r'.live) →
      s ∈ r'.live ∧ ∀ x ∈ calls, x.place ≠ (s.chainId, s.address) := by
  intro r'
  have hr' : Consistent chains r' := step_consistent hchains h _
  have hdone : r'.toDepositWatcher = (refreshed chains awaiting r.toDepositWatcher).1 ∧
      r'.calls = r.calls ++ (refreshed chains awaiting r.toDepositWatcher).2 := by
    cases activation with
    | refresh | startRefresh => simp [r', step, resumed, hi, Runtime.perform]
    | start => exact absurd rfl hrefresh
  have hrefreshed : Refreshed (chains.map ChainClient.chainId) awaiting (r.toDepositWatcher, [])
      (refreshed chains awaiting r.toDepositWatcher) := foldl_refreshed hchains _
  have hpresent (chainId address : String) : (∃ id, ⟨chainId, address, id⟩ ∈ r'.live) ↔
      chainId ∈ chains.map ChainClient.chainId ∧ address ∈ wanted awaiting chainId := by
    simp only [hr'.keeps.tracked]
    constructor
    · rintro ⟨id, hid⟩
      have hchain := hr'.configured _ ((hr'.keeps.tracked _).2 hid)
      rw [hdone.1] at hid
      exact ⟨hchain, (hrefreshed.present chainId hchain address).1 ⟨id, hid⟩⟩
    · rintro ⟨hchain, hwanted⟩
      rw [hdone.1]
      exact (hrefreshed.present chainId hchain address).2 hwanted
  refine ⟨hpresent, _, hdone.2, fun s hs hafter => ?_⟩
  obtain ⟨hchain, hwanted⟩ := (hpresent s.chainId s.address).1 hafter
  have htracks := (h.keeps.tracked s).1 hs
  constructor
  · rw [hr'.keeps.tracked, hdone.1]
    exact hrefreshed.kept s hchain hwanted htracks
  · intro x hx hplace
    obtain ⟨calls, hcalls, hplaces⟩ := hrefreshed.calls
    rw [hcalls] at hx
    obtain ⟨chainId, -, address, hx, hunwanted⟩ := hplaces x hx
    obtain ⟨rfl, rfl⟩ := Prod.mk.injEq .. ▸ hplace.symm.trans hx
    exact hunwanted s.id htracks hwanted

end

/-- **What is subscribed**: in every run of `start`, `refresh` and `stop` over clients with distinct chains, the
live subscriptions are those that are tracked, no two for one chain and address; after a refresh they are for what
the intents that it was answered await on these chains, and it has made no call for a place that is subscribed
before and after. -/
theorem subscriptions_tracked (chains : List ChainClient) (hchains : (chains.map ChainClient.chainId).Nodup)
    (xs : List Step) :
    let r := Runs.exec (step chains) {} xs
    (∀ s, s ∈ r.live ↔ Tracks r.subscriptions s) ∧ (r.live.map fun s => (s.chainId, s.address)).Nodup ∧
    ∀ i activation awaiting, r.pending[i]? = some activation → activation ≠ .start →
      let r' := step chains r (.resumed i (some awaiting))
      (∀ chainId address, (∃ id, ⟨chainId, address, id⟩ ∈ r'.live) ↔
        chainId ∈ chains.map ChainClient.chainId ∧ ∃ intent ∈ awaiting, awaits intent = some (chainId, address)) ∧
      ∃ calls, r'.calls = r.calls ++ calls ∧ ∀ s ∈ r.live, (∃ id, ⟨s.chainId, s.address, id⟩ ∈ r'.live) →
        s ∈ r'.live ∧ ∀ x ∈ calls, x.place ≠ (s.chainId, s.address) := by
  intro r
  have h : Consistent chains r :=
    Runs.exec_inv' (I := Consistent chains) (fun r x hr => step_consistent hchains hr x) (fresh_consistent chains) xs
  refine ⟨h.keeps.tracked, h.keeps.places, fun i activation awaiting hi hrefresh => ?_⟩
  obtain ⟨hpresent, hcalls⟩ := refresh_step hchains h hi hrefresh awaiting
  exact ⟨fun chainId address => (hpresent chainId address).trans (and_congr_right fun _ => mem_wanted), hcalls⟩

/-- Clients of two chains. -/
def clients : List ChainClient := [⟨"1", 12⟩, ⟨"8453", 12⟩]

/-- An intent that awaits a deposit. -/
def quoted (id chainId address : String) : PaymentIntent where
  id := id
  merchantId := "m"
  orderRef := "o"
  targetAmount := 100
  targetAsset := "USDC"
  targetChain := "1"
  acceptedAssets := ["USDC"]
  depositChain := some chainId
  depositAddress := some address
  state := .quoted
  createdAt := 0
  updatedAt := 0

/-- Two refreshes overlap, and the one that was asked later is answered first. -/
def overlapping : List Step :=
  [.start, .refresh, .resumed 1 (some [quoted "a" "1" "0xA", quoted "b" "8453" "0xB"]), .refresh]

/-- The rule at the end of that run, where the first refresh is answered what was awaited before. -/
theorem subscriptions_tracked_overlapping :
    let r := Runs.exec (step clients) {} overlapping
    let r' := step clients r (.resumed 0 (some [quoted "a" "1" "0xA", quoted "c" "10" "0xC"]))
    r.live = [⟨"1", "0xA", 0⟩, ⟨"8453", "0xB", 1⟩] ∧ (∃ id, ⟨"1", "0xA", id⟩ ∈ r'.live) ∧
      ¬ ∃ id, ⟨"8453", "0xB", id⟩ ∈ r'.live := by
  obtain ⟨-, -, hrefresh⟩ := subscriptions_tracked clients (by decide) overlapping
  obtain ⟨hlive, -⟩ := hrefresh 0 .startRefresh [quoted "a" "1" "0xA", quoted "c" "10" "0xC"] (by decide +kernel) nofun
  refine ⟨by decide +kernel, (hlive "1" "0xA").2 ⟨by decide, by decide +kernel⟩, fun h => ?_⟩
  exact absurd ((hlive "8453" "0xB").1 h).2 (by decide +kernel)

end NexoraGateway.Worker.Watcher
