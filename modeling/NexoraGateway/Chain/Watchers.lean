import Mathlib.Data.List.Nodup
import NexoraGateway.Async.Runs
import NexoraGateway.Json
import NexoraGateway.Store.Table

/-!
# Deposit watchers of the polling clients (`chain-abstraction/src/tron/tron-chain-client.ts`,
`chain-abstraction/src/solana/solana-chain-client.ts`)

| here | Tron | Solana |
|---|---|---|
| `watchDeposits` | :252 | :250 |
| `unsubscribe` | :274 | :275 |
| `destroy` | :324 | :345 |

The intervals are kept under an id that is made of the address and the time. Two subscriptions that share one share the
entry: the first interval is lost, and each of the two functions stops the second. `accurate_iff` says that nothing else
goes wrong.
-/
namespace NexoraGateway.Chain

open Async.Runs Store

/-- What `setInterval` has set: a handle, the address that is polled, and how often. -/
structure Interval where
  handle : ℕ
  address : String
  periodMs : ℚ
  deriving DecidableEq

/-- The client, the intervals that are live, and the ids that the functions it has returned were made with. -/
structure Watchers where
  watchers : Dict String Interval := .empty
  intervals : List Interval := []
  watcherIds : List String := []

def watcherId (address : String) (now : Time) : String := "watcher-" ++ address ++ "-" ++ toString now

namespace Watchers

def watchDeposits (periodMs : ℚ) (address : String) (now : Time) (self : Watchers) : Watchers :=
  let interval : Interval := ⟨self.watcherIds.length, address, periodMs⟩
  { watchers := self.watchers.put (watcherId address now, interval)
    intervals := self.intervals ++ [interval]
    watcherIds := self.watcherIds ++ [watcherId address now] }

/-- `clearInterval(interval)`, and `this.watchers.delete(watcherId)`. -/
def clear (entry : String × Interval) (self : Watchers) : Watchers :=
  { self with
    watchers := self.watchers.erase entry.1
    intervals := self.intervals.filter (·.handle ≠ entry.2.handle) }

/-- A call of the function that the subscription of this number was answered with. -/
def unsubscribe (subscription : ℕ) (self : Watchers) : Watchers :=
  match self.watcherIds[subscription]? with
  | none => self
  | some watcherId =>
    match self.watchers.get? watcherId with
    | none => self
    | some interval => self.clear (watcherId, interval)

def destroy (self : Watchers) : Watchers :=
  self.watchers.rows.foldl (fun self entry => self.clear entry) self

end Watchers

inductive WatcherCall where
  | watchDeposits (address : String) (now : Time)
  | unsubscribe (subscription : ℕ)
  | destroy

/-- One call of a client that polls every `periodMs`. -/
def Watchers.step (periodMs : ℚ) (self : Watchers) : WatcherCall → Watchers
  | .watchDeposits address now => self.watchDeposits periodMs address now
  | .unsubscribe subscription => self.unsubscribe subscription
  | .destroy => self.destroy

/-- `setInterval(…, blockTime * 1000)` (tron-chain-client.ts:259). -/
def TronChainClient.step (blockTime : ℚ) : Watchers → WatcherCall → Watchers := Watchers.step (blockTime * 1000)

/-- `setInterval(…, slotTime * 1000 * 10)` (solana-chain-client.ts:262). -/
def SolanaChainClient.step (slotTime : ℚ) : Watchers → WatcherCall → Watchers := Watchers.step (slotTime * 1000 * 10)

/-! ## What is subscribed -/

/-- How many subscriptions were made, and which are neither unsubscribed nor destroyed. -/
structure Subscriptions where
  made : ℕ := 0
  active : List ℕ := []

def Subscriptions.step (self : Subscriptions) : WatcherCall → Subscriptions
  | .watchDeposits .. => ⟨self.made + 1, self.active ++ [self.made]⟩
  | .unsubscribe subscription => { self with active := self.active.filter (· ≠ subscription) }
  | .destroy => { self with active := [] }

/-- The live intervals are those of the active subscriptions. -/
def Accurate (step : Watchers → WatcherCall → Watchers) (calls : List WatcherCall) : Prop :=
  (exec step {} calls).intervals.map Interval.handle = (exec Subscriptions.step {} calls).active

def WatcherCall.watched? : WatcherCall → Option (String × Time)
  | watchDeposits address now => some (address, now)
  | _ => none

/-- The subscriptions that the calls make. -/
def watched (calls : List WatcherCall) : List (String × Time) := calls.filterMap WatcherCall.watched?

/-! ## One call -/

/-- The client follows the subscriptions: each entry is that of the subscription whose id it is under. -/
structure Follows (w : Watchers) (s : Subscriptions) : Prop where
  made : s.made = w.watcherIds.length
  live : w.intervals.map Interval.handle = s.active
  below : ∀ i ∈ s.active, i < s.made
  entries : ∀ id interval, w.watchers.get? id = some interval →
    w.watcherIds[interval.handle]? = some id ∧ interval.handle ∈ s.active
  kept : ∀ i ∈ s.active, ∀ id, w.watcherIds[i]? = some id →
    ∃ interval, w.watchers.get? id = some interval ∧ interval.handle = i

section
variable {w : Watchers} {s : Subscriptions} {periodMs : ℚ} {address : String} {now : Time} {subscription : ℕ}

theorem follows_empty : Follows {} {} where
  made := rfl
  live := rfl
  below := fun _ h => absurd h List.not_mem_nil
  entries := fun _ _ h => by cases h
  kept := fun _ h => absurd h List.not_mem_nil

theorem clear_handles (entry : String × Interval) (w : Watchers) : (w.clear entry).intervals.map Interval.handle =
    (w.intervals.map Interval.handle).filter (· ≠ entry.2.handle) := by
  rw [Watchers.clear, List.filter_map]
  rfl

theorem Follows.watchDeposits (h : Follows w s) (hfresh : watcherId address now ∉ w.watcherIds) :
    Follows (w.watchDeposits periodMs address now) (s.step (.watchDeposits address now)) := by
  have hold {i : ℕ} (hi : i ∈ s.active) :
      (w.watcherIds ++ [watcherId address now])[i]? = w.watcherIds[i]? :=
    List.getElem?_append_left (h.made ▸ h.below i hi)
  have hnew : (w.watcherIds ++ [watcherId address now])[w.watcherIds.length]? = some (watcherId address now) := by simp
  refine ⟨?_, ?_, fun i hi => ?_, fun id interval hentry => ?_, fun i hi id hid => ?_⟩
  · simp [Watchers.watchDeposits, Subscriptions.step, h.made]
  · simp [Watchers.watchDeposits, Subscriptions.step, h.live, h.made]
  · rcases List.mem_append.1 hi with hi | hi
    · exact Nat.lt_succ_of_lt (h.below i hi)
    · exact List.mem_singleton.1 hi ▸ Nat.lt_succ_self _
  · change Dict.get? (w.watchers.put (watcherId address now, ⟨w.watcherIds.length, address, periodMs⟩)) id = _ at hentry
    rw [Dict.get?_put] at hentry
    split at hentry
    · rename_i hid
      cases hentry
      exact ⟨hid ▸ hnew, List.mem_append_right _ (List.mem_singleton.2 h.made.symm)⟩
    · obtain ⟨hid, hactive⟩ := h.entries id interval hentry
      exact ⟨(hold hactive).trans hid, List.mem_append_left _ hactive⟩
  · change ∃ interval, Dict.get? (w.watchers.put (watcherId address now, _)) id = some interval ∧ _
    rw [Dict.get?_put]
    rcases List.mem_append.1 hi with hi | hi
    · have hid' : w.watcherIds[i]? = some id := (hold hi).symm.trans hid
      obtain ⟨interval, hentry, hhandle⟩ := h.kept i hi id hid'
      refine ⟨interval, ?_, hhandle⟩
      have hne : watcherId address now ≠ id := fun e => hfresh (e ▸ List.mem_of_getElem? hid')
      rw [if_neg hne, hentry]
    · cases List.mem_singleton.1 hi
      have hid' : some (watcherId address now) = some id := hnew.symm.trans (h.made ▸ hid)
      exact ⟨_, if_pos (Option.some.inj hid'), h.made.symm⟩

/-- The entry of a subscription is cleared as the subscription ends. -/
theorem Follows.clear {id : String} {interval : Interval} (h : Follows w s)
    (hid : w.watcherIds[subscription]? = some id) (hentry : w.watchers.get? id = some interval)
    (hhandle : interval.handle = subscription) :
    Follows (w.clear (id, interval)) (s.step (.unsubscribe subscription)) := by
  refine ⟨h.made, ?_, fun i hi => h.below i (List.mem_of_mem_filter hi), fun id' interval' hentry' => ?_,
    fun i hi id' hid' => ?_⟩
  · exact (clear_handles (id, interval) w).trans (by rw [h.live, hhandle]; rfl)
  · change Dict.get? (w.watchers.erase id) id' = _ at hentry'
    rw [Dict.get?_erase] at hentry'
    split at hentry'
    · cases hentry'
    · rename_i hne
      obtain ⟨hid', hactive⟩ := h.entries id' interval' hentry'
      have hother : interval'.handle ≠ subscription := fun e => by
        rw [e, hid] at hid'
        exact hne (Option.some.inj hid')
      exact ⟨hid', List.mem_filter.2 ⟨hactive, by simpa using hother⟩⟩
  · obtain ⟨hactive, hother⟩ := List.mem_filter.1 hi
    obtain ⟨interval', hentry', hhandle'⟩ := h.kept i hactive id' hid'
    refine ⟨interval', ?_, hhandle'⟩
    change Dict.get? (w.watchers.erase id) id' = _
    rw [Dict.get?_erase, if_neg, hentry']
    rintro rfl
    rw [hentry] at hentry'
    cases hentry'
    simp [hhandle.symm.trans hhandle'] at hother

/-- Nothing ends when there is nothing to clear. -/
theorem unsubscribe_inactive (h : subscription ∉ s.active) : s.step (.unsubscribe subscription) = s := by
  have hfilter : s.active.filter (· ≠ subscription) = s.active :=
    List.filter_eq_self.2 fun i hi => by simpa using fun e : i = subscription => h (e ▸ hi)
  simp only [Subscriptions.step, hfilter]

theorem Follows.unsubscribe (h : Follows w s) (hnodup : w.watcherIds.Nodup) :
    Follows (w.unsubscribe subscription) (s.step (.unsubscribe subscription)) := by
  unfold Watchers.unsubscribe
  split
  · rename_i hnone
    rw [unsubscribe_inactive fun hi => absurd (List.getElem?_eq_none_iff.1 hnone) (not_le.2 (h.made ▸ h.below _ hi))]
    exact h
  · rename_i id hid
    split
    · rename_i hnone
      rw [unsubscribe_inactive fun hi => ?_]
      · exact h
      · obtain ⟨interval, hentry, -⟩ := h.kept subscription hi id hid
        rw [hnone] at hentry
        cases hentry
    · rename_i interval hentry
      -- the entry under the id is that of this subscription, as no other one has the id
      have hown := (h.entries id interval hentry).1
      have hlt : interval.handle < w.watcherIds.length := (List.getElem?_eq_some_iff.1 hown).1
      exact h.clear hid hentry ((List.getElem?_inj hlt hnodup).1 (hown.trans hid.symm))

/-- What is left when the entries have been cleared one after the other. -/
theorem clear_all (entries : List (String × Interval)) (w : Watchers) :
    let cleared := entries.foldl (fun self entry => self.clear entry) w
    cleared.watcherIds = w.watcherIds ∧
      cleared.intervals = w.intervals.filter (fun interval => ∀ entry ∈ entries, interval.handle ≠ entry.2.handle) ∧
      ∀ id, cleared.watchers.get? id = if id ∈ entries.map Prod.fst then none else w.watchers.get? id := by
  induction entries generalizing w with
  | nil => simp
  | cons entry entries ih =>
    obtain ⟨hids, hintervals, hentries⟩ := ih (w.clear entry)
    refine ⟨hids, hintervals.trans ?_, fun id => (hentries id).trans ?_⟩
    · rw [Watchers.clear, List.filter_filter]
      refine List.filter_congr fun interval _ => ?_
      rw [Bool.eq_iff_iff, Bool.and_eq_true, decide_eq_true_iff, decide_eq_true_iff, decide_eq_true_iff,
        List.forall_mem_cons]
      exact and_comm
    · rw [Watchers.clear, Dict.get?_erase, List.map_cons]
      by_cases hid : entry.1 = id
      · rw [if_pos hid, if_pos (List.mem_cons.2 (.inl hid.symm)), ite_self]
      · rw [if_neg hid]
        exact if_congr (by rw [List.mem_cons, or_iff_right (Ne.symm hid)]) rfl rfl

theorem destroy_eq (w : Watchers) : w.destroy.watcherIds = w.watcherIds ∧
    w.destroy.intervals =
      w.intervals.filter (fun interval => ∀ entry ∈ w.watchers.rows, interval.handle ≠ entry.2.handle) ∧
    ∀ id, w.destroy.watchers.get? id = none := by
  obtain ⟨hids, hintervals, hentries⟩ := clear_all w.watchers.rows w
  refine ⟨hids, hintervals, fun id => (hentries id).trans ?_⟩
  by_cases hid : id ∈ w.watchers.rows.map Prod.fst
  · exact if_pos hid
  · rw [if_neg hid, Dict.get?, Option.map_eq_none_iff, Table.find?_eq_none]
    exact fun entry hentry e => hid (List.mem_map.2 ⟨entry, hentry, e⟩)

theorem Follows.destroy (h : Follows w s) : Follows w.destroy (s.step .destroy) := by
  obtain ⟨hids, hintervals, hentries⟩ := destroy_eq w
  have hnone : w.destroy.intervals = [] := by
    rw [hintervals, List.filter_eq_nil_iff]
    intro interval hinterval hcleared
    have hactive : interval.handle ∈ s.active := h.live ▸ List.mem_map_of_mem hinterval
    have hlt : interval.handle < w.watcherIds.length := h.made ▸ h.below _ hactive
    obtain ⟨entry, hentry, hhandle⟩ := h.kept _ hactive _ (List.getElem?_eq_getElem hlt)
    exact of_decide_eq_true hcleared _ (Dict.get?_eq_some.1 hentry) hhandle.symm
  refine ⟨hids ▸ h.made, ?_, fun i hi => absurd hi List.not_mem_nil, fun id interval hentry => ?_,
    fun i hi => absurd hi List.not_mem_nil⟩
  · rw [hnone]
    rfl
  · rw [hentries] at hentry
    cases hentry

/-! ## Runs -/

variable {calls : List WatcherCall}

theorem watched_append (calls calls' : List WatcherCall) :
    watched (calls ++ calls') = watched calls ++ watched calls' := List.filterMap_append

/-- The ids that the calls make subscriptions with. -/
def watcherIdsOf (subscriptions : List (String × Time)) : List String :=
  subscriptions.map fun subscription => watcherId subscription.1 subscription.2

theorem step_watcherIds (periodMs : ℚ) (w : Watchers) (call : WatcherCall) :
    (w.step periodMs call).watcherIds = w.watcherIds ++ watcherIdsOf (watched [call]) := by
  cases call with
  | watchDeposits address now => rfl
  | unsubscribe subscription =>
    refine Eq.trans ?_ (List.append_nil _).symm
    change (w.unsubscribe subscription).watcherIds = _
    unfold Watchers.unsubscribe
    split
    · rfl
    · split <;> rfl
  | destroy => exact (destroy_eq w).1.trans (List.append_nil _).symm

theorem exec_watcherIds (periodMs : ℚ) (calls : List WatcherCall) (w : Watchers) :
    (exec (Watchers.step periodMs) w calls).watcherIds = w.watcherIds ++ watcherIdsOf (watched calls) := by
  induction calls generalizing w with
  | nil => exact (List.append_nil _).symm
  | cons call calls ih =>
    have hcall : watched (call :: calls) = watched [call] ++ watched calls := watched_append [call] calls
    rw [exec_cons, ih, step_watcherIds, List.append_assoc, hcall, watcherIdsOf, watcherIdsOf, watcherIdsOf,
      List.map_append]

/-- Subscriptions with different ids are kept apart. -/
theorem exec_follows (periodMs : ℚ) (h : Follows w s) (hnodup : (w.watcherIds ++ watcherIdsOf (watched calls)).Nodup) :
    Follows (exec (Watchers.step periodMs) w calls) (exec Subscriptions.step s calls) := by
  induction calls generalizing w s with
  | nil => exact h
  | cons call calls ih =>
    rw [← List.singleton_append, watched_append, watcherIdsOf, List.map_append, ← List.append_assoc] at hnodup
    have hids := step_watcherIds periodMs w call
    have hnow : (w.watcherIds ++ watcherIdsOf (watched [call])).Nodup := hnodup.of_append_left
    refine ih (w := w.step periodMs call) (s := s.step call) ?_ (hids ▸ hnodup)
    cases call with
    | watchDeposits address now =>
      exact h.watchDeposits fun hmem => (List.disjoint_of_nodup_append hnow) hmem (List.mem_singleton.2 rfl)
    | unsubscribe subscription => exact h.unsubscribe hnow.of_append_left
    | destroy => exact h.destroy

/-- What subscriptions alone leave: an interval for each, and entries that are each under the id of theirs. -/
structure Piled (w : Watchers) : Prop where
  handles : w.intervals.map Interval.handle = List.range w.watcherIds.length
  entries : ∀ id interval, w.watchers.get? id = some interval → w.watcherIds[interval.handle]? = some id

theorem Piled.watchDeposits (h : Piled w) : Piled (w.watchDeposits periodMs address now) := by
  refine ⟨?_, fun id interval hentry => ?_⟩
  · simp [Watchers.watchDeposits, h.handles, List.range_succ]
  · change Dict.get? (w.watchers.put (watcherId address now, ⟨w.watcherIds.length, address, periodMs⟩)) id = _ at hentry
    change (w.watcherIds ++ [watcherId address now])[interval.handle]? = some id
    rw [Dict.get?_put] at hentry
    split at hentry
    · rename_i hid
      cases hentry
      simpa using hid
    · have hid := h.entries id interval hentry
      rw [List.getElem?_append_left (List.getElem?_eq_some_iff.1 hid).1, hid]

theorem exec_piled (periodMs : ℚ) (h : Piled w) (subscriptions : List (String × Time)) :
    Piled (exec (Watchers.step periodMs) w (subscriptions.map fun at' => .watchDeposits at'.1 at'.2)) := by
  induction subscriptions generalizing w with
  | nil => exact h
  | cons subscription subscriptions ih => exact ih h.watchDeposits

/-- A client that `destroy` leaves without intervals had no two subscriptions with one id. -/
theorem Piled.nodup (h : Piled w) (hdestroyed : w.destroy.intervals = []) : w.watcherIds.Nodup := by
  have hcleared {i : ℕ} (hi : i < w.watcherIds.length) :
      ∃ interval, w.watchers.get? w.watcherIds[i] = some interval ∧ interval.handle = i := by
    have hmem : i ∈ w.intervals.map Interval.handle := h.handles ▸ List.mem_range.2 hi
    obtain ⟨interval, hinterval, rfl⟩ := List.mem_map.1 hmem
    rw [(destroy_eq w).2.1, List.filter_eq_nil_iff] at hdestroyed
    have hentry := hdestroyed interval hinterval
    simp only [decide_eq_true_eq, not_forall, not_not] at hentry
    obtain ⟨entry, hentry, hhandle⟩ := hentry
    have hget : w.watchers.get? entry.1 = some entry.2 := Dict.get?_eq_some.2 hentry
    have hid := h.entries _ _ hget
    rw [← hhandle, List.getElem?_eq_getElem hi] at hid
    exact ⟨entry.2, by rw [Option.some.inj hid, hget], hhandle.symm⟩
  rw [List.nodup_iff_getElem?_ne_getElem?]
  intro i j hij hj heq
  have hi := Nat.lt_trans hij hj
  obtain ⟨interval, hentry, hhandle⟩ := hcleared hi
  obtain ⟨interval', hentry', hhandle'⟩ := hcleared hj
  rw [List.getElem?_eq_getElem hi, List.getElem?_eq_getElem hj] at heq
  rw [Option.some.inj heq, hentry'] at hentry
  cases hentry
  exact Nat.ne_of_lt hij (hhandle.symm.trans hhandle')

theorem watched_map (subscriptions : List (String × Time)) :
    watched (subscriptions.map fun at' => .watchDeposits at'.1 at'.2) = subscriptions := by
  induction subscriptions with
  | nil => rfl
  | cons subscription subscriptions ih => exact congrArg (subscription :: ·) ih

theorem accurate_of_nodup (periodMs : ℚ) (hnodup : (watcherIdsOf (watched calls)).Nodup) :
    Accurate (Watchers.step periodMs) calls :=
  (exec_follows periodMs follows_empty hnodup).live

theorem nodup_of_accurate {subscriptions : List (String × Time)}
    (h : Accurate (Watchers.step periodMs)
      (subscriptions.map (fun at' => .watchDeposits at'.1 at'.2) ++ [.destroy])) :
    (watcherIdsOf subscriptions).Nodup := by
  have hpiled := exec_piled periodMs (w := {}) ⟨rfl, fun id interval hentry => by cases hentry⟩ subscriptions
  rw [Accurate, exec_append, exec_append] at h
  have hids := exec_watcherIds periodMs (subscriptions.map fun at' => .watchDeposits at'.1 at'.2) {}
  rw [watched_map] at hids
  exact (List.nil_append _).subst (hids ▸ hpiled.nodup (List.map_eq_nil_iff.1 h))

end

/-- **The live intervals are those of the active subscriptions**, whatever is unsubscribed and destroyed in between,
just when no two subscriptions share an id. -/
theorem accurate_iff (blockTime slotTime : ℚ) (subscriptions : List (String × Time)) :
    (∀ calls, watched calls = subscriptions → ∀ reached, reached <+: calls →
      Accurate (TronChainClient.step blockTime) reached ∧ Accurate (SolanaChainClient.step slotTime) reached) ↔
    (watcherIdsOf subscriptions).Nodup := by
  constructor
  · intro h
    have hdestroyed : watched (subscriptions.map (fun at' => .watchDeposits at'.1 at'.2) ++ [.destroy]) =
        subscriptions := by
      rw [watched_append, watched_map]
      exact List.append_nil _
    exact nodup_of_accurate (h _ hdestroyed _ (List.prefix_refl _)).1
  · rintro hnodup calls rfl reached ⟨rest, rfl⟩
    rw [watched_append, watcherIdsOf, List.map_append] at hnodup
    exact ⟨accurate_of_nodup _ hnodup.of_append_left, accurate_of_nodup _ hnodup.of_append_left⟩

/-- Two subscriptions of one address in one millisecond: the first function stops the second interval, the second one
nothing, and the first interval outlives the client. -/
theorem same_millisecond_not_accurate : ∃ calls : List WatcherCall,
    calls = [.watchDeposits "T1" 1000, .watchDeposits "T1" 1000, .unsubscribe 0] ∧
    (exec (TronChainClient.step 3) {} calls).intervals.map Interval.handle = [0] ∧
    (exec Subscriptions.step {} calls).active = [1] ∧
    (exec (TronChainClient.step 3) {} (calls ++ [.unsubscribe 1, .destroy])).intervals.map Interval.handle = [0] := by
  refine ⟨_, rfl, ?_⟩
  decide +kernel

end NexoraGateway.Chain
