import Mathlib.Data.List.Induction
import NexoraGateway.Compliance.Spellings

/-!
# Whether pruned records still count (velocity-checker.ts:57-149)

`checkVelocity` stores what is left of the records of its key in the window. A record that has left the window does
not come back while the clock does not go back, whatever its own timestamp: `Pruned` is kept. So what a check measures
is the complete history of its key. Whether it is that of an account depends on whether keys tell accounts apart
(`velocity_exact_iff`): those of Solana and Tron addresses that differ in nothing but case do not.
-/
namespace NexoraGateway.Compliance

open Async Store

/-- A call of the checker, with its reading of the clock. -/
inductive VelocityRequest where
  | checkVelocity (tx : TransactionInfo) (now : Time)
  | clearHistory (address chain : String)

namespace VelocityRequest

/-- The address and the chain that the call is on. -/
def party : VelocityRequest → String × String
  | checkVelocity tx _ => (tx.from, tx.chain)
  | clearHistory address chain => (address, chain)

def key (x : VelocityRequest) : String := addressKey x.party.1 x.party.2

def reading? : VelocityRequest → Option Time
  | checkVelocity _ now => some now
  | clearHistory .. => none

variable (window : VelocityWindow)

/-- The records after a call. -/
def serve (windows : Windows) : VelocityRequest → Windows
  | checkVelocity tx now => (Compliance.checkVelocity window tx now windows).2
  | clearHistory address chain => Compliance.clearHistory address chain windows

/-- The windows after a run. -/
abbrev windowsAfter (xs : List VelocityRequest) : Windows := Runs.exec (serve window) Table.empty xs

/-! ## What should count

`account` says whose an address on a chain is. -/

section
variable {α : Type} [DecidableEq α] (account : String → String → α)

/-- What a call makes of the complete history of an account. -/
def recordIn (who : α) (records : List TransactionRecord) : VelocityRequest → List TransactionRecord
  | checkVelocity tx _ => if account tx.from tx.chain = who then records ++ [⟨tx.amount, tx.timestamp⟩] else records
  | clearHistory address chain => if account address chain = who then [] else records

/-- All transactions of an account since it was last cleared. -/
def history (who : α) (past : List VelocityRequest) : List TransactionRecord := past.foldl (recordIn account who) []

/-- Those that are at most `durationMs` old. -/
def counted (who : α) (now : Time) (past : List VelocityRequest) : List TransactionRecord :=
  (history account who past).filter fun r => ((now - r.timestamp : Time) : ℚ) ≤ window.durationMs

/-- The answer of a check by which these records count. -/
structure Counts (records : List TransactionRecord) (result : VelocityCheckResult) : Prop where
  transactionCount : result.transactionCount = records.length
  totalAmount : result.totalAmount = (records.map TransactionRecord.amount).sum
  averageAmount : result.averageAmount = (records.map TransactionRecord.amount).sum / records.length
  exceeded : result.exceeded = true ↔
    window.maxTransactions < records.length ∨ window.maxAmount < (records.map TransactionRecord.amount).sum

/-- In the run every check counts the complete history of its account, as far as it is in the window; that is what is
stored then; and a call leaves the other keys alone. -/
structure Exact (xs : List VelocityRequest) : Prop where
  counts : ∀ before tx now, before ++ [.checkVelocity tx now] <+: xs →
    Counts window (counted window account (account tx.from tx.chain) now (before ++ [.checkVelocity tx now]))
      (Compliance.checkVelocity window tx now (windowsAfter window before)).1
  stored : ∀ before tx now, before ++ [.checkVelocity tx now] <+: xs →
    getWindowRecords (windowsAfter window (before ++ [.checkVelocity tx now])) (addressKey tx.from tx.chain) =
      counted window account (account tx.from tx.chain) now (before ++ [.checkVelocity tx now])
  others : ∀ before x, before ++ [x] <+: xs → ∀ k, x.key ≠ k →
    getWindowRecords (windowsAfter window (before ++ [x])) k = getWindowRecords (windowsAfter window before) k

end

/-! ## What is pruned does not count again -/

/-- From some instant on the stored records of every key count the same transactions as its complete history. -/
def Pruned (since : Time) (windows : Windows) (past : List VelocityRequest) : Prop :=
  ∀ key now, since ≤ now →
    ((getWindowRecords windows key).filter fun r => window.Within now r.timestamp) =
      counted window addressKey key now past

variable {window} {windows : Windows} {past xs : List VelocityRequest} {since now now' : Time} {x : VelocityRequest}
  {k : String} {records : List TransactionRecord}

section
variable {α : Type} [DecidableEq α] {account : String → String → α} {who : α}

theorem counted_eq : counted window account who now past =
    (history account who past).filter fun r => window.Within now r.timestamp := rfl

theorem history_append : history account who (past ++ [x]) = recordIn account who (history account who past) x := by
  rw [history, List.foldl_append]
  rfl

end

theorem getWindowRecords_put : getWindowRecords (windows.put (k, records)) k = records := by
  rw [getWindowRecords, Dict.get?_put, if_pos rfl]
  rfl

theorem getWindowRecords_put_of_ne {k' : String} (h : k ≠ k') :
    getWindowRecords (windows.put (k, records)) k' = getWindowRecords windows k' := by
  rw [getWindowRecords, Dict.get?_put, if_neg h]
  rfl

/-- **A check** measures what counts of the complete history. -/
theorem Pruned.check (h : Pruned window since windows past) (tx : TransactionInfo) (hnow : since ≤ now) :
    windowWith window tx now (getWindowRecords windows (addressKey tx.from tx.chain)) =
      counted window addressKey (addressKey tx.from tx.chain) now (past ++ [.checkVelocity tx now]) := by
  rw [windowWith, counted_eq, history_append, recordIn, if_pos rfl, List.filter_append, List.filter_append, h _ _ hnow]
  rfl

theorem Pruned.serve (h : Pruned window since windows past) (hsince : ∀ now ∈ x.reading?, since ≤ now) :
    Pruned window (x.reading?.getD since) (x.serve window windows) (past ++ [x]) := by
  cases x with
  | checkVelocity tx now =>
    have hstored := h.check tx (hsince now rfl)
    intro k now' (hlater : now ≤ now')
    change ((getWindowRecords (windows.put (_, windowWith window tx now _)) k).filter _) = _
    by_cases hk : addressKey tx.from tx.chain = k
    · subst hk
      rw [getWindowRecords_put, hstored, counted_eq, counted_eq, filter_filter_within hlater]
    · rw [getWindowRecords_put_of_ne hk, h k now' ((hsince now rfl).trans hlater), counted_eq, counted_eq, history_append,
        recordIn, if_neg hk]
  | clearHistory address chain =>
    intro k now' hlater
    change ((getWindowRecords (windows.erase _) k).filter _) = _
    rw [getWindowRecords, Dict.get?_erase, counted_eq, history_append, recordIn]
    split
    · rfl
    · exact h k now' hlater

/-- A call leaves the other keys alone. -/
theorem serve_of_ne (h : x.key ≠ k) : getWindowRecords (x.serve window windows) k = getWindowRecords windows k := by
  cases x with
  | checkVelocity tx now => exact getWindowRecords_put_of_ne h
  | clearHistory address chain =>
    have hne : addressKey address chain ≠ k := h
    change getWindowRecords (windows.erase _) k = _
    rw [getWindowRecords, Dict.get?_erase, if_neg hne]
    rfl

/-! ## Whole runs -/

theorem pruned_empty (since : Time) : Pruned window since Table.empty [] := fun _ _ _ => rfl

theorem Pruned.exec (h : Pruned window since windows past)
    (hclock : (since :: xs.filterMap reading?).Pairwise (· ≤ ·)) :
    ∃ last ∈ since :: xs.filterMap reading?,
      Pruned window last (Runs.exec (VelocityRequest.serve window) windows xs) (past ++ xs) := by
  induction xs generalizing since windows past with
  | nil => exact ⟨since, List.mem_cons_self, by rwa [List.append_nil]⟩
  | cons x xs ih =>
    have hnext := h.serve (x := x) fun now hnow =>
      (List.pairwise_cons.1 hclock).1 now (List.mem_filterMap.2 ⟨x, List.mem_cons_self, hnow⟩)
    cases hreading : x.reading? with
    | none =>
      rw [hreading] at hnext
      rw [List.filterMap_cons_none hreading] at hclock ⊢
      obtain ⟨last, hlast, hpruned⟩ := ih hnext hclock
      exact ⟨last, hlast, by rwa [List.append_assoc] at hpruned⟩
    | some now =>
      rw [hreading] at hnext
      rw [List.filterMap_cons_some hreading] at hclock ⊢
      obtain ⟨last, hlast, hpruned⟩ := ih hnext (List.pairwise_cons.1 hclock).2
      exact ⟨last, List.mem_cons_of_mem since hlast, by rwa [List.append_assoc] at hpruned⟩

/-- A first instant before all readings. -/
theorem exists_start {readings : List Time} (h : readings.Pairwise (· ≤ ·)) :
    ∃ start, (start :: readings).Pairwise (· ≤ ·) := by
  cases readings with
  | nil => exact ⟨0, List.pairwise_singleton _ 0⟩
  | cons now readings =>
    refine ⟨now, List.pairwise_cons.2 ⟨fun t ht => ?_, h⟩⟩
    rcases List.mem_cons.1 ht with rfl | ht
    · exact le_rfl
    · exact (List.pairwise_cons.1 h).1 t ht

/-- What a check of a run has in its window is what counts of its key. -/
theorem window_eq_counted {before : List VelocityRequest} {tx : TransactionInfo}
    (hclock : (xs.filterMap reading?).Pairwise (· ≤ ·)) (hbefore : before ++ [.checkVelocity tx now] <+: xs) :
    windowWith window tx now (getWindowRecords (windowsAfter window before) (addressKey tx.from tx.chain)) =
      counted window addressKey (addressKey tx.from tx.chain) now (before ++ [.checkVelocity tx now]) := by
  obtain ⟨after, rfl⟩ := hbefore
  obtain ⟨start, hstart⟩ := exists_start hclock
  rw [List.append_assoc, List.filterMap_append, ← List.cons_append] at hstart
  obtain ⟨hreadings, -, hle⟩ := List.pairwise_append.1 hstart
  obtain ⟨last, hlast, hpruned⟩ := (pruned_empty start).exec hreadings
  rw [List.nil_append] at hpruned
  have hnow : last ≤ now := hle last hlast now
    (List.mem_filterMap.2 ⟨_, List.mem_append_left _ (List.mem_singleton_self _), rfl⟩)
  exact hpruned.check tx hnow

theorem counts_measure (window : VelocityWindow) (records : List TransactionRecord) :
    Counts window records (measure window records) := by
  refine ⟨rfl, rfl, ?_, decide_eq_true_iff⟩
  cases records with
  | nil => simp [measure]
  | cons r rs => simp only [measure, List.length_cons, if_pos (Nat.succ_pos rs.length)]

/-- **Pruning is not noticed**: in any run with a clock that does not go back, the history that counts is that of the
key. -/
theorem exact_addressKey (hclock : (xs.filterMap reading?).Pairwise (· ≤ ·)) : Exact window addressKey xs where
  counts before tx now hbefore := by
    rw [← window_eq_counted hclock hbefore]
    exact counts_measure window _
  stored before tx now hbefore := by
    rw [← window_eq_counted hclock hbefore, windowsAfter, Runs.exec_append]
    exact getWindowRecords_put
  others before x _ k hne := by
    rw [windowsAfter, Runs.exec_append]
    exact serve_of_ne hne

/-! ## Accounts and their keys -/

section
variable {α : Type} [DecidableEq α] {account : String → String → α}

/-- Where keys tell the accounts apart, a history is that of the key. -/
theorem history_eq {p : String × String}
    (hparty : ∀ x ∈ past, (addressKey x.party.1 x.party.2 = addressKey p.1 p.2 ↔
      account x.party.1 x.party.2 = account p.1 p.2)) :
    history account (account p.1 p.2) past = history addressKey (addressKey p.1 p.2) past := by
  induction past using List.reverseRecOn with
  | nil => rfl
  | append_singleton past x ih =>
    have hx := hparty x (List.mem_append_right _ (List.mem_singleton_self x))
    rw [history_append, history_append, ih fun y hy => hparty y (List.mem_append_left _ hy)]
    cases x with
    | checkVelocity tx now => exact if_congr hx.symm rfl rfl
    | clearHistory address chain => exact if_congr hx.symm rfl rfl

/-- The check of a transaction of nothing that is just in the window at 0. -/
def probe (window : VelocityWindow) (p : String × String) : VelocityRequest :=
  .checkVelocity ⟨p.1, "", 0, "", p.2, ⌈-window.durationMs⌉⟩ 0

theorem within_probe (window : VelocityWindow) : window.Within 0 ⌈-window.durationMs⌉ := by
  unfold VelocityWindow.Within
  have hceil : -window.durationMs ≤ (⌈-window.durationMs⌉ : ℚ) := Int.le_ceil _
  push_cast
  linarith

/-- After a probe of `p`, that of `q` counts both just when they are the same. -/
theorem counted_probes (window : VelocityWindow) (p q : String × String) :
    (counted window account (account q.1 q.2) 0 [probe window p, probe window q]).length =
      if account p.1 p.2 = account q.1 q.2 then 2 else 1 := by
  have hin := within_probe window
  by_cases h : account p.1 p.2 = account q.1 q.2
  · simp [counted_eq, history, recordIn, probe, h, hin]
  · simp [counted_eq, history, recordIn, probe, h, hin]

theorem exact_probes {p q : String × String} (h : Exact window account [probe window p, probe window q]) :
    addressKey p.1 p.2 = addressKey q.1 q.2 ↔ account p.1 p.2 = account q.1 q.2 := by
  have hkeys : Exact window addressKey [probe window p, probe window q] :=
    exact_addressKey (List.pairwise_pair.2 (le_refl (0 : Time)))
  have hcounts := (h.counts [probe window p] _ 0 (List.prefix_refl _)).transactionCount.symm.trans
    (hkeys.counts [probe window p] _ 0 (List.prefix_refl _)).transactionCount
  rw [List.singleton_append] at hcounts
  change (counted window account (account q.1 q.2) 0 [probe window p, probe window q]).length =
    (counted window addressKey (addressKey q.1 q.2) 0 [probe window p, probe window q]).length at hcounts
  rw [counted_probes, counted_probes] at hcounts
  split at hcounts <;> split at hcounts <;> simp_all

/-- **When the checker counts what it should**: in every run on some addresses, with a clock that does not go back, just
when the keys of these addresses tell the accounts apart, and no more than these. -/
theorem velocity_exact_iff (window : VelocityWindow) (account : String → String → α) (U : Set (String × String)) :
    (∀ xs : List VelocityRequest, (∀ x ∈ xs, x.party ∈ U) → (xs.filterMap reading?).Pairwise (· ≤ ·) →
      Exact window account xs) ↔
    ∀ p ∈ U, ∀ q ∈ U, addressKey p.1 p.2 = addressKey q.1 q.2 ↔ account p.1 p.2 = account q.1 q.2 := by
  constructor
  · intro h p hp q hq
    refine exact_probes (h _ (fun x hx => ?_) (List.pairwise_pair.2 (le_refl (0 : Time))))
    rcases List.mem_pair.1 hx with rfl | rfl
    · exact hp
    · exact hq
  · intro h xs hU hclock
    have hkeys : Exact window addressKey xs := exact_addressKey hclock
    have hcounted {before : List VelocityRequest} {tx : TransactionInfo} {now : Time}
        (hbefore : before ++ [.checkVelocity tx now] <+: xs) :
        counted window account (account tx.from tx.chain) now (before ++ [.checkVelocity tx now]) =
          counted window addressKey (addressKey tx.from tx.chain) now (before ++ [.checkVelocity tx now]) := by
      have hmem (x : VelocityRequest) (hx : x ∈ before ++ [.checkVelocity tx now]) : x.party ∈ U :=
        hU x (hbefore.subset hx)
      have htx : (tx.from, tx.chain) ∈ U :=
        hmem (.checkVelocity tx now) (List.mem_append_right _ (List.mem_singleton_self _))
      rw [counted, counted, history_eq (p := (tx.from, tx.chain)) fun x hx => h _ (hmem x hx) _ htx]
    refine ⟨fun before tx now hbefore => ?_, fun before tx now hbefore => ?_, hkeys.others⟩
    · rw [hcounted hbefore]
      exact hkeys.counts before tx now hbefore
    · rw [hcounted hbefore]
      exact hkeys.stored before tx now hbefore

end

/-- The key of addresses without a colon tells them apart, but for the case of letters, and their chains. -/
theorem addressKey_eq_iff {A B chain chain' : String} (hA : ':' ∉ A.toList) (hB : ':' ∉ B.toList) :
    addressKey A chain = addressKey B chain' ↔ A.toLower = B.toLower ∧ chain = chain' := by
  constructor
  · intro h
    have hlower : A.toLower = B.toLower := by
      by_contra hne
      have hunder : ¬ Under B (addressKey A chain) := not_under hA hB hne
      rw [h] at hunder
      exact hunder (under_of_lower rfl)
    refine ⟨hlower, ?_⟩
    simp only [addressKey, hlower, ← String.toList_inj, String.toList_append] at h
    exact String.toList_inj.1 (List.append_cancel_left h)
  · rintro ⟨hlower, rfl⟩
    rw [addressKey, addressKey, hlower]

/-- On a chain whose addresses are the same in both cases, as those of EVM chains are, the checker is exact. -/
theorem exact_of_lower (window : VelocityWindow) (hcolon : ∀ x ∈ xs, ':' ∉ x.party.1.toList)
    (hclock : (xs.filterMap reading?).Pairwise (· ≤ ·)) :
    Exact window (fun address chain => (address.toLower, chain)) xs := by
  refine (velocity_exact_iff window _ { p | ':' ∉ p.1.toList }).2 (fun p hp q hq => ?_) xs hcolon hclock
  rw [addressKey_eq_iff hp hq, Prod.mk.injEq]

/-- A payment of 60000 from each of the two Solana addresses that differ in the case of their last letter. -/
def twinPayments : List VelocityRequest :=
  [.checkVelocity ⟨solanaPair.1, "", 60000, "", "solana", 0⟩ 0,
    .checkVelocity ⟨solanaPair.2, "", 60000, "", "solana", 0⟩ 0]

/-- The first payment counts for the second address, which it takes over the limit. -/
theorem twinPayments_exceed :
    (Solana.validateAddress solanaPair.1 ∧ Solana.validateAddress solanaPair.2 ∧ solanaPair.1 ≠ solanaPair.2) ∧
    (∃ result, result = (Compliance.checkVelocity {} ⟨solanaPair.2, "", 60000, "", "solana", 0⟩ 0
        (windowsAfter {} (twinPayments.take 1))).1 ∧
      result.transactionCount = 2 ∧ result.totalAmount = 120000 ∧ result.exceeded = true) ∧
    counted {} Prod.mk (solanaPair.2, "solana") 0 twinPayments = [⟨60000, 0⟩] ∧ ¬ Exact {} Prod.mk twinPayments := by
  have hclock : (twinPayments.filterMap reading?).Pairwise (· ≤ ·) := List.pairwise_pair.2 (le_refl (0 : Time))
  have hkey : addressKey solanaPair.1 "solana" = addressKey solanaPair.2 "solana" := by
    have hlower : solanaPair.1.toLower = solanaPair.2.toLower := by
      rw [← String.toList_inj, toLower_toList, toLower_toList]
      decide +kernel
    rw [addressKey, addressKey, hlower]
  have hboth : counted {} addressKey (addressKey solanaPair.2 "solana") 0 twinPayments = [⟨60000, 0⟩, ⟨60000, 0⟩] := by
    simp only [counted, history, twinPayments, List.foldl_cons, List.foldl_nil, recordIn, hkey, if_true]
    decide +kernel
  have hone : counted {} Prod.mk (solanaPair.2, "solana") 0 twinPayments = [⟨60000, 0⟩] := by decide +kernel
  have hkeys : Exact {} addressKey twinPayments := exact_addressKey hclock
  have hcounts := hkeys.counts (twinPayments.take 1) _ 0 (List.prefix_refl _)
  change Counts {} (counted {} addressKey (addressKey solanaPair.2 "solana") 0 twinPayments) _ at hcounts
  rw [hboth] at hcounts
  refine ⟨⟨by decide +kernel, by decide +kernel, by decide⟩, ⟨_, rfl, hcounts.transactionCount, ?_, ?_⟩, hone, ?_⟩
  · rw [hcounts.totalAmount]
    decide +kernel
  · exact hcounts.exceeded.2 (by decide +kernel)
  · intro h
    have hone' := h.counts (twinPayments.take 1) _ 0 (List.prefix_refl _)
    change Counts {} (counted {} Prod.mk (solanaPair.2, "solana") 0 twinPayments) _ at hone'
    rw [hone] at hone'
    exact absurd (hone'.transactionCount.symm.trans hcounts.transactionCount) (by decide)

end VelocityRequest

end NexoraGateway.Compliance
