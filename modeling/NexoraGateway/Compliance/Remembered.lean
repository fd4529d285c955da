import Mathlib.Order.Bounds.Basic
import NexoraGateway.Compliance.Scorer
import NexoraGateway.Compliance.Trm
import NexoraGateway.Async.Runs

/-!
# The score that is remembered of an address (`getRiskScore`)

The three scorers cache what `screenAddress` finds under the address and the chain. `BasicRiskScorer.getRiskScore`
looks under a chain called `cached`; the other two take the first entry whose key begins with the address, which may be
that of a longer address, or of another chain. Addresses are of ASCII, as in `addressKey`.

* `Memory` — a cache and the screenings that filled it.
* `basic_recalls_iff`, `scan_recalls_iff` — when the remembered score is the highest that is still good.
-/
namespace NexoraGateway.Compliance

open Async Store

/-! ## The readers -/

/-- `BasicRiskScorer.getRiskScore` (basic-risk-scorer.ts:122). -/
def getRiskScore (address : String) (now : Time) (cache : ScoreCache) : ℚ :=
  ((cached? cache address "cached" now).map CachedScore.score).getD 0

/-- The key begins with the address and the value is still good. -/
def Matches (address : String) (now : Time) (row : String × Chainalysis.Report) : Prop :=
  address.toLower.toList <+: row.1.toList ∧ now < row.2.expiresAt

instance (address : String) (now : Time) : DecidablePred (Matches address now) :=
  fun _ => inferInstanceAs (Decidable (_ ∧ _))

/-- The loop of `getRiskScore` over the entries of the cache. -/
def scanRiskScore (address : String) (now : Time) (cache : Chainalysis.Reports) : ℚ :=
  ((cache.rows.find? fun row => Matches address now row).map fun row => row.2.result.riskScore).getD 0

/-- `ChainalysisRiskScorer.getRiskScore` (chainalysis-risk-scorer.ts:118). -/
def Chainalysis.getRiskScore : String → Time → Chainalysis.Reports → ℚ := scanRiskScore

/-- `TRMRiskScorer.getRiskScore` (trm-risk-scorer.ts:114). -/
def Trm.getRiskScore : String → Time → Chainalysis.Reports → ℚ := scanRiskScore

/-! ## What was found -/

/-- What a cache holds of an address. -/
class Scored (V : Type) where
  score : V → ℚ
  expiresAt : V → Time

instance : Scored CachedScore := ⟨CachedScore.score, CachedScore.expiresAt⟩

instance : Scored Chainalysis.Report := ⟨fun report => report.result.riskScore, Chainalysis.Report.expiresAt⟩

/-- A screening of an address on a chain, with what it puts into the cache if there is nothing good in it. -/
structure Finding (V : Type) where
  address : String
  chain : String
  value : V

abbrev Finding.key {V : Type} (x : Finding V) : String := addressKey x.address x.chain

/-- A cache, and the screenings that found something new. -/
structure Memory (V : Type) where
  cache : Dict String V := Table.empty
  findings : List (Finding V) := []

variable {V : Type} [Scored V]

/-- A screening that fills the cache unless that answers it. -/
def Memory.screen (m : Memory V) (now : Time) (x : Finding V) (cache : Dict String V) : Memory V :=
  { cache
    findings :=
      if ((m.cache.get? x.key).filter fun value => now < Scored.expiresAt value).isSome then m.findings
      else m.findings ++ [x] }

/-- The finding is in the cache and still good. -/
def Memory.Holds (m : Memory V) (now : Time) (x : Finding V) : Prop :=
  x ∈ m.findings ∧ m.cache.get? x.key = some x.value ∧ now < Scored.expiresAt x.value

/-- The scores that were given for the address, on any chain, and are still good. -/
def Memory.scores (m : Memory V) (address : String) (now : Time) : Set ℚ :=
  { s | ∃ x, m.Holds now x ∧ x.address.toLower = address.toLower ∧ Scored.score x.value = s }

/-- The reader returns the highest score of the address that is still good, if there is any. -/
def Recalls (read : String → Time → Dict String V → ℚ) (m : Memory V) (address : String) (now : Time) : Prop :=
  ∀ best, IsGreatest (m.scores address now) best → read address now m.cache = best

/-! ## The scorers -/

/-- A call of `BasicRiskScorer.screenAddress`. -/
structure BasicCall where
  provider : SanctionsProvider
  address : String
  chain : String
  now : Time
  answeredAt : Time

/-- A call of `screenAddress` of one of the other two; `received` is random. -/
structure ReportCall where
  address : String
  chain : String
  received : ℚ
  now : Time

def basicNext (config : BasicRiskScorerConfig) (m : Memory CachedScore) (c : BasicCall) : Memory CachedScore :=
  let fresh := freshResult config (checkOf c.provider c.address c.chain) c.address c.chain c.answeredAt
  m.screen c.now ⟨c.address, c.chain, ⟨fresh.riskScore, fresh.expiresAt⟩⟩
    (screenAddress config c.provider c.now c.answeredAt c.address c.chain m.cache).2

def Chainalysis.next (m : Memory Report) (c : ReportCall) : Memory Report :=
  m.screen c.now ⟨c.address, c.chain, ⟨riskResponse c.address c.chain c.received c.now, c.now + cacheTtlMs⟩⟩
    (screenAddress c.address c.chain c.received c.now m.cache).2

def Trm.next (m : Memory Chainalysis.Report) (c : ReportCall) : Memory Chainalysis.Report :=
  m.screen c.now ⟨c.address, c.chain, ⟨riskResponse c.address c.chain c.now, c.now + cacheTtlMs⟩⟩
    (screenAddress c.address c.chain c.now m.cache).2

/-! ## What is in a cache was found -/

def Memory.Sound (m : Memory V) : Prop := ∀ key value, m.cache.get? key = some value →
  ∃ x ∈ m.findings, x.key = key ∧ x.value = value

variable {m : Memory V} {x : Finding V} {now : Time} {address : String} {best : ℚ}

/-- A screening fills the cache with what it finds, unless the cache answers it. -/
theorem Memory.Sound.screen (h : m.Sound) {cache : Dict String V}
    (hcache : cache = if ((m.cache.get? x.key).filter fun value => now < Scored.expiresAt value).isSome then m.cache
      else m.cache.put (x.key, x.value)) : (m.screen now x cache).Sound := by
  intro key value hvalue
  change cache.get? key = some value at hvalue
  unfold Memory.screen
  split_ifs at hcache ⊢ with hhit
  · subst hcache
    exact h key value hvalue
  · subst hcache
    rw [Dict.get?_put] at hvalue
    by_cases hkey : x.key = key
    · rw [if_pos hkey] at hvalue
      exact ⟨x, List.mem_append_right _ (List.mem_singleton_self x), hkey, Option.some.inj hvalue⟩
    · rw [if_neg hkey] at hvalue
      obtain ⟨y, hy, hfound⟩ := h key value hvalue
      exact ⟨y, List.mem_append_left _ hy, hfound⟩

theorem basicNext_sound {config : BasicRiskScorerConfig} {m : Memory CachedScore} (h : m.Sound) (c : BasicCall) :
    (basicNext config m c).Sound := by
  refine h.screen ?_
  unfold screenAddress cached?
  split
  · rename_i hhit
    exact (if_pos (Option.isSome_of_eq_some hhit)).symm
  · rename_i hmiss
    exact (if_neg (Option.not_isSome_iff_eq_none.2 hmiss)).symm

omit [Scored V] in
theorem empty_sound : ({} : Memory V).Sound := fun _ _ hvalue => nomatch hvalue

/-! ## When the readers are right -/

/-- The score is what is held under the chain `cached`; or it is 0 and nothing is. -/
def UnderCached (m : Memory CachedScore) (address : String) (now : Time) (best : ℚ) : Prop :=
  (∃ x, m.Holds now x ∧ x.key = addressKey address "cached" ∧ x.value.score = best) ∨
    best = 0 ∧ ∀ x, m.Holds now x → x.key ≠ addressKey address "cached"

/-- Each entry that matches and has another score comes after one that matches and has this one. -/
def Foremost (m : Memory Chainalysis.Report) (address : String) (now : Time) (best : ℚ) : Prop :=
  ∀ before row after, m.cache.rows = before ++ row :: after → Matches address now row →
    row.2.result.riskScore ≠ best → ∃ earlier ∈ before, Matches address now earlier ∧
      earlier.2.result.riskScore = best

theorem getRiskScore_eq_iff {m : Memory CachedScore} (h : m.Sound) :
    getRiskScore address now m.cache = best ↔ UnderCached m address now best := by
  have hheld (x : Finding CachedScore) (hx : m.Holds now x) (hkey : x.key = addressKey address "cached") :
      cached? m.cache address "cached" now = some x.value := by
    rw [cached?, ← hkey, hx.2.1]
    exact if_pos (decide_eq_true hx.2.2)
  unfold getRiskScore
  cases hcached : cached? m.cache address "cached" now with
  | none =>
    constructor
    · rintro rfl
      exact .inr ⟨rfl, fun x hx hkey => nomatch hcached.symm.trans (hheld x hx hkey)⟩
    · rintro (⟨x, hx, hkey, -⟩ | ⟨rfl, -⟩)
      · exact nomatch hcached.symm.trans (hheld x hx hkey)
      · rfl
  | some entry =>
    obtain ⟨hget, hgood⟩ := Option.filter_eq_some_iff.1 hcached
    obtain ⟨x, hfound, hkey, rfl⟩ := h _ _ hget
    have hx : m.Holds now x := ⟨hfound, hkey ▸ hget, of_decide_eq_true hgood⟩
    constructor
    · rintro rfl
      exact .inl ⟨x, hx, hkey, rfl⟩
    · rintro (⟨y, hy, hkey', rfl⟩ | ⟨-, hnone⟩)
      · rw [Option.some.inj (hcached.symm.trans (hheld y hy hkey'))]
        rfl
      · exact absurd hkey (hnone x hx)

/-- **`BasicRiskScorer`** recalls the score that was found under the chain `cached`, and otherwise 0. -/
theorem basic_recalls_iff {m : Memory CachedScore} (h : m.Sound) :
    Recalls getRiskScore m address now ↔
      ∀ best, IsGreatest (m.scores address now) best → UnderCached m address now best :=
  forall₂_congr fun _ _ => getRiskScore_eq_iff h

/-- What is held of an address matches it. -/
theorem matches_of_holds {m : Memory Chainalysis.Report} {x : Finding Chainalysis.Report} (hx : m.Holds now x)
    (haddress : x.address.toLower = address.toLower) :
    (x.key, x.value) ∈ m.cache.rows ∧ Matches address now (x.key, x.value) := by
  refine ⟨Dict.get?_eq_some.1 hx.2.1, ?_, hx.2.2⟩
  rw [Finding.key, addressKey, haddress, String.append_assoc, String.toList_append]
  exact List.prefix_append _ _

theorem scanRiskScore_eq_iff {m : Memory Chainalysis.Report} (hbest : best ∈ m.scores address now) :
    scanRiskScore address now m.cache = best ↔ Foremost m address now best := by
  obtain ⟨x, hx, haddress, hscore⟩ := hbest
  obtain ⟨hmem, hmatches⟩ := matches_of_holds hx haddress
  unfold scanRiskScore
  cases hfind : m.cache.rows.find? fun row => Matches address now row with
  | none => exact absurd hmatches (by simpa using List.find?_eq_none.1 hfind _ hmem)
  | some first =>
    obtain ⟨hfirst, before, after, hrows, hbefore⟩ := List.find?_eq_some_iff_append.1 hfind
    have hfirst : Matches address now first := by simpa using hfirst
    constructor
    · rintro rfl before' row after' hrows' hrow hne
      have hother : row ≠ first := fun h => hne (congrArg (fun r => r.2.result.riskScore) h)
      -- the first one that matches lies before this one
      rcases List.append_eq_append_iff.1 (hrows.symm.trans hrows') with ⟨between, rfl, hrest⟩ | ⟨between, rfl, hrest⟩
      · cases between with
        | nil => exact absurd (List.cons.inj hrest).1.symm hother
        | cons first' between =>
          obtain ⟨rfl, -⟩ := List.cons.inj hrest
          exact ⟨first, List.mem_append_right _ List.mem_cons_self, hfirst, rfl⟩
      · cases between with
        | nil => exact absurd (List.cons.inj hrest).1 hother
        | cons row' between =>
          obtain ⟨rfl, -⟩ := List.cons.inj hrest
          exact absurd hrow (by simpa using hbefore row (List.mem_append_right _ List.mem_cons_self))
    · intro h
      by_contra hne
      obtain ⟨earlier, hearlier, hmatch, -⟩ := h before first after hrows hfirst hne
      exact absurd hmatch (by simpa using hbefore earlier hearlier)

/-- **The other two** recall the score of the first entry that matches. -/
theorem scan_recalls_iff {m : Memory Chainalysis.Report} :
    Recalls scanRiskScore m address now ↔
      ∀ best, IsGreatest (m.scores address now) best → Foremost m address now best :=
  forall₂_congr fun _ hbest => scanRiskScore_eq_iff hbest.1

/-- **The remembered score is the highest that is still good just when**, after any calls of `screenAddress`: that
was found under the chain `cached`, or is 0 with nothing found there, for `BasicRiskScorer`; and for the other two each
good entry whose key begins with the address and whose score is another comes after one with that score. -/
theorem recalls_iff (config : BasicRiskScorerConfig) (address : String) (now : Time) :
    (∀ calls, Recalls getRiskScore (Runs.exec (basicNext config) {} calls) address now ↔
      ∀ best, IsGreatest ((Runs.exec (basicNext config) {} calls).scores address now) best →
        UnderCached (Runs.exec (basicNext config) {} calls) address now best) ∧
    (∀ calls, Recalls Chainalysis.getRiskScore (Runs.exec Chainalysis.next {} calls) address now ↔
      ∀ best, IsGreatest ((Runs.exec Chainalysis.next {} calls).scores address now) best →
        Foremost (Runs.exec Chainalysis.next {} calls) address now best) ∧
    ∀ calls, Recalls Trm.getRiskScore (Runs.exec Trm.next {} calls) address now ↔
      ∀ best, IsGreatest ((Runs.exec Trm.next {} calls).scores address now) best →
        Foremost (Runs.exec Trm.next {} calls) address now best :=
  ⟨fun calls => basic_recalls_iff
      (Runs.exec_inv' (I := Memory.Sound) (fun _ c h => basicNext_sound h c) empty_sound calls),
    fun _ => scan_recalls_iff, fun _ => scan_recalls_iff⟩

/-- An address, and one that begins like it and was screened before. -/
def prefixed : List ReportCall := [⟨"0xabc1", "1", 0, 0⟩, ⟨"0xabc", "1", 0, 0⟩]

def Memory.found (m : Memory V) : List (String × ℚ) := m.findings.map fun x => (x.address, Scored.score x.value)

/-- An address that was screened with 61 is remembered with 0, and one is taken for another that begins like it. -/
theorem scores_not_recalled :
    ((basicNext {} {} ⟨none, "0x0000000000000000000000000000000000000125", "1", 0, 0⟩).found =
        [("0x0000000000000000000000000000000000000125", 61)] ∧
      getRiskScore "0x0000000000000000000000000000000000000125" 1
        (basicNext {} {} ⟨none, "0x0000000000000000000000000000000000000125", "1", 0, 0⟩).cache = 0) ∧
    ((Runs.exec Chainalysis.next {} prefixed).found = [("0xabc1", 41), ("0xabc", 52)] ∧
      Chainalysis.getRiskScore "0xabc" 1 (Runs.exec Chainalysis.next {} prefixed).cache = 41) ∧
    (Runs.exec Trm.next {} prefixed).found = [("0xabc1", 51), ("0xabc", 42)] ∧
      Trm.getRiskScore "0xabc" 1 (Runs.exec Trm.next {} prefixed).cache = 51 := by
  decide +kernel

end NexoraGateway.Compliance
