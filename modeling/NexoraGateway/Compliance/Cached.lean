import NexoraGateway.Compliance.Gate
import NexoraGateway.Compliance.Scorer

/-!
# Whether a cached result is as good as a fresh one (basic-risk-scorer.ts:302)

The cache keeps the score, and the flags of a cached result are made from it: from 60 on the address is called new,
from 80 on sanctioned, while a fresh result is flagged by what the single factors say. `reusable_iff` says for which
configurations, providers and addresses the two agree: those whose weighted average stays below 59.995, which
rounds to less than 60, and the listed ones.

* `Filled` — a cache that has what a screening left.
* `calculateTotalScore_lt` — the rounding.
-/
namespace NexoraGateway.Compliance

open Store

variable {config : BasicRiskScorerConfig} {provider : SanctionsProvider} {address chain : String}
  {cache later : ScoreCache} {now answeredAt now' : Time} {fresh : RiskResult}

/-- `fresh` is what a screening answered that did not find the address in the cache, and `later`, at the time
`now'`, is a cache that still has what it left and for long enough. -/
def Filled (config : BasicRiskScorerConfig) (provider : SanctionsProvider) (address chain : String)
    (fresh : RiskResult) (later : ScoreCache) (now' : Time) : Prop :=
  ∃ cache now answeredAt, cached? cache address chain now = none ∧ 0 ≤ answeredAt ∧ answeredAt ≤ now' ∧
    (screenAddress config provider now answeredAt address chain cache).1 = fresh ∧
    later.get? (addressKey address chain) =
      (screenAddress config provider now answeredAt address chain cache).2.get? (addressKey address chain) ∧
    (cached? later address chain now').isSome

/-- What is answered from the cache is what was answered before, and the gate decides the same on it as on a result
of its own. -/
structure Reusable (config : BasicRiskScorerConfig) (provider : SanctionsProvider) (address chain : String) :
    Prop where
  result : ∀ fresh later now', Filled config provider address chain fresh later now' → ∀ answeredAt,
    let again := (screenAddress config provider now' answeredAt address chain later).1
    again.riskScore = fresh.riskScore ∧ again.riskLevel = fresh.riskLevel ∧ again.flags = fresh.flags
  addressDecision : ∀ fresh later now', Filled config provider address chain fresh later now' →
    ∀ cache, cached? cache address chain now' = none → ∀ answeredAt gate amount gateNow,
    (checkAddress gate (basicRiskScorer config provider now' answeredAt) address chain amount gateNow later).1 =
      (checkAddress gate (basicRiskScorer config provider now' answeredAt) address chain amount gateNow cache).1
  transactionDecision : ∀ fresh later now', Filled config provider address chain fresh later now' →
    ∀ cache, cached? cache address chain now' = none → ∀ answeredAt tx gateNow,
    tx.from = address → tx.chain = chain →
    (checkTransaction (basicRiskScorer config provider now' answeredAt) tx gateNow later).1 =
      (checkTransaction (basicRiskScorer config provider now' answeredAt) tx gateNow cache).1

/-! ## Scores -/

theorem screenAddress_miss (h : cached? cache address chain now = none) :
    screenAddress config provider now answeredAt address chain cache =
      (freshResult config (checkOf provider address chain) address chain answeredAt,
        cache.put (addressKey address chain,
          { score := (freshResult config (checkOf provider address chain) address chain answeredAt).riskScore
            expiresAt := toTime (answeredAt + config.cacheTtlSeconds * 1000) })) := by
  rw [screenAddress, h]
  rfl

theorem screenAddress_hit {cached : CachedScore} (h : cached? cache address chain now = some cached) :
    screenAddress config provider now answeredAt address chain cache =
      (buildCachedResult config address chain cached.score now, cache) := by
  rw [screenAddress, h]

/-- `Math.round` to two places reaches 60 from 59.995 on. -/
theorem calculateTotalScore_lt {factors : List Factor} :
    calculateTotalScore factors < 60 ↔ weightedAverage factors < 11999 / 200 := by
  have hround : Ecma.mathRound (weightedAverage factors * 100) < 6000 ↔
      weightedAverage factors * 100 + 1 / 2 < 6000 := by
    unfold Ecma.mathRound
    exact_mod_cast (Int.floor_lt (a := weightedAverage factors * 100 + 1 / 2) (z := 6000))
  rw [calculateTotalScore, div_lt_iff₀ (by norm_num)]
  constructor
  · intro h
    have := hround.1 (by linarith)
    linarith
  · intro h
    have := hround.2 (by linarith)
    linarith

/-- When the score tells the flags of a fresh result. -/
theorem flags_eq_iff {check : Option SanctionsCheck} :
    (buildCachedResult config address chain (freshResult config check address chain answeredAt).riskScore now).flags =
        (freshResult config check address chain answeredAt).flags ↔
      Listed check ∨ weightedAverage (calculateRiskFactors config check address) < 11999 / 200 := by
  rw [freshResult_flags, freshResult_score, ← calculateTotalScore_lt]
  by_cases hlisted : Listed check
  · have hhigh : (80 : ℚ) ≤ 100 := by norm_num
    simp [hlisted, buildCachedResult, hhigh]
  · simp only [hlisted, if_false, false_or, buildCachedResult]
    by_cases h80 : 80 ≤ calculateTotalScore (calculateRiskFactors config check address)
    · simp only [h80, if_true, List.cons_ne_nil, false_iff, not_lt]
      linarith
    · by_cases h60 : 60 ≤ calculateTotalScore (calculateRiskFactors config check address)
      · simp [h80, h60]
      · simp [h80, h60, not_le.1 h60]

/-! ## Hits -/

/-- A cache that has been filled answers from the score of the result that filled it. -/
theorem Filled.hit (h : Filled config provider address chain fresh later now') :
    (∃ answeredAt, fresh = freshResult config (checkOf provider address chain) address chain answeredAt) ∧
      ∀ answeredAt, (screenAddress config provider now' answeredAt address chain later).1 =
        buildCachedResult config address chain fresh.riskScore now' := by
  obtain ⟨cache, now, answeredAt, hmiss, -, -, rfl, hlater, hgood⟩ := h
  obtain ⟨cached, hhit⟩ := Option.isSome_iff_exists.1 hgood
  rw [screenAddress_miss hmiss] at hlater ⊢
  rw [Dict.get?_put, if_pos rfl] at hlater
  refine ⟨⟨answeredAt, rfl⟩, fun again => ?_⟩
  rw [screenAddress_hit hhit]
  rw [cached?, hlater] at hhit
  cases (Option.filter_eq_some_iff.1 hhit).1
  rfl

/-- Nothing is answered from the cache when its entries are never good for a millisecond. -/
theorem not_filled (httl : config.cacheTtlSeconds * 1000 < 1) :
    ¬ Filled config provider address chain fresh later now' := by
  rintro ⟨cache, now, answeredAt, hmiss, hstart, horder, -, hlater, hgood⟩
  rw [screenAddress_miss hmiss, Dict.get?_put, if_pos rfl] at hlater
  simp only [cached?, hlater, Option.isSome_filter, Option.any_some, decide_eq_true_iff] at hgood
  have hdate := (lt_toTime hstart).1 (lt_of_le_of_lt horder hgood)
  linarith

theorem screenedAddress_congr {risk risk' : RiskResult} {amount : ℚ} (hscore : risk.riskScore = risk'.riskScore)
    (hlevel : risk.riskLevel = risk'.riskLevel) (hflags : risk.flags = risk'.flags) :
    screenedAddress address chain amount risk now = screenedAddress address chain amount risk' now := by
  simp only [screenedAddress, hscore, hlevel, hflags]

theorem screenedTransaction_congr {risk risk' : RiskResult} {tx : TransactionInfo}
    (hscore : risk.riskScore = risk'.riskScore) (hflags : risk.flags = risk'.flags) :
    screenedTransaction tx (adjusted config tx risk) now = screenedTransaction tx (adjusted config tx risk') now := by
  cases risk
  cases risk'
  subst hscore hflags
  rfl

/-- What the flags decide: a filled cache answers as the screening that filled it, and as any other. -/
theorem Filled.same (h : Filled config provider address chain fresh later now')
    (hscore : Listed (checkOf provider address chain) ∨
      weightedAverage (calculateRiskFactors config (checkOf provider address chain) address) < 11999 / 200)
    (again answeredAt : Time) :
    let hit := (screenAddress config provider now' again address chain later).1
    let risk := freshResult config (checkOf provider address chain) address chain answeredAt
    hit.riskScore = risk.riskScore ∧ hit.riskLevel = risk.riskLevel ∧ hit.flags = risk.flags := by
  obtain ⟨⟨filledAt, rfl⟩, hhit⟩ := h.hit
  simp only [hhit]
  have hsame : (freshResult config (checkOf provider address chain) address chain filledAt).riskScore =
      (freshResult config (checkOf provider address chain) address chain answeredAt).riskScore := rfl
  rw [hsame]
  exact ⟨rfl, rfl, flags_eq_iff.2 hscore⟩

/-- `checkAddress` decides on a filled cache what it decides on a screening of its own. -/
theorem Filled.checkAddress (h : Filled config provider address chain fresh later now')
    (hscore : Listed (checkOf provider address chain) ∨
      weightedAverage (calculateRiskFactors config (checkOf provider address chain) address) < 11999 / 200)
    (hmiss : cached? cache address chain now' = none) (gate : ComplianceGate) (amount : ℚ) (gateNow : Time) :
    (checkAddress gate (basicRiskScorer config provider now' answeredAt) address chain amount gateNow later).1 =
      (checkAddress gate (basicRiskScorer config provider now' answeredAt) address chain amount gateNow cache).1 := by
  obtain ⟨hriskScore, hlevel, hflags⟩ := h.same hscore answeredAt answeredAt
  unfold Compliance.checkAddress
  cases blocked? gate address chain gateNow with
  | some result => rfl
  | none =>
    simp only [basicRiskScorer, screenAddress_miss hmiss, Except.map]
    rw [screenedAddress_congr hriskScore hlevel hflags]

/-- So does `checkTransaction`, of a transfer from the address. -/
theorem Filled.checkTransaction {tx : TransactionInfo} (h : Filled config provider tx.from tx.chain fresh later now')
    (hscore : Listed (checkOf provider tx.from tx.chain) ∨
      weightedAverage (calculateRiskFactors config (checkOf provider tx.from tx.chain) tx.from) < 11999 / 200)
    (hmiss : cached? cache tx.from tx.chain now' = none) (gateNow : Time) :
    (checkTransaction (basicRiskScorer config provider now' answeredAt) tx gateNow later).1 =
      (checkTransaction (basicRiskScorer config provider now' answeredAt) tx gateNow cache).1 := by
  obtain ⟨hriskScore, -, hflags⟩ := h.same hscore answeredAt answeredAt
  simp only [Compliance.checkTransaction, basicRiskScorer, screenTransaction, screenAddress_miss hmiss, Except.map]
  rw [screenedTransaction_congr hriskScore hflags]

/-- A first screening fills an empty cache for as long as its entries are good. -/
theorem filled_first (config : BasicRiskScorerConfig) (provider : SanctionsProvider) (address chain : String)
    (hstart : 0 ≤ now') (hgood : now' < toTime ((0 : Time) + config.cacheTtlSeconds * 1000)) :
    Filled config provider address chain (freshResult config (checkOf provider address chain) address chain 0)
      (screenAddress config provider 0 0 address chain Table.empty).2 now' := by
  have hmiss : cached? Table.empty address chain 0 = none := rfl
  refine ⟨Table.empty, 0, 0, hmiss, le_rfl, hstart, by rw [screenAddress_miss hmiss], rfl, ?_⟩
  rw [screenAddress_miss hmiss, cached?, Dict.get?_put, if_pos rfl, Option.isSome_filter, Option.any_some,
    decide_eq_true hgood]

/-- **What is cached is as good as what is fresh just when** nothing is cached for a millisecond, the address is
listed, or its weighted average stays below 59.995. -/
theorem reusable_iff (config : BasicRiskScorerConfig) (provider : SanctionsProvider) (address chain : String) :
    Reusable config provider address chain ↔
      config.cacheTtlSeconds * 1000 < 1 ∨ Listed (checkOf provider address chain) ∨
        weightedAverage (calculateRiskFactors config (checkOf provider address chain) address) < 11999 / 200 := by
  constructor
  · intro h
    by_contra! hno
    obtain ⟨httl, hscore⟩ := hno
    have hgood : (0 : Time) < toTime ((0 : Time) + config.cacheTtlSeconds * 1000) :=
      (lt_toTime le_rfl).2 (by push_cast; linarith)
    have hfilled := filled_first config provider address chain le_rfl hgood
    have hflags := (h.result _ _ _ hfilled 0).2.2
    rw [hfilled.hit.2 0] at hflags
    rcases flags_eq_iff.1 hflags with hlisted | hlow
    · exact hscore.1 hlisted
    · exact not_lt.2 hscore.2 hlow
  · rintro (httl | hscore)
    · exact ⟨fun _ _ _ h => absurd h (not_filled httl), fun _ _ _ h => absurd h (not_filled httl),
        fun _ _ _ h => absurd h (not_filled httl)⟩
    · refine ⟨fun fresh later now' hfilled answeredAt => ?_, fun fresh later now' hfilled cache hmiss answeredAt gate
        amount gateNow => hfilled.checkAddress hscore hmiss gate amount gateNow, ?_⟩
      · obtain ⟨filledAt, hfresh⟩ := hfilled.hit.1
        have hsame := hfilled.same hscore answeredAt filledAt
        rwa [← hfresh] at hsame
      · rintro fresh later now' hfilled cache hmiss answeredAt tx gateNow rfl rfl
        exact hfilled.checkTransaction hscore hmiss gateNow

/-! ## An address that is new the second time -/

/-- An address with the estimates 68, 43 and 72, screened without a sanctions provider: its average is 61. -/
def average61 : String := "0x0000000000000000000000000000000000000125"

theorem freshResult_average61 :
    (freshResult {} none average61 "1" 0).riskScore = 61 ∧ (freshResult {} none average61 "1" 0).flags = [] := by
  decide +kernel

/-- The first screening flags nothing, the one a second later calls the address new. -/
theorem new_when_cached :
    let first := screenAddress {} none 0 0 average61 "1" Table.empty
    let second := screenAddress {} none 1000 1000 average61 "1" first.2
    first.1.riskScore = 61 ∧ first.1.flags = [] ∧ second.1.riskScore = 61 ∧ second.1.flags = [.newAddress] ∧
      ¬ Reusable {} none average61 "1" := by
  obtain ⟨hscore, hflags⟩ := freshResult_average61
  have hfirst : (screenAddress {} none 0 0 average61 "1" Table.empty).1 = freshResult {} none average61 "1" 0 := by
    rw [screenAddress_miss rfl]
    rfl
  have hfilled := filled_first {} none average61 "1" (show (0 : Time) ≤ 1000 by decide) (by decide +kernel)
  have hsecond : (screenAddress {} none 1000 1000 average61 "1"
      (screenAddress {} none 0 0 average61 "1" Table.empty).2).1 = buildCachedResult {} average61 "1" 61 1000 :=
    hscore ▸ hfilled.hit.2 1000
  intro first second
  rw [show second.1 = buildCachedResult {} average61 "1" 61 1000 from hsecond]
  refine ⟨hfirst ▸ hscore, hfirst ▸ hflags, rfl, by decide +kernel, fun h => ?_⟩
  have hcached := (h.result _ _ _ hfilled 1000).2.2
  rw [hsecond] at hcached
  exact absurd (hcached.trans hflags) (by decide +kernel)

end NexoraGateway.Compliance
