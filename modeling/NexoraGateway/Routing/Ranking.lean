import Mathlib.Tactic.GCongr
import Mathlib.Tactic.Linarith
import NexoraGateway.Routing.Engine

/-!
# The ranking of quotes (route-scorer.ts:36-108)

`rank` sorts by the total score and keeps quotes of equal score in their order; each component of a score lies in
[0, 1], and what is cheaper, faster, safer and more reliable never scores less.

* `normalizeBelow_antitone`, `normalizePercent_mono` — the components, which is all that is clamped.
* `totalScore_le_of_dominates` — their weighted sum.
* `rank_sound` — everything about the ranking at once.
-/
namespace NexoraGateway.Routing

/-! ## The components -/

section
variable {limit x y : ℚ}

theorem normalizeBelow_nonneg : 0 ≤ normalizeBelow limit x := by
  unfold normalizeBelow
  split_ifs with hfree hlimit
  · exact zero_le_one
  · exact le_rfl
  · exact le_max_left 0 _

theorem normalizeBelow_le_one (hlimit : 0 < limit) : normalizeBelow limit x ≤ 1 := by
  unfold normalizeBelow
  split_ifs with hfree
  · exact le_rfl
  · exact zero_le_one
  · have hshare : 0 ≤ x / limit := div_nonneg (le_of_not_ge hfree) hlimit.le
    exact max_le zero_le_one (by linarith)

/-- Less fee or time never scores less. Nothing and less than nothing score 1, the most there is. -/
theorem normalizeBelow_antitone (hlimit : 0 < limit) (h : x ≤ y) : normalizeBelow limit y ≤ normalizeBelow limit x := by
  by_cases hx : x ≤ 0
  · rw [normalizeBelow.eq_def limit x, if_pos hx]
    exact normalizeBelow_le_one hlimit
  · have hy : ¬ y ≤ 0 := fun hy => hx (h.trans hy)
    simp only [normalizeBelow, if_neg hx, if_neg hy, if_neg hlimit.ne']
    gcongr

theorem normalizePercent_nonneg : 0 ≤ normalizePercent x := le_max_left 0 _

theorem normalizePercent_le_one : normalizePercent x ≤ 1 := max_le zero_le_one (min_le_left 1 _)

theorem normalizePercent_mono (h : x ≤ y) : normalizePercent x ≤ normalizePercent y := by
  unfold normalizePercent
  gcongr

end

/-- No weight is negative, and there is a limit on either cost. -/
structure MerchantPreferences.Sensible (preferences : MerchantPreferences) : Prop where
  feeWeight : 0 ≤ preferences.feeWeight
  timeWeight : 0 ≤ preferences.timeWeight
  securityWeight : 0 ≤ preferences.securityWeight
  reliabilityWeight : 0 ≤ preferences.reliabilityWeight
  maxFee : 0 < preferences.maxFee
  maxTime : 0 < preferences.maxTime

theorem default_sensible : MerchantPreferences.Sensible {} := by
  constructor <;> norm_num

/-- A quote is in no respect worse than another one. -/
structure RouteQuote.Dominates (quote other : RouteQuote) : Prop where
  fee : quote.estimatedFee ≤ other.estimatedFee
  time : quote.estimatedTime ≤ other.estimatedTime
  security : other.securityScore ≤ quote.securityScore
  reliability : other.reliabilityScore ≤ quote.reliabilityScore

/-- Each component is a share. -/
structure RouteScore.Normalized (score : RouteScore) : Prop where
  fee : 0 ≤ score.feeScore ∧ score.feeScore ≤ 1
  time : 0 ≤ score.timeScore ∧ score.timeScore ≤ 1
  security : 0 ≤ score.securityScore ∧ score.securityScore ≤ 1
  reliability : 0 ≤ score.reliabilityScore ∧ score.reliabilityScore ≤ 1

namespace RouteScorer

variable {preferences : MerchantPreferences} {quote other : RouteQuote} {quotes : List RouteQuote}

theorem score_normalized (h : preferences.Sensible) (quote : RouteQuote) : (score preferences quote).Normalized where
  fee := ⟨normalizeBelow_nonneg, normalizeBelow_le_one h.maxFee⟩
  time := ⟨normalizeBelow_nonneg, normalizeBelow_le_one h.maxTime⟩
  security := ⟨normalizePercent_nonneg, normalizePercent_le_one⟩
  reliability := ⟨normalizePercent_nonneg, normalizePercent_le_one⟩

/-- **Pareto**: what is dominated scores no more. -/
theorem totalScore_le_of_dominates (h : preferences.Sensible) (hdom : quote.Dominates other) :
    (score preferences other).totalScore ≤ (score preferences quote).totalScore := by
  have hfee : normalizeFeeScore preferences other.estimatedFee ≤ normalizeFeeScore preferences quote.estimatedFee :=
    normalizeBelow_antitone h.maxFee hdom.fee
  have htime : normalizeTimeScore preferences other.estimatedTime ≤
      normalizeTimeScore preferences quote.estimatedTime := normalizeBelow_antitone h.maxTime hdom.time
  have hsecurity : normalizeSecurityScore other.securityScore ≤ normalizeSecurityScore quote.securityScore :=
    normalizePercent_mono hdom.security
  have hreliability : normalizeReliabilityScore other.reliabilityScore ≤
      normalizeReliabilityScore quote.reliabilityScore := normalizePercent_mono hdom.reliability
  exact add_le_add
    (add_le_add
      (add_le_add (mul_le_mul_of_nonneg_right hfee h.feeWeight) (mul_le_mul_of_nonneg_right htime h.timeWeight))
      (mul_le_mul_of_nonneg_right hsecurity h.securityWeight))
    (mul_le_mul_of_nonneg_right hreliability h.reliabilityWeight)

/-! ## The order -/

/-- What comes first in a ranking. -/
abbrev Before (a b : RouteQuote × RouteScore) : Prop := b.2.totalScore ≤ a.2.totalScore

instance : IsTrans (RouteQuote × RouteScore) Before := ⟨fun _ _ _ hab hbc => le_trans hbc hab⟩

instance : Std.Total Before := ⟨fun a b => le_total b.2.totalScore a.2.totalScore⟩

/-- A quote and its score. -/
abbrev scored (preferences : MerchantPreferences) (quote : RouteQuote) : RouteQuote × RouteScore :=
  (quote, score preferences quote)

theorem rank_perm (preferences : MerchantPreferences) (quotes : List RouteQuote) :
    (rank preferences quotes).Perm (quotes.map (scored preferences)) := List.perm_insertionSort _ _

theorem rank_sorted (preferences : MerchantPreferences) (quotes : List RouteQuote) :
    (rank preferences quotes).Pairwise Before := List.pairwise_insertionSort Before _

/-- Quotes that are in order already stay in it, in particular those of equal score. -/
theorem rank_stable {kept : List RouteQuote} (hsub : kept.Sublist quotes)
    (hsorted : kept.Pairwise fun a b => (score preferences b).totalScore ≤ (score preferences a).totalScore) :
    (kept.map (scored preferences)).Sublist (rank preferences quotes) :=
  List.sublist_insertionSort (List.pairwise_map.2 hsorted) (hsub.map _)

theorem mem_rank {entry : RouteQuote × RouteScore} :
    entry ∈ rank preferences quotes ↔ ∃ quote ∈ quotes, scored preferences quote = entry :=
  (rank_perm preferences quotes).mem_iff.trans List.mem_map

theorem selectBest_isSome (preferences : MerchantPreferences) (h : quotes ≠ []) :
    (selectBest preferences quotes).isSome := by
  have hlength : (rank preferences quotes).length = quotes.length := by
    rw [(rank_perm preferences quotes).length_eq, List.length_map]
  unfold selectBest
  cases hrank : rank preferences quotes with
  | nil =>
    rw [hrank] at hlength
    exact absurd (List.eq_nil_of_length_eq_zero hlength.symm) h
  | cons entry entries => rfl

/-- What is selected is a quote with its score, and none scores more. -/
theorem selectBest_spec {best : RouteQuote × RouteScore} (h : selectBest preferences quotes = some best) :
    (∃ quote ∈ quotes, scored preferences quote = best) ∧
      ∀ quote ∈ quotes, (score preferences quote).totalScore ≤ best.2.totalScore := by
  obtain ⟨entries, hrank⟩ := List.head?_eq_some_iff.1 h
  have hsorted := rank_sorted preferences quotes
  rw [hrank, List.pairwise_cons] at hsorted
  refine ⟨mem_rank.1 (hrank ▸ List.mem_cons_self), fun quote hquote => ?_⟩
  have hmem : scored preferences quote ∈ rank preferences quotes := mem_rank.2 ⟨quote, hquote, rfl⟩
  rw [hrank] at hmem
  rcases List.mem_cons.1 hmem with rfl | hmem
  · exact le_rfl
  · exact hsorted.1 _ hmem

/-- **The ranking** is a permutation of the quotes with their scores, in an order that does not rise and that keeps
those in order that were. The first of them is selected, if there is any, and has the greatest score. Each component is
a share, and a quote that is dominated does not score more. -/
theorem rank_sound (preferences : MerchantPreferences) (h : preferences.Sensible) (quotes : List RouteQuote) :
    (rank preferences quotes).Perm (quotes.map (scored preferences)) ∧
      (rank preferences quotes).Pairwise (fun a b => b.2.totalScore ≤ a.2.totalScore) ∧
      (∀ kept : List RouteQuote, kept.Sublist quotes →
        kept.Pairwise (fun a b => (score preferences b).totalScore ≤ (score preferences a).totalScore) →
        (kept.map (scored preferences)).Sublist (rank preferences quotes)) ∧
      selectBest preferences quotes = (rank preferences quotes)[0]? ∧
      (quotes ≠ [] → ∃ best, selectBest preferences quotes = some best ∧
        ∀ quote ∈ quotes, (score preferences quote).totalScore ≤ best.2.totalScore) ∧
      (∀ quote, (score preferences quote).Normalized) ∧
      ∀ quote other, quote.Dominates other →
        (score preferences other).totalScore ≤ (score preferences quote).totalScore := by
  refine ⟨rank_perm _ _, rank_sorted _ _, fun kept => rank_stable, List.head?_eq_getElem?, fun hne => ?_,
    score_normalized h, fun quote other => totalScore_le_of_dominates h⟩
  obtain ⟨best, hbest⟩ := Option.isSome_iff_exists.1 (selectBest_isSome preferences hne)
  exact ⟨best, hbest, (selectBest_spec hbest).2⟩

/-- Three quotes by the default preferences: the free one comes first, the other two keep their order. -/
theorem rank_sound_three :
    ((rank {} [sampleQuote "LiFi" 2, sampleQuote "Socket" 2, sampleQuote "Slow" 0]).map (·.1.provider)) =
        ["Slow", "LiFi", "Socket"] ∧
      (rank {} [sampleQuote "LiFi" 2, sampleQuote "Socket" 2, sampleQuote "Slow" 0]).Pairwise
        fun a b => b.2.totalScore ≤ a.2.totalScore :=
  ⟨by decide +kernel, (rank_sound {} default_sensible _).2.1⟩

end RouteScorer

end NexoraGateway.Routing
