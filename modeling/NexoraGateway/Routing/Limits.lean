import NexoraGateway.Routing.Ranking

/-!
# The limits of a merchant (route-scorer.ts:17, route-engine.ts:65, :135)

`max_fee` and `max_time` are documented as the most that is acceptable. They only scale the two scores: a quote beyond
them scores 0 there, and is still selected and still listed. Scores are those of `RouteScorer.score`, so that of two
quotes with the same score the first is selected.

* `selectBest_within_iff` — when the selected quote respects the limits.
* `limits_iff` — what the quotes must be like for `selectBestRoute` and `getAllRoutes` to respect them.
-/
namespace NexoraGateway.Routing

/-- `getAllRoutes` (route-engine.ts:135), or `none` as long as it waits. It asks providers with open circuits too. -/
def getAllRoutes (preferences : MerchantPreferences) (registry : ProviderRegistry) (params : RouteQuoteParams)
    (now : Time) (endings : List Ending) : Option (List (RouteQuote × RouteScore)) :=
  let providers := registry.getSupportedProviders params.sourceChain params.targetChain
  if providers = [] then some []
  else
    (allSettled (fetchQuotesParallel providers endings)).map fun quotes =>
      RouteScorer.rank preferences (quotes.filter fun quote => now < quote.expiresAt)

/-- The quote costs and takes no more than is acceptable. -/
def MerchantPreferences.Accepts (preferences : MerchantPreferences) (quote : RouteQuote) : Prop :=
  quote.estimatedFee ≤ preferences.maxFee ∧ quote.estimatedTime ≤ preferences.maxTime

instance (preferences : MerchantPreferences) : DecidablePred preferences.Accepts :=
  fun _ => inferInstanceAs (Decidable (_ ∧ _))

/-- What is selected is acceptable; and if none of the quotes is, nothing is selected. -/
structure Accepted (preferences : MerchantPreferences) (quotes : List RouteQuote)
    (result : Except RoutingError (RouteQuote × RouteScore)) : Prop where
  selected : ∀ best, result = .ok best → preferences.Accepts best.1
  none : (∀ quote ∈ quotes, ¬ preferences.Accepts quote) → result = .error .noValidQuotes

/-- Another quote scores more, or as much and comes earlier. -/
def Beaten (preferences : MerchantPreferences) (before : List RouteQuote) (quote : RouteQuote)
    (after : List RouteQuote) : Prop :=
  (∃ other ∈ before, (RouteScorer.score preferences quote).totalScore ≤
      (RouteScorer.score preferences other).totalScore) ∨
    ∃ other ∈ after, (RouteScorer.score preferences quote).totalScore <
      (RouteScorer.score preferences other).totalScore

/-- Every quote beyond the limits is beaten. -/
def LimitsDecide (preferences : MerchantPreferences) (quotes : List RouteQuote) : Prop :=
  ∀ before quote after, quotes = before ++ quote :: after → ¬ preferences.Accepts quote →
    Beaten preferences before quote after

/-- The quotes that are still good. -/
abbrev validQuotes (now : Time) (quotes : List RouteQuote) : List RouteQuote :=
  quotes.filter fun quote => now < quote.expiresAt

variable {config : RouteEngineConfig} {preferences : MerchantPreferences} {registry : ProviderRegistry}
  {params : RouteQuoteParams} {now : Time} {endings : List Ending} {quotes before after : List RouteQuote}
  {quote : RouteQuote}

theorem not_beaten_iff : ¬ Beaten preferences before quote after ↔
    (∀ other ∈ before, (RouteScorer.score preferences other).totalScore <
        (RouteScorer.score preferences quote).totalScore) ∧
      ∀ other ∈ after, (RouteScorer.score preferences other).totalScore ≤
        (RouteScorer.score preferences quote).totalScore := by
  unfold Beaten
  push Not
  exact Iff.rfl

namespace RouteScorer

/-- A quote that is not beaten is the one that is selected. -/
theorem selectBest_of_not_beaten (h : ¬ Beaten preferences before quote after) :
    selectBest preferences (before ++ quote :: after) = some (scored preferences quote) := by
  obtain ⟨hbefore, hafter⟩ := not_beaten_iff.1 h
  clear h
  induction before with
  | nil =>
    rw [List.nil_append, selectBest, rank, List.map_cons, List.insertionSort_cons_of_forall_rel, List.head?_cons]
    intro entry hentry
    obtain ⟨other, hother, rfl⟩ := List.mem_map.1 hentry
    exact hafter other hother
  | cons first before ih =>
    have hfirst := hbefore first List.mem_cons_self
    obtain ⟨entries, hrank⟩ := List.head?_eq_some_iff.1
      (ih fun other hother => hbefore other (List.mem_cons_of_mem first hother))
    -- the first quote scores less than the head of the rest, so it is put behind it
    rw [rank] at hrank
    rw [List.cons_append, selectBest, rank, List.map_cons, List.insertionSort_cons, hrank, List.orderedInsert_cons,
      if_neg (not_le.2 hfirst), List.head?_cons]

end RouteScorer

/-- Of any quotes, one is not beaten. -/
theorem exists_not_beaten (preferences : MerchantPreferences) (h : quotes ≠ []) :
    ∃ before quote after, quotes = before ++ quote :: after ∧ ¬ Beaten preferences before quote after := by
  induction quotes with
  | nil => exact absurd rfl h
  | cons first rest ih =>
    by_cases hrest : rest = []
    · subst hrest
      exact ⟨[], first, [], rfl, not_beaten_iff.2 ⟨nofun, nofun⟩⟩
    · obtain ⟨before, quote, after, rfl, hbest⟩ := ih hrest
      obtain ⟨hbefore, hafter⟩ := not_beaten_iff.1 hbest
      by_cases hle : (RouteScorer.score preferences quote).totalScore ≤ (RouteScorer.score preferences first).totalScore
      · refine ⟨[], first, _, rfl, not_beaten_iff.2 ⟨nofun, fun other hother => ?_⟩⟩
        rcases List.mem_append.1 hother with hother | hother
        · exact (hbefore other hother).le.trans hle
        · rcases List.mem_cons.1 hother with rfl | hother
          · exact hle
          · exact (hafter other hother).trans hle
      · refine ⟨first :: before, quote, after, rfl, not_beaten_iff.2 ⟨fun other hother => ?_, hafter⟩⟩
        rcases List.mem_cons.1 hother with rfl | hother
        · exact not_le.1 hle
        · exact hbefore other hother

/-- **What is selected is acceptable just when** every quote beyond the limits is beaten. -/
theorem selectBest_within_iff :
    (∀ best, RouteScorer.selectBest preferences quotes = some best → preferences.Accepts best.1) ↔
      LimitsDecide preferences quotes := by
  constructor
  · rintro h before quote after rfl hbeyond
    by_contra hbest
    exact hbeyond (h _ (RouteScorer.selectBest_of_not_beaten hbest))
  · intro h best hselected
    by_cases hnone : quotes = []
    · subst hnone
      exact nomatch hselected
    · obtain ⟨before, quote, after, rfl, hbest⟩ := exists_not_beaten preferences hnone
      rw [RouteScorer.selectBest_of_not_beaten hbest] at hselected
      obtain rfl := Option.some.inj hselected
      by_contra hbeyond
      exact hbest (h before quote after rfl hbeyond)

/-! ## The engine -/

theorem choose_eq (config : RouteEngineConfig) (preferences : MerchantPreferences) (now : Time)
    (quotes : List RouteQuote) : choose config preferences now quotes =
      if ((validQuotes now quotes).length : ℚ) < config.minQuotesRequired then .error .noValidQuotes
      else ((RouteScorer.selectBest preferences (validQuotes now quotes)).map Except.ok).getD
        (.error .noValidQuotes) := by
  by_cases hfew : ((validQuotes now quotes).length : ℚ) < config.minQuotesRequired
  · rw [if_pos hfew]
    exact if_pos hfew
  · rw [if_neg hfew]
    refine (if_neg hfew).trans ?_
    cases RouteScorer.selectBest preferences (validQuotes now quotes) <;> rfl

/-- Too few valid quotes, or those of them that are beyond the limits are beaten. -/
theorem choose_accepted_iff : Accepted preferences quotes (choose config preferences now quotes) ↔
    ((validQuotes now quotes).length : ℚ) < config.minQuotesRequired ∨
      LimitsDecide preferences (validQuotes now quotes) := by
  rw [← selectBest_within_iff, choose_eq]
  have hmem {best : RouteQuote × RouteScore}
      (hbest : RouteScorer.selectBest preferences (validQuotes now quotes) = some best) : best.1 ∈ quotes := by
    obtain ⟨⟨quote, hquote, rfl⟩, -⟩ := RouteScorer.selectBest_spec hbest
    exact List.mem_of_mem_filter hquote
  by_cases hfew : ((validQuotes now quotes).length : ℚ) < config.minQuotesRequired
  · rw [if_pos hfew]
    exact iff_of_true ⟨fun _ hok => (nomatch hok), fun _ => rfl⟩ (.inl hfew)
  · rw [if_neg hfew, or_iff_right hfew]
    cases hbest : RouteScorer.selectBest preferences (validQuotes now quotes) with
    | none => exact iff_of_true ⟨fun _ hok => (nomatch hok), fun _ => rfl⟩ fun _ hok => (nomatch hok)
    | some best =>
      constructor
      · rintro h _ ⟨⟩
        exact h.selected best rfl
      · intro h
        refine ⟨fun best' hok => ?_, fun hbeyond => absurd (h best rfl) (hbeyond best.1 (hmem hbest))⟩
        obtain rfl := Except.ok.inj hok
        exact h best rfl

theorem getAllRoutes_eq (preferences : MerchantPreferences) (registry : ProviderRegistry) (params : RouteQuoteParams)
    (now : Time) (endings : List Ending) : getAllRoutes preferences registry params now endings =
      (allSettled (fetchQuotesParallel
        (registry.getSupportedProviders params.sourceChain params.targetChain) endings)).map fun quotes =>
          RouteScorer.rank preferences (validQuotes now quotes) := by
  unfold getAllRoutes
  by_cases hnobody : registry.getSupportedProviders params.sourceChain params.targetChain = []
  · rw [if_pos hnobody, hnobody, fetchQuotesParallel_eq]
    rfl
  · rw [if_neg hnobody]

/-- **The limits are respected just when**, for the route that is selected, fewer quotes are valid than are required
or each valid one beyond the limits is beaten by another; and for the routes that are listed, when no valid quote is
beyond them. -/
theorem limits_iff (config : RouteEngineConfig) (preferences : MerchantPreferences) (registry : ProviderRegistry)
    (params : RouteQuoteParams) (now : Time) (endings : List Ending) :
    ((∀ quotes result, allSettled (fetchQuotesParallel (asked config registry params) endings) = some quotes →
        selectBestRoute config preferences registry params now endings = some result →
        Accepted preferences quotes result) ↔
      ∀ quotes, allSettled (fetchQuotesParallel (asked config registry params) endings) = some quotes →
        ((validQuotes now quotes).length : ℚ) < config.minQuotesRequired ∨
          LimitsDecide preferences (validQuotes now quotes)) ∧
    ((∀ routes, getAllRoutes preferences registry params now endings = some routes →
        ∀ route ∈ routes, preferences.Accepts route.1) ↔
      ∀ quotes, allSettled (fetchQuotesParallel
          (registry.getSupportedProviders params.sourceChain params.targetChain) endings) = some quotes →
        ∀ quote ∈ validQuotes now quotes, preferences.Accepts quote) := by
  rw [selectBestRoute_eq, getAllRoutes_eq]
  constructor
  · cases allSettled (fetchQuotesParallel (asked config registry params) endings) with
    | none => exact iff_of_true (fun _ _ hsettled => (nomatch hsettled)) fun _ hsettled => (nomatch hsettled)
    | some quotes =>
      constructor
      · rintro h _ ⟨⟩
        exact choose_accepted_iff.1 (h quotes _ rfl rfl)
      · rintro h _ result ⟨⟩ hresult
        obtain rfl := Option.some.inj hresult
        exact choose_accepted_iff.2 (h quotes rfl)
  · cases allSettled (fetchQuotesParallel
        (registry.getSupportedProviders params.sourceChain params.targetChain) endings) with
    | none => exact iff_of_true (fun _ hroutes => (nomatch hroutes)) fun _ hsettled => (nomatch hsettled)
    | some quotes =>
      rw [Option.map_some]
      constructor
      · rintro h _ ⟨⟩ quote hquote
        exact h _ rfl _ (RouteScorer.mem_rank.2 ⟨quote, hquote, rfl⟩)
      · rintro h routes hroutes route hroute
        obtain rfl := Option.some.inj hroutes
        obtain ⟨quote, hquote, rfl⟩ := RouteScorer.mem_rank.1 hroute
        exact h quotes rfl quote hquote

/-- The only quote costs 500 where 100 is the most that is acceptable: it is selected and listed. -/
theorem limits_exceeded :
    ¬ MerchantPreferences.Accepts {} (sampleQuote "LiFi" 500) ∧
      selectBestRoute {} {} ⟨[⟨"LiFi", ["ethereum", "tron"], some true⟩], by decide⟩
          ⟨"ethereum", "USDC", 1, "tron", "USDT", 1⟩ 1000 [("LiFi", .resolves (sampleQuote "LiFi" 500))] =
        some (.ok (RouteScorer.scored {} (sampleQuote "LiFi" 500))) ∧
      getAllRoutes {} ⟨[⟨"LiFi", ["ethereum", "tron"], some true⟩], by decide⟩
          ⟨"ethereum", "USDC", 1, "tron", "USDT", 1⟩ 1000 [("LiFi", .resolves (sampleQuote "LiFi" 500))] =
        some [RouteScorer.scored {} (sampleQuote "LiFi" 500)] := by
  decide +kernel

end NexoraGateway.Routing
