import NexoraGateway.Async.Runs
import NexoraGateway.Routing.Scorer
import NexoraGateway.Store.Table

/-!
# Selecting a route (`routing-engine/src/route-engine.ts`, `provider-registry.ts`)

`selectBestRoute` asks every provider for a quote at once and waits until each has come to an end: `Promise.race`
gives it to the first of the quote, its rejection and the timer. The model runs over these ends in the order in
which they come.
-/
namespace NexoraGateway.Routing

open Async.Runs Store

/-- `RouteQuoteParams` (routing.ts:36). -/
structure RouteQuoteParams where
  sourceChain : String
  sourceAsset : String
  sourceAmount : ℚ
  targetChain : String
  targetAsset : String
  targetAmount : ℚ

/-- What the engine asks an `IRouteProvider` without waiting. `isHealthy` is `none` for a provider that has no such
method. -/
structure Provider where
  name : String
  supportedChains : List String
  isHealthy : Option Bool := none
  deriving DecidableEq

/-- `ProviderRegistry` (provider-registry.ts:10): a `Map` by name, in the order of registration. -/
abbrev ProviderRegistry : Type := Table Provider.name

namespace ProviderRegistry

/-- `register` (provider-registry.ts:16). -/
def register (registry : ProviderRegistry) (provider : Provider) : Except String ProviderRegistry :=
  match registry.insert? provider with
  | none => .error ("Provider already registered: " ++ provider.name)
  | some registry => .ok registry

/-- `unregister` (provider-registry.ts:27). -/
def unregister (registry : ProviderRegistry) (name : String) : ProviderRegistry := registry.erase name

/-- `getSupportedProviders` (provider-registry.ts:55). -/
def getSupportedProviders (registry : ProviderRegistry) (sourceChain targetChain : String) : List Provider :=
  registry.rows.filter fun provider =>
    provider.supportedChains.contains sourceChain && provider.supportedChains.contains targetChain

end ProviderRegistry

/-- `RouteEngineConfig` (:29) with the values of `DEFAULT_ENGINE_CONFIG`. How long a timer runs is for the order of
the events to say. -/
structure RouteEngineConfig where
  minQuotesRequired : ℚ := 1
  skipOpenCircuits : Bool := true

inductive RoutingError where
  | noValidQuotes
  deriving DecidableEq

/-- The message of a `NoValidQuotesError` (shared/src/errors/index.ts:60). -/
def RoutingError.message : RoutingError → String
  | .noValidQuotes => "No valid quotes available from any provider"

/-! ## One race -/

/-- How a quote or its timer ends. -/
inductive Settlement where
  | resolves (quote : RouteQuote)
  | rejects
  | timesOut
  deriving DecidableEq

/-- What `fetchQuotesParallel` has of a provider: nothing yet, a quote, or `null`. -/
inductive Slot where
  | pending
  | fulfilled (quote : RouteQuote)
  | discarded
  deriving DecidableEq

/-- `Promise.race` (:178) with the `catch` around it: the first to end decides. -/
def Slot.settle : Slot → Settlement → Slot
  | .pending, .resolves quote => .fulfilled quote
  | .pending, .rejects | .pending, .timesOut => .discarded
  | slot, _ => slot

def Slot.quote? : Slot → Option RouteQuote
  | .fulfilled quote => some quote
  | .pending | .discarded => none

/-! ## The selection -/

/-- The providers that are asked (:67). -/
def asked (config : RouteEngineConfig) (registry : ProviderRegistry) (params : RouteQuoteParams) : List Provider :=
  let providers := registry.getSupportedProviders params.sourceChain params.targetChain
  if config.skipOpenCircuits then providers.filter fun provider => provider.isHealthy.getD true else providers

/-- The name of a provider and an end of its race. -/
abbrev Ending : Type := String × Settlement

def settleSlots (slots : List (Provider × Slot)) (ending : Ending) : List (Provider × Slot) :=
  slots.map fun (provider, slot) => (provider, if provider.name = ending.1 then slot.settle ending.2 else slot)

/-- `fetchQuotesParallel` (:171), up to `Promise.allSettled`. -/
def fetchQuotesParallel (providers : List Provider) (endings : List Ending) : List (Provider × Slot) :=
  exec settleSlots (providers.map fun provider => (provider, .pending)) endings

/-- `Promise.allSettled` (:202): the quotes, once no slot is pending. -/
def allSettled (slots : List (Provider × Slot)) : Option (List RouteQuote) :=
  if ∃ slot ∈ slots, slot.2 = .pending then none else some (slots.filterMap fun slot => slot.2.quote?)

/-- What is made of the quotes (:88), `now` being the instant at which their expiry is tested. -/
def choose (config : RouteEngineConfig) (preferences : MerchantPreferences) (now : Time) (quotes : List RouteQuote) :
    Except RoutingError (RouteQuote × RouteScore) :=
  let validQuotes := quotes.filter fun quote => now < quote.expiresAt
  if (validQuotes.length : ℚ) < config.minQuotesRequired then .error .noValidQuotes
  else
    match RouteScorer.selectBest preferences validQuotes with
    | none => .error .noValidQuotes
    | some result => .ok result

/-- `selectBestRoute` (:65), or `none` as long as it waits. -/
def selectBestRoute (config : RouteEngineConfig) (preferences : MerchantPreferences) (registry : ProviderRegistry)
    (params : RouteQuoteParams) (now : Time) (endings : List Ending) :
    Option (Except RoutingError (RouteQuote × RouteScore)) :=
  let providers := asked config registry params
  if providers = [] then some (.error .noValidQuotes)
  else (allSettled (fetchQuotesParallel providers endings)).map (choose config preferences now)

/-! ## A race is decided by its first end -/

/-- The first end that the race of a provider comes to. -/
def firstEnding (endings : List Ending) (name : String) : Option Settlement :=
  (endings.find? fun ending => ending.1 = name).map Prod.snd

/-- The slot of a provider after its race has come to these ends. -/
def Slot.after (slot : Slot) : Option Settlement → Slot
  | none => slot
  | some settlement => slot.settle settlement

@[simp] theorem Slot.after_none (slot : Slot) : slot.after none = slot := rfl
@[simp] theorem Slot.after_some (slot : Slot) (s : Settlement) : slot.after (some s) = slot.settle s := rfl

@[simp] theorem Slot.settle_settle (slot : Slot) (s s' : Settlement) : (slot.settle s).settle s' = slot.settle s := by
  cases slot with
  | pending => cases s <;> rfl
  | fulfilled quote => rfl
  | discarded => rfl

@[simp] theorem Slot.after_settle (slot : Slot) (s : Settlement) (s' : Option Settlement) :
    (slot.settle s).after s' = slot.settle s := by
  cases s' with
  | none => rfl
  | some s' => exact slot.settle_settle s s'

theorem firstEnding_cons_self (name : String) (s : Settlement) (endings : List Ending) :
    firstEnding ((name, s) :: endings) name = some s := by
  simp [firstEnding]

theorem firstEnding_cons_of_ne {name name' : String} (h : name' ≠ name) (s : Settlement) (endings : List Ending) :
    firstEnding ((name', s) :: endings) name = firstEnding endings name := by
  simp [firstEnding, h]

theorem exec_settleSlots (slots : List (Provider × Slot)) (endings : List Ending) :
    exec settleSlots slots endings =
      slots.map fun (provider, slot) => (provider, slot.after (firstEnding endings provider.name)) := by
  induction endings generalizing slots with
  | nil => exact (List.map_id slots).symm
  | cons ending endings ih =>
    obtain ⟨name, s⟩ := ending
    rw [exec_cons, ih, settleSlots, List.map_map]
    refine List.map_congr_left fun ⟨provider, slot⟩ _ => ?_
    by_cases hname : provider.name = name
    · subst hname
      simp [firstEnding_cons_self]
    · simp [firstEnding_cons_of_ne (Ne.symm hname), hname]

/-- **The slots** do not depend on the order in which different providers come to an end. -/
theorem fetchQuotesParallel_eq (providers : List Provider) (endings : List Ending) :
    fetchQuotesParallel providers endings =
      providers.map fun provider => (provider, Slot.pending.after (firstEnding endings provider.name)) := by
  rw [fetchQuotesParallel, exec_settleSlots, List.map_map]
  rfl

/-- Discarded slots can be left out. -/
theorem allSettled_filter {slots : List (Provider × Slot)} {p : Provider × Slot → Bool}
    (h : ∀ slot ∈ slots, p slot = false → slot.2 = .discarded) : allSettled (slots.filter p) = allSettled slots := by
  have hkept : ∀ slot ∈ slots, slot.2 ≠ .discarded → p slot = true := fun slot hslot hne =>
    (Bool.eq_false_or_eq_true (p slot)).resolve_right fun hp => hne (h slot hslot hp)
  have hpending : (∃ slot ∈ slots.filter p, slot.2 = .pending) ↔ ∃ slot ∈ slots, slot.2 = .pending := by
    constructor
    · rintro ⟨slot, hslot, hwaits⟩
      exact ⟨slot, List.mem_of_mem_filter hslot, hwaits⟩
    · rintro ⟨slot, hslot, hwaits⟩
      exact ⟨slot, List.mem_filter.2 ⟨hslot, hkept slot hslot (by simp [hwaits])⟩, hwaits⟩
  have hquotes : ((slots.filter p).filterMap fun slot => slot.2.quote?) =
      slots.filterMap fun slot => slot.2.quote? := by
    rw [List.filterMap_filter]
    refine List.filterMap_congr fun slot hslot => ?_
    cases hp : p slot with
    | true => rfl
    | false => simp [h slot hslot hp, Slot.quote?]
  rw [allSettled, allSettled, hquotes]
  simp only [hpending]

theorem choose_nil (config : RouteEngineConfig) (preferences : MerchantPreferences) (now : Time) :
    choose config preferences now [] = .error .noValidQuotes := by
  simp [choose]

/-- Where there is nobody to ask, the selection ends as it would with no quotes. -/
theorem selectBestRoute_eq (config : RouteEngineConfig) (preferences : MerchantPreferences)
    (registry : ProviderRegistry) (params : RouteQuoteParams) (now : Time) (endings : List Ending) :
    selectBestRoute config preferences registry params now endings =
      (allSettled (fetchQuotesParallel (asked config registry params) endings)).map
        (choose config preferences now) := by
  unfold selectBestRoute
  by_cases hnobody : asked config registry params = []
  · rw [if_pos hnobody, hnobody, fetchQuotesParallel_eq]
    simp [allSettled, choose_nil]
  · rw [if_neg hnobody]

/-! ## Providers that fail -/

/-- The provider is passed over as its circuit is open, or its quote is rejected, or the timer comes first. -/
def Fails (config : RouteEngineConfig) (registry : ProviderRegistry) (endings : List Ending) (name : String) : Prop :=
  (config.skipOpenCircuits = true ∧ ∃ provider ∈ registry.find? name, provider.isHealthy = some false) ∨
    firstEnding endings name = some .rejects ∨ firstEnding endings name = some .timesOut

/-- The registry once these providers are unregistered. -/
def ProviderRegistry.without (registry : ProviderRegistry) (names : List String) : ProviderRegistry :=
  names.foldl unregister registry

theorem rows_without (registry : ProviderRegistry) (names : List String) :
    (registry.without names).rows = registry.rows.filter fun provider => provider.name ∉ names := by
  induction names generalizing registry with
  | nil => simp [ProviderRegistry.without]
  | cons name names ih =>
    refine (ih (registry.unregister name)).trans ?_
    rw [ProviderRegistry.unregister, Table.erase, List.filter_filter]
    refine List.filter_congr fun provider _ => ?_
    simp [Bool.and_comm]

theorem asked_without (config : RouteEngineConfig) (registry : ProviderRegistry) (params : RouteQuoteParams)
    (names : List String) : asked config (registry.without names) params =
      (asked config registry params).filter fun provider => provider.name ∉ names := by
  simp only [asked, ProviderRegistry.getSupportedProviders, rows_without]
  split
  · simp only [List.filter_filter]
    exact List.filter_congr fun provider _ => by ac_rfl
  · rw [List.filter_comm]

theorem registered_of_asked {config : RouteEngineConfig} {registry : ProviderRegistry} {params : RouteQuoteParams}
    {provider : Provider} (h : provider ∈ asked config registry params) : provider ∈ registry.rows := by
  unfold asked at h
  split at h
  · exact List.mem_of_mem_filter (List.mem_of_mem_filter h)
  · exact List.mem_of_mem_filter h

/-- One that fails although it is asked leaves an empty slot. -/
theorem slot_of_fails {config : RouteEngineConfig} {registry : ProviderRegistry} {params : RouteQuoteParams}
    {endings : List Ending} {provider : Provider} (h : provider ∈ asked config registry params)
    (hfails : Fails config registry endings provider.name) :
    Slot.pending.after (firstEnding endings provider.name) = .discarded := by
  rcases hfails with ⟨hskip, provider', hfind, hopen⟩ | hrejects | htimer
  · obtain ⟨hmem, hname⟩ := Table.find?_eq_some.1 hfind
    obtain rfl := Table.eq_of_key hmem (registered_of_asked h) hname
    simp [asked, hskip, hopen] at h
  · rw [hrejects]
    rfl
  · rw [htimer]
    rfl

/-- **A provider that fails has no part in the choice**: the selection comes to the same end as one in which any of
those that fail are not registered, if the others do as before, in whatever order. -/
theorem selectBestRoute_without (config : RouteEngineConfig) (preferences : MerchantPreferences)
    (registry : ProviderRegistry) (params : RouteQuoteParams) (now : Time) {endings endings' : List Ending}
    {failing : List String} (hfailing : ∀ name ∈ failing, Fails config registry endings name)
    (hsame : ∀ provider ∈ registry.rows, provider.name ∉ failing →
      firstEnding endings' provider.name = firstEnding endings provider.name) :
    selectBestRoute config preferences registry params now endings =
      selectBestRoute config preferences (registry.without failing) params now endings' := by
  have hslots : fetchQuotesParallel (asked config (registry.without failing) params) endings' =
      (fetchQuotesParallel (asked config registry params) endings).filter fun slot => slot.1.name ∉ failing := by
    rw [fetchQuotesParallel_eq, fetchQuotesParallel_eq, asked_without, List.filter_map]
    refine List.map_congr_left fun provider hprovider => ?_
    obtain ⟨hasked, hkept⟩ := List.mem_filter.1 hprovider
    rw [hsame provider (registered_of_asked hasked) (by simpa using hkept)]
  rw [selectBestRoute_eq, selectBestRoute_eq, hslots, allSettled_filter]
  intro slot hslot hfailed
  rw [fetchQuotesParallel_eq] at hslot
  obtain ⟨provider, hasked, rfl⟩ := List.mem_map.1 hslot
  exact slot_of_fails hasked (hfailing provider.name (by simpa using hfailed))

/-- A quote for 1 USDC from Ethereum to Tron. -/
def sampleQuote (provider : String) (fee : ℚ) : RouteQuote :=
  { id := provider, provider, sourceChain := "ethereum", sourceAsset := "USDC", sourceAmount := 1
    targetChain := "tron", targetAsset := "USDT", targetAmount := 1, steps := [], estimatedFee := fee
    estimatedTime := 60, securityScore := 90, reliabilityScore := 90, expiresAt := 2000 }

def sampleRegistry : ProviderRegistry :=
  ⟨[⟨"LiFi", ["ethereum", "tron"], some true⟩, ⟨"Socket", ["ethereum", "tron"], some false⟩,
    ⟨"Slow", ["ethereum", "tron"], none⟩], by decide⟩

/-- One circuit is open, one quote comes too late. -/
theorem selectBestRoute_without_two :
    selectBestRoute {} {} sampleRegistry ⟨"ethereum", "USDC", 1, "tron", "USDT", 1⟩ 1000
        [("Slow", .timesOut), ("LiFi", .resolves (sampleQuote "LiFi" 2)), ("Slow", .resolves (sampleQuote "Slow" 0))] =
      selectBestRoute {} {} (sampleRegistry.without ["Slow", "Socket"]) ⟨"ethereum", "USDC", 1, "tron", "USDT", 1⟩ 1000
        [("LiFi", .resolves (sampleQuote "LiFi" 2))] := by
  refine selectBestRoute_without {} {} sampleRegistry _ 1000 (fun name hname => ?_) (by decide)
  rcases List.mem_cons.1 hname with rfl | hname
  · exact .inr (.inr rfl)
  · obtain rfl := List.mem_singleton.1 hname
    exact .inl ⟨rfl, _, rfl, rfl⟩

end NexoraGateway.Routing
