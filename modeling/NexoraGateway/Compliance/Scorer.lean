import NexoraGateway.Compliance.Types
import NexoraGateway.Numbers
import NexoraGateway.Store.Table

/-!
# The basic risk scorer (`rate-lock/src/basic-risk-scorer.ts`)

A score is the weighted average of what the sanctions list, and three stubs that hash the address, have to say;
a match overrides it. The average is exact here. The source sums and divides doubles, so an average of 59.995 may be
rounded to 59.99 there. The cache keeps the number, and `buildCachedResult` makes a result of it again.

A screening reads the clock when it looks into the cache (`now`) and again when the provider has answered
(`answeredAt`).
-/
namespace NexoraGateway.Compliance

open Store

/-- `BasicRiskScorerConfig` (shared/src/types/risk.ts:13) with the values of `DEFAULT_RISK_CONFIG`. -/
structure BasicRiskScorerConfig where
  walletAgeWeight : ℚ := 1 / 5
  txCountWeight : ℚ := 1 / 5
  volumeWeight : ℚ := 1 / 5
  sanctionsWeight : ℚ := 2 / 5
  highRiskThreshold : ℚ := 60
  criticalRiskThreshold : ℚ := 80
  cacheTtlSeconds : ℚ := 3600

/-- `SanctionsEntry` (risk.ts:42). -/
structure SanctionsEntry where
  address : String
  chain : String
  listName : String
  entityName : String
  addedAt : Time
  reason : String
  deriving DecidableEq

/-- What `sanctionsProvider.checkAddress` answers, or rejects with. -/
abbrev SanctionsCheck : Type := Except String (Option SanctionsEntry)

/-- The sanctions provider at the time of a screening; `none` when the scorer has none. -/
abbrev SanctionsProvider : Type := Option (String → String → SanctionsCheck)

inductive FactorType where
  | sanctions | walletAge | txCount | volume
  deriving DecidableEq, Repr

/-- The `details` of a factor: a text, or the JSON of a sanctions entry, which `screenAddress` parses again. -/
inductive FactorDetails where
  | text (s : String)
  | entry (listName entityName reason : String)
  deriving DecidableEq

structure Factor where
  type : FactorType
  score : ℚ
  weight : ℚ
  details : FactorDetails
  deriving DecidableEq

/-- A value of the `cache`. -/
structure CachedScore where
  score : ℚ
  expiresAt : Time
  deriving DecidableEq

abbrev ScoreCache : Type := Dict String CachedScore

/-! ## The factors -/

/-- `estimateWalletAge` (:254). -/
def estimateWalletAge (address : String) : ℚ := (simpleHash address % 60 + 20 : ℕ)

/-- `estimateTxCount` (:262). -/
def estimateTxCount (address : String) : ℚ := (simpleHash (address ++ ":txcount") % 70 + 10 : ℕ)

/-- `estimateVolume` (:269). -/
def estimateVolume (address : String) : ℚ := (simpleHash (address ++ ":volume") % 60 + 20 : ℕ)

/-- The sanctions factor (:144): a provider that fails counts as one that knows nothing. -/
def sanctionsFactor (config : BasicRiskScorerConfig) : SanctionsCheck → Factor
  | .ok (some e) => ⟨.sanctions, 100, config.sanctionsWeight, .entry e.listName e.entityName e.reason⟩
  | .ok none => ⟨.sanctions, 0, config.sanctionsWeight, .text "No sanctions match"⟩
  | .error _ => ⟨.sanctions, 0, config.sanctionsWeight, .text "Sanctions check unavailable"⟩

/-- A factor whose details tell its score. -/
def estimated (type : FactorType) (name : String) (score weight : ℚ) : Factor :=
  ⟨type, score, weight, .text ("Estimated " ++ name ++ " score: " ++ toString score ++ "/100")⟩

/-- `calculateRiskFactors` (:137); `check` is the provider's answer. -/
def calculateRiskFactors (config : BasicRiskScorerConfig) (check : Option SanctionsCheck) (address : String) :
    List Factor :=
  (check.map (sanctionsFactor config)).toList ++
    [estimated .walletAge "wallet age" (estimateWalletAge address) config.walletAgeWeight,
      estimated .txCount "transaction count" (estimateTxCount address) config.txCountWeight,
      estimated .volume "volume" (estimateVolume address) config.volumeWeight]

/-- The weighted average of the scores, and 0 without weights. -/
def weightedAverage (factors : List Factor) : ℚ :=
  let totalWeight := (factors.map Factor.weight).sum
  let weightedSum := (factors.map fun factor => factor.score * factor.weight).sum
  if totalWeight = 0 then 0 else weightedSum / totalWeight

/-- `calculateTotalScore` (:203). -/
def calculateTotalScore (factors : List Factor) : ℚ := Ecma.mathRound (weightedAverage factors * 100) / 100

/-- `determineRiskLevel` (:222). -/
def determineRiskLevel (config : BasicRiskScorerConfig) (score : ℚ) : RiskLevel :=
  if config.criticalRiskThreshold ≤ score then .critical
  else if config.highRiskThreshold ≤ score then .high
  else if 30 ≤ score then .medium
  else .low

/-- What `extractFlags` (:229) says of one factor. -/
def Factor.flag? (factor : Factor) : Option RiskFlag :=
  if 80 ≤ factor.score then
    match factor.type with
    | .sanctions => some .sanctioned
    | .walletAge => some .newAddress
    | .txCount | .volume => none
  else none

def extractFlags (factors : List Factor) : List RiskFlag := factors.filterMap Factor.flag?

/-- The score of the first factor of a type, or 0. -/
def scoreOf (factors : List Factor) (type : FactorType) : ℚ :=
  ((factors.find? (·.type = type)).map Factor.score).getD 0

/-- `sanctionsMatch` (:60). -/
def sanctionsMatch (factor : Factor) : SanctionsMatch :=
  match factor.details with
  | .entry listName entityName reason => ⟨listName, 100, entityName, "reason", reason⟩
  | .text s => ⟨"unknown", 100, "unknown", "reason", s⟩

/-! ## Screening -/

/-- The result that is not cached yet (:75). -/
def freshResult (config : BasicRiskScorerConfig) (check : Option SanctionsCheck) (address chain : String)
    (answeredAt : Time) : RiskResult :=
  let factors := calculateRiskFactors config check address
  let hasSanctionsMatch := (factors.find? (·.type = .sanctions)).filter (80 ≤ ·.score)
  let totalScore := if hasSanctionsMatch.isSome then 100 else calculateTotalScore factors
  { address, chain, riskScore := totalScore, riskLevel := determineRiskLevel config totalScore
    flags := extractFlags factors
    details :=
      { sanctionsMatch := hasSanctionsMatch.map sanctionsMatch, walletAge := scoreOf factors .walletAge
        transactionCount := scoreOf factors .txCount, totalVolume := scoreOf factors .volume }
    screenedAt := answeredAt, expiresAt := toTime (answeredAt + config.cacheTtlSeconds * 1000) }

/-- `buildCachedResult` (:302). -/
def buildCachedResult (config : BasicRiskScorerConfig) (address chain : String) (score : ℚ) (now : Time) :
    RiskResult :=
  { address, chain, riskScore := score, riskLevel := determineRiskLevel config score
    flags := if 80 ≤ score then [.sanctioned] else if 60 ≤ score then [.newAddress] else []
    details := {}, screenedAt := now, expiresAt := toTime (now + config.cacheTtlSeconds * 1000) }

/-- The score in the cache that is still good. -/
def cached? (cache : ScoreCache) (address chain : String) (now : Time) : Option CachedScore :=
  (cache.get? (addressKey address chain)).filter (now < ·.expiresAt)

/-- The provider's answer about an address. -/
def checkOf (provider : SanctionsProvider) (address chain : String) : Option SanctionsCheck :=
  provider.map fun check => check address chain

/-- `screenAddress` (:35). -/
def screenAddress (config : BasicRiskScorerConfig) (provider : SanctionsProvider) (now answeredAt : Time)
    (address chain : String) (cache : ScoreCache) : RiskResult × ScoreCache :=
  match cached? cache address chain now with
  | some cached => (buildCachedResult config address chain cached.score now, cache)
  | none =>
    let result := freshResult config (checkOf provider address chain) address chain answeredAt
    (result, cache.put (addressKey address chain, { score := result.riskScore, expiresAt := result.expiresAt }))

/-- What `screenTransaction` (:102) makes of the result for the source address. -/
def adjusted (config : BasicRiskScorerConfig) (tx : TransactionInfo) (sourceRisk : RiskResult) : RiskResult :=
  let adjustedScore := min 100 (sourceRisk.riskScore + calculateTransactionRisk tx)
  { sourceRisk with riskScore := adjustedScore, riskLevel := determineRiskLevel config adjustedScore }

def screenTransaction (config : BasicRiskScorerConfig) (provider : SanctionsProvider) (now answeredAt : Time)
    (tx : TransactionInfo) (cache : ScoreCache) : RiskResult × ScoreCache :=
  let (sourceRisk, cache) := screenAddress config provider now answeredAt tx.from tx.chain cache
  (adjusted config tx sourceRisk, cache)

/-- The scorer during one call of the gate. -/
def basicRiskScorer (config : BasicRiskScorerConfig) (provider : SanctionsProvider) (now answeredAt : Time) :
    RiskScorer ScoreCache where
  screenAddress address chain cache :=
    let (result, cache) := screenAddress config provider now answeredAt address chain cache
    (.ok result, cache)
  screenTransaction tx cache :=
    let (result, cache) := screenTransaction config provider now answeredAt tx cache
    (.ok result, cache)

/-! ## What a fresh result says -/

/-- The provider answers with an entry. -/
def Listed (check : Option SanctionsCheck) : Prop := ∃ entry, check = some (.ok (some entry))

instance : DecidablePred Listed
  | some (.ok (some entry)) => isTrue ⟨entry, rfl⟩
  | some (.ok none) | some (.error _) | none => isFalse nofun

section
variable {config : BasicRiskScorerConfig} {check : Option SanctionsCheck} {address chain : String}
  {answeredAt : Time}

theorem estimateWalletAge_lt : estimateWalletAge address < 80 := by
  have hmod := Nat.mod_lt (simpleHash address) (by decide : 0 < 60)
  have hlt : simpleHash address % 60 + 20 < 80 := by omega
  unfold estimateWalletAge
  exact_mod_cast hlt

/-- No estimate is ever flagged. -/
theorem extractFlags_factors : extractFlags (calculateRiskFactors config check address) =
    (check.bind fun answer => (sanctionsFactor config answer).flag?).toList := by
  have hage (name : String) (weight : ℚ) :
      (estimated .walletAge name (estimateWalletAge address) weight).flag? = none :=
    if_neg (not_le.2 estimateWalletAge_lt)
  have hcount (name : String) (score weight : ℚ) : (estimated .txCount name score weight).flag? = none := ite_self _
  have hvolume (name : String) (score weight : ℚ) : (estimated .volume name score weight).flag? = none := ite_self _
  cases check <;> simp [extractFlags, calculateRiskFactors, hage, hcount, hvolume, Option.toList]
  split <;> simp_all

theorem freshResult_flags : (freshResult config check address chain answeredAt).flags =
    if Listed check then [.sanctioned] else [] := by
  have hlow : ¬ (80 : ℚ) ≤ 0 := by norm_num
  have hhigh : (80 : ℚ) ≤ 100 := by norm_num
  rw [freshResult, extractFlags_factors]
  rcases check with _ | _ | _ | _ <;> simp [Listed, Factor.flag?, sanctionsFactor, hlow, hhigh]

theorem freshResult_score : (freshResult config check address chain answeredAt).riskScore =
    if Listed check then 100 else calculateTotalScore (calculateRiskFactors config check address) := by
  have hhigh : ¬ (100 : ℚ) < 80 := by norm_num
  rcases check with _ | _ | _ | _ <;>
    simp [freshResult, calculateRiskFactors, Listed, sanctionsFactor, estimated, hhigh]

end

end NexoraGateway.Compliance
