import Mathlib.Algebra.Order.Ring.Rat
import Mathlib.Data.List.Sort
import NexoraGateway.Json

/-!
# Scoring routes (`routing-engine/src/route-scorer.ts`, `shared/src/types/routing.ts`)

Numbers are rational and exact, where the source rounds to doubles: there, quotes that have one score here may come out
apart. Where the source divides by zero a case of its own stands for the infinity.
-/
namespace NexoraGateway.Routing

/-- `RouteStep` (routing.ts:25). -/
structure RouteStep where
  chain : String
  protocol : String
  action : String
  inputAmount : ℚ
  outputAmount : ℚ
  fee : ℚ
  deriving DecidableEq

/-- `RouteQuote` (routing.ts:8). -/
structure RouteQuote where
  id : String
  provider : String
  sourceChain : String
  sourceAsset : String
  sourceAmount : ℚ
  targetChain : String
  targetAsset : String
  targetAmount : ℚ
  steps : List RouteStep
  estimatedFee : ℚ
  estimatedTime : ℚ
  securityScore : ℚ
  reliabilityScore : ℚ
  expiresAt : Time
  deriving DecidableEq

/-- `RouteScore` (routing.ts:47). -/
structure RouteScore where
  totalScore : ℚ
  feeScore : ℚ
  timeScore : ℚ
  securityScore : ℚ
  reliabilityScore : ℚ
  deriving DecidableEq

/-- `MerchantPreferences` (routing.ts:80) with the values of `DEFAULT_PREFERENCES` (:17). -/
structure MerchantPreferences where
  maxFee : ℚ := 100
  maxTime : ℚ := 3600
  feeWeight : ℚ := 3 / 10
  timeWeight : ℚ := 2 / 10
  securityWeight : ℚ := 3 / 10
  reliabilityWeight : ℚ := 2 / 10

/-- 1 for nothing, 0 from the limit on. `x / 0` is `Infinity` for `0 < x`, and `Math.max(0, -Infinity)` is 0. -/
def normalizeBelow (limit x : ℚ) : ℚ :=
  if x ≤ 0 then 1 else if limit = 0 then 0 else max 0 (1 - x / limit)

/-- A score out of 100 as a share, clamped to [0, 1]. -/
def normalizePercent (score : ℚ) : ℚ := max 0 (min 1 (score / 100))

namespace RouteScorer

variable (preferences : MerchantPreferences)

/-- `normalizeFeeScore` (:80). -/
def normalizeFeeScore (fee : ℚ) : ℚ := normalizeBelow preferences.maxFee fee

/-- `normalizeTimeScore` (:89). -/
def normalizeTimeScore (time : ℚ) : ℚ := normalizeBelow preferences.maxTime time

/-- `normalizeSecurityScore` (:98). -/
def normalizeSecurityScore (score : ℚ) : ℚ := normalizePercent score

/-- `normalizeReliabilityScore` (:106). -/
def normalizeReliabilityScore (score : ℚ) : ℚ := normalizePercent score

/-- `score` (:36). -/
def score (quote : RouteQuote) : RouteScore :=
  let feeScore := normalizeFeeScore preferences quote.estimatedFee
  let timeScore := normalizeTimeScore preferences quote.estimatedTime
  let securityScore := normalizeSecurityScore quote.securityScore
  let reliabilityScore := normalizeReliabilityScore quote.reliabilityScore
  { totalScore := feeScore * preferences.feeWeight + timeScore * preferences.timeWeight +
      securityScore * preferences.securityWeight + reliabilityScore * preferences.reliabilityWeight
    feeScore, timeScore, securityScore, reliabilityScore }

/-- `rank` (:60). `Array.prototype.sort` is stable. -/
def rank (quotes : List RouteQuote) : List (RouteQuote × RouteScore) :=
  (quotes.map fun quote => (quote, score preferences quote)).insertionSort fun a b => b.2.totalScore ≤ a.2.totalScore

/-- `selectBest` (:69). -/
def selectBest (quotes : List RouteQuote) : Option (RouteQuote × RouteScore) := (rank preferences quotes).head?

@[simp] theorem selectBest_nil : selectBest preferences [] = none := rfl

end RouteScorer

end NexoraGateway.Routing
