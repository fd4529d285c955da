import NexoraGateway.Compliance.Types
import NexoraGateway.Store.Table

/-!
# The Chainalysis scorer (`compliance/src/chainalysis-risk-scorer.ts`)

The API is simulated from a hash of the address, so that `screenAddress` never comes to its error path. `received`
stands for `Math.random() * 1000000`.
-/
namespace NexoraGateway.Compliance.Chainalysis

open Store

/-- A value of the `cache`. -/
structure Report where
  result : RiskResult
  expiresAt : Time
  deriving DecidableEq

abbrev Reports : Type := Dict String Report

/-- `cacheTtlMs` (:45). -/
def cacheTtlMs : Time := 5 * 60 * 1000

/-- `determineRiskLevel` (:323). -/
def determineRiskLevel (score : ℚ) : RiskLevel :=
  if 90 ≤ score then .critical else if 70 ≤ score then .high else if 40 ≤ score then .medium else .low

/-- `simulateRiskScore` (:283). -/
def simulateRiskScore (address : String) : ℚ :=
  if "0x000000000000000000000000000000000000dead".toList <+: address.toList then 95
  else (simpleHash address % 60 + 10 : ℕ)

/-- `simulateCategories` (:299). -/
def simulateCategories (address : String) : List String :=
  let hash := simpleHash address
  (if hash % 100 < 5 then ["mixer"] else []) ++ (if hash % 100 < 2 then ["darknet"] else []) ++
    if hash % 100 < 3 then ["scam"] else []

/-- `checkSanctionsExposure` (:313). -/
def checkSanctionsExposure (address : String) : ℚ := if simpleHash address % 100 < 1 then 100 else 0

/-- `parseRiskResponse` (:184) of what `callChainalysisRisk` (:156) makes up. -/
def riskResponse (address chain : String) (received : ℚ) (now : Time) : RiskResult :=
  let categories := simulateCategories address
  let exposure := checkSanctionsExposure address
  { address, chain, riskScore := simulateRiskScore address
    riskLevel := determineRiskLevel (simulateRiskScore address)
    flags :=
      (if 0 < exposure then [.sanctioned] else []) ++ (if "mixer" ∈ categories then [.mixer] else []) ++
      (if "darknet" ∈ categories then [.darknet] else []) ++ if "scam" ∈ categories then [.scam] else []
    details :=
      { sanctionsMatch :=
          if 0 < exposure then some ⟨"OFAC", exposure, "Sanctioned Entity", "source", "chainalysis"⟩ else none
        totalVolume := received, knownAssociations := categories }
    screenedAt := now, expiresAt := now + cacheTtlMs }

/-- `screenAddress` (:54). -/
def screenAddress (address chain : String) (received : ℚ) (now : Time) (cache : Reports) : RiskResult × Reports :=
  match (cache.get? (addressKey address chain)).filter (now < ·.expiresAt) with
  | some cached => (cached.result, cache)
  | none =>
    let result := riskResponse address chain received now
    (result, cache.put (addressKey address chain, { result, expiresAt := now + cacheTtlMs }))

end NexoraGateway.Compliance.Chainalysis
