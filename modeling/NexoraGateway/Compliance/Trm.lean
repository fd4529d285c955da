import NexoraGateway.Compliance.Chainalysis

/-!
# The TRM scorer (`compliance/src/trm-risk-scorer.ts`)

It is the Chainalysis scorer with another range of scores, the sanctions as a status, and no volume. Its cache is the
same, and its `simulateExposureTypes` (:261) are the categories of that one.
-/
namespace NexoraGateway.Compliance.Trm

open Store Chainalysis

/-- `cacheTtlMs` (:41). -/
def cacheTtlMs : Time := 5 * 60 * 1000

/-- `determineRiskLevel` (:277). -/
def determineRiskLevel (score : ℚ) : RiskLevel := Chainalysis.determineRiskLevel score

/-- `simulateRiskScore` (:251). -/
def simulateRiskScore (address : String) : ℚ :=
  if "0x000000000000000000000000000000000000dead".toList <+: address.toList then 95
  else (simpleHash address % 50 + 10 : ℕ)

/-- `simulateExposureTypes` (:261). -/
def simulateExposureTypes (address : String) : List String := simulateCategories address

/-- `checkSanctionsStatus` (:272). -/
def checkSanctionsStatus (address : String) : String :=
  if simpleHash address % 100 < 1 then "sanctioned" else "not_sanctioned"

/-- `parseRiskResponse` (:181) of what `callTRMRisk` (:157) makes up. -/
def riskResponse (address chain : String) (now : Time) : RiskResult :=
  let exposureTypes := simulateExposureTypes address
  let sanctioned := checkSanctionsStatus address = "sanctioned"
  { address, chain, riskScore := simulateRiskScore address
    riskLevel := determineRiskLevel (simulateRiskScore address)
    flags :=
      (if sanctioned then [.sanctioned] else []) ++ (if "mixer" ∈ exposureTypes then [.mixer] else []) ++
      (if "darknet" ∈ exposureTypes then [.darknet] else []) ++ if "scam" ∈ exposureTypes then [.scam] else []
    details :=
      { sanctionsMatch := if sanctioned then some ⟨"OFAC", 100, "Sanctioned Entity", "source", "trm"⟩ else none
        knownAssociations := exposureTypes }
    screenedAt := now, expiresAt := now + cacheTtlMs }

/-- `screenAddress` (:50). -/
def screenAddress (address chain : String) (now : Time) (cache : Reports) : RiskResult × Reports :=
  match (cache.get? (addressKey address chain)).filter (now < ·.expiresAt) with
  | some cached => (cached.result, cache)
  | none =>
    let result := riskResponse address chain now
    (result, cache.put (addressKey address chain, { result, expiresAt := now + cacheTtlMs }))

end NexoraGateway.Compliance.Trm
