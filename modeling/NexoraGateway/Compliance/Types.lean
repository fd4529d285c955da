import NexoraGateway.Json

/-!
# Risk results (`shared/src/types/compliance.ts`, `shared/src/types/risk.ts`)

What a risk scorer answers and what it may be. A scorer keeps a memory of its own, `σ`.
-/
namespace NexoraGateway.Compliance

/-- `RiskLevel` (compliance.ts:8). -/
inductive RiskLevel where
  | low | medium | high | critical
  deriving DecidableEq, Repr

/-- `RiskFlag` (:10). -/
inductive RiskFlag where
  | sanctioned | mixer | darknet | scam | highRiskJurisdiction | velocityAnomaly | newAddress
  deriving DecidableEq, Repr

/-- `SanctionsMatch` (:39); `reason` and `source` are what the scorers put into `entityDetails`. -/
structure SanctionsMatch where
  listName : String
  matchScore : ℚ
  entityName : String
  entityDetails : String × String
  deriving DecidableEq

/-- `RiskDetails` (:30). -/
structure RiskDetails where
  sanctionsMatch : Option SanctionsMatch := none
  walletAge : ℚ := 0
  transactionCount : ℚ := 0
  totalVolume : ℚ := 0
  knownAssociations : List String := []
  jurisdictionRisk : ℚ := 0
  deriving DecidableEq

/-- `RiskResult` (:19). -/
structure RiskResult where
  address : String
  chain : String
  riskScore : ℚ
  riskLevel : RiskLevel
  flags : List RiskFlag
  details : RiskDetails
  screenedAt : Time
  expiresAt : Time
  deriving DecidableEq

/-- `TransactionInfo` (:48). -/
structure TransactionInfo where
  «from» : String
  «to» : String
  amount : ℚ
  asset : String
  chain : String
  timestamp : Time
  deriving DecidableEq

/-- What a scorer rejects with: a `ScreeningUnavailableError` (shared/src/errors/index.ts:104) or something else. -/
inductive ScreeningError where
  | screeningUnavailable (provider reason : String)
  | other (message : String)
  deriving DecidableEq

/-- `error.message`. -/
def ScreeningError.message : ScreeningError → String
  | .screeningUnavailable provider reason => "Screening provider " ++ provider ++ " is unavailable: " ++ reason ++
      ". Payment cannot proceed (fail-closed)."
  | .other message => message

/-- `IRiskScorer` (compliance.ts:57), as far as the gate and the orchestrator call it. -/
structure RiskScorer (σ : Type) where
  screenAddress : String → String → σ → Except ScreeningError RiskResult × σ
  screenTransaction : TransactionInfo → σ → Except ScreeningError RiskResult × σ

/-- The scorers' checks of the transaction itself: a large amount and a round one. -/
def calculateTransactionRisk (tx : TransactionInfo) : ℚ :=
  (if 100000 < tx.amount then 10 else 0) + if (tx.amount / 1000).den = 1 ∧ 0 < tx.amount then 5 else 0

/-- The key under which addresses are remembered. `toLowerCase` maps the letters of all of Unicode, and `String.toLower`
those of ASCII, which the addresses of the chains are written in. -/
def addressKey (address chain : String) : String := address.toLower ++ ":" ++ chain

/-- The UTF-16 code units of a string: `charCodeAt`. -/
def charCodes (s : String) : List Nat :=
  s.toList.flatMap fun c =>
    if c.toNat < 0x10000 then [c.toNat]
    else [0xD800 + (c.toNat - 0x10000) / 0x400, 0xDC00 + (c.toNat - 0x10000) % 0x400]

/-- `simpleHash` (basic-risk-scorer.ts:292, chainalysis-risk-scorer.ts:330): `hash |= 0` keeps 32 bits. -/
def simpleHash (s : String) : Nat :=
  ((charCodes s).foldl (fun (hash : BitVec 32) char => (hash <<< 5) - hash + BitVec.ofNat 32 char) 0).toInt.natAbs

end NexoraGateway.Compliance
