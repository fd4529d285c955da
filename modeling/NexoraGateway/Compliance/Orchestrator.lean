import NexoraGateway.Async.Runs
import NexoraGateway.Compliance.Velocity

/-!
# The compliance orchestrator (`compliance/src/compliance-orchestrator.ts`)

Its three screenings await the risk scorer and then run through: what they do is a function of what the scorer
answers. They differ in whom they screen, in whether they look at the velocity, and in what they write down.
-/
namespace NexoraGateway.Compliance

open Async

/-- `ComplianceConfig` (:30) with the values of `DEFAULT_CONFIG`. -/
structure ComplianceConfig where
  autoBlockThreshold : ℚ := 90
  reviewThreshold : ℚ := 70
  enableVelocityChecks : Bool := true
  velocityWindowMs : ℚ := 60 * 60 * 1000
  velocityMaxTransactions : ℚ := 20
  velocityMaxAmount : ℚ := 100000

/-- The window that the constructor gives to the velocity checker (:77). -/
def ComplianceConfig.window (config : ComplianceConfig) : VelocityWindow where
  durationMs := config.velocityWindowMs
  maxTransactions := config.velocityMaxTransactions
  maxAmount := config.velocityMaxAmount

inductive Decision where
  | allow | block | review
  deriving DecidableEq, Repr

/-- The `action` of an entry. -/
inductive Action where
  | intentCreation | depositDetection | settlement
  deriving DecidableEq, Repr

/-- The `details` of an entry. -/
inductive AuditDetails where
  | creation (amount : ℚ) (velocityExceeded : Bool)
  | deposit (amount : ℚ) (txHash : String)
  | settlement (amount : ℚ)
  | failClosed (amount : ℚ) (screeningError : String)
  deriving DecidableEq

/-- `AuditLogEntry` (:13); the `riskLevel` of a failed screening is `UNKNOWN`. -/
structure AuditLogEntry where
  id : String
  intentId : Id
  address : String
  chain : String
  action : Action
  decision : Decision
  riskScore : ℚ
  riskLevel : Option RiskLevel
  flags : List RiskFlag
  details : AuditDetails
  timestamp : Time
  deriving DecidableEq

/-- The `blockReason` of a result, by its text. -/
inductive BlockReason where
  /-- "Address is on sanctions list" -/
  | sanctionsList
  /-- "Critical risk level (score: …)" -/
  | criticalRisk (riskScore : ℚ)
  /-- "High risk address with large amount ($…)" -/
  | highRiskLargeAmount (amount : ℚ)
  /-- "Velocity limit exceeded" -/
  | velocityLimitExceeded
  /-- "Requires manual review" -/
  | requiresManualReview
  /-- "Screening unavailable: …. Payment blocked (fail-closed)."; a deposit or a settlement likewise. -/
  | screeningUnavailable (action : Action) (message : String)
  deriving DecidableEq

/-- `ComplianceResult` (shared/src/types/compliance.ts:65). -/
structure ComplianceResult where
  intentId : Id
  sourceRisk : Option RiskResult
  destinationRisk : Option RiskResult
  kycRequired : Bool
  kycVerified : Bool
  blocked : Bool
  blockReason : Option BlockReason
  screenedAt : Time
  deriving DecidableEq

/-- The memory of a `ComplianceOrchestrator`: its velocity checker's windows and its log. -/
structure Orchestrator where
  windows : Windows := Store.Table.empty
  auditLog : List AuditLogEntry := []

/-- `makeDecision` (:396). -/
def makeDecision (config : ComplianceConfig) (risk : RiskResult) (velocity : Option VelocityCheckResult)
    (amount : ℚ) : Bool × Option BlockReason :=
  if .sanctioned ∈ risk.flags then (true, some .sanctionsList)
  else if risk.riskLevel = .critical then (true, some (.criticalRisk risk.riskScore))
  else if risk.riskLevel = .high ∧ 50000 < amount then (true, some (.highRiskLargeAmount amount))
  else if velocity.any (·.exceeded) then (true, some .velocityLimitExceeded)
  else if config.reviewThreshold ≤ risk.riskScore then (false, some .requiresManualReview)
  else (false, none)

/-! ## The screenings -/

/-- What a screening looks up in the velocity checker, if it does. -/
def velocityOf (config : ComplianceConfig) (tx : Option TransactionInfo) (now : Time) (windows : Windows) :
    Option (VelocityCheckResult × Windows) :=
  if config.enableVelocityChecks then tx.map fun tx => checkVelocity config.window tx now windows else none

/-- What a screening does once the scorer has answered: `tx` is what the velocity checker is asked about, `details`
what is logged of its answer, and `place` says whose risk it is. -/
def screened (config : ComplianceConfig) (action : Action) (intentId : Id) (address chain : String) (amount : ℚ)
    (tx : Option TransactionInfo) (details : Option VelocityCheckResult → AuditDetails)
    (place : RiskResult → Option RiskResult × Option RiskResult) (answer : Except ScreeningError RiskResult)
    (now : Time) (auditId : String) (o : Orchestrator) : Except ScreeningError ComplianceResult × Orchestrator :=
  match answer with
  | .ok risk =>
    let velocity := velocityOf config tx now o.windows
    let velocityResult := velocity.map Prod.fst
    let (blocked, reason) := makeDecision config risk velocityResult amount
    (.ok
      { intentId, sourceRisk := (place risk).1, destinationRisk := (place risk).2
        kycRequired := 10000 < amount, kycVerified := false, blocked, blockReason := reason, screenedAt := now },
      { windows := (velocity.map Prod.snd).getD o.windows
        auditLog := o.auditLog ++
          [{ id := auditId, intentId, address, chain, action, decision := if blocked then .block else .allow
             riskScore := risk.riskScore, riskLevel := some risk.riskLevel
             flags := risk.flags ++ (velocityResult.map (·.flags)).getD []
             details := details velocityResult, timestamp := now }] })
  | .error (.screeningUnavailable provider reason) =>
    let message := ScreeningError.message (.screeningUnavailable provider reason)
    (.ok
      { intentId, sourceRisk := none, destinationRisk := none, kycRequired := true, kycVerified := false
        blocked := true, blockReason := some (.screeningUnavailable action message), screenedAt := now },
      { o with auditLog := o.auditLog ++
          [{ id := auditId, intentId, address, chain, action, decision := .block, riskScore := -1
             riskLevel := none, flags := [], details := .failClosed amount message, timestamp := now }] })
  | .error (.other message) => (.error (.other message), o)

section
variable (config : ComplianceConfig) (answer : Except ScreeningError RiskResult) (now : Time) (auditId : String)

/-- `screenIntentCreation` (:92). -/
def screenIntentCreation (intentId : Id) (sourceAddress chain : String) (amount : ℚ) :
    Orchestrator → Except ScreeningError ComplianceResult × Orchestrator :=
  screened config .intentCreation intentId sourceAddress chain amount
    (some { «from» := sourceAddress, «to» := "", amount, asset := "", chain, timestamp := now })
    (fun velocity => .creation amount (velocity.any (·.exceeded))) (fun risk => (some risk, none)) answer now auditId

/-- `screenDeposit` (:182). -/
def screenDeposit (intentId : Id) (tx : TransactionInfo) :
    Orchestrator → Except ScreeningError ComplianceResult × Orchestrator :=
  screened config .depositDetection intentId tx.from tx.chain tx.amount (some tx)
    (fun _ => .deposit tx.amount tx.from) (fun risk => (some risk, none)) answer now auditId

/-- `screenSettlement` (:260). -/
def screenSettlement (intentId : Id) (destinationAddress chain : String) (amount : ℚ) :
    Orchestrator → Except ScreeningError ComplianceResult × Orchestrator :=
  screened config .settlement intentId destinationAddress chain amount none
    (fun _ => .settlement amount) (fun risk => (none, some risk)) answer now auditId

end

/-- `getStats` (:372). -/
structure Stats where
  totalScreenings : ℕ
  allowed : ℕ
  blocked : ℕ
  review : ℕ
  blockRate : ℚ
  deriving DecidableEq

def getStats (o : Orchestrator) : Stats :=
  let total := o.auditLog.length
  let blocked := o.auditLog.countP (·.decision = .block)
  { totalScreenings := total, allowed := o.auditLog.countP (·.decision = .allow), blocked
    review := o.auditLog.countP (·.decision = .review)
    blockRate := if 0 < total then blocked / total * 100 else 0 }

/-! ## Histories -/

/-- What is screened. -/
inductive ScreeningPoint where
  | intentCreation (intentId : Id) (sourceAddress chain : String) (amount : ℚ)
  | deposit (intentId : Id) (tx : TransactionInfo)
  | settlement (intentId : Id) (destinationAddress chain : String) (amount : ℚ)

def ScreeningPoint.intentId : ScreeningPoint → Id
  | .intentCreation intentId .. | .deposit intentId _ | .settlement intentId .. => intentId

def ScreeningPoint.action : ScreeningPoint → Action
  | .intentCreation .. => .intentCreation
  | .deposit .. => .depositDetection
  | .settlement .. => .settlement

def ScreeningPoint.amount : ScreeningPoint → ℚ
  | .intentCreation _ _ _ amount | .settlement _ _ _ amount => amount
  | .deposit _ tx => tx.amount

/-- What the velocity checker is asked about. -/
def ScreeningPoint.transaction? (now : Time) : ScreeningPoint → Option TransactionInfo
  | .intentCreation _ sourceAddress chain amount =>
    some { «from» := sourceAddress, «to» := "", amount, asset := "", chain, timestamp := now }
  | .deposit _ tx => some tx
  | .settlement .. => none

/-- A screening, with what the scorer answers and the clock when it has. -/
structure Screening where
  point : ScreeningPoint
  answer : Except ScreeningError RiskResult
  now : Time
  auditId : String

def Orchestrator.handle (config : ComplianceConfig) (o : Orchestrator) (x : Screening) :
    Except ScreeningError ComplianceResult × Orchestrator :=
  match x.point with
  | .intentCreation intentId sourceAddress chain amount =>
    screenIntentCreation config x.answer x.now x.auditId intentId sourceAddress chain amount o
  | .deposit intentId tx => screenDeposit config x.answer x.now x.auditId intentId tx o
  | .settlement intentId destinationAddress chain amount =>
    screenSettlement config x.answer x.now x.auditId intentId destinationAddress chain amount o

abbrev Orchestrator.next (config : ComplianceConfig) (o : Orchestrator) (x : Screening) : Orchestrator :=
  (o.handle config x).2

/-- The orchestrator after a history. -/
abbrev screenedAll (config : ComplianceConfig) (xs : List Screening) : Orchestrator :=
  Runs.exec (Orchestrator.next config) {} xs

end NexoraGateway.Compliance
