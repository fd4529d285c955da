import NexoraGateway.Intent.Types
import NexoraGateway.Recovery.Repository

/-!
# The recovery service (`recovery/src/recovery.service.ts`)

* `detectMisdirected`, `detectUnderpayment`, `detectOverpayment`, `detectStuck` — recovery.service.ts:71, :99, :128,
  :157.
* `verifyOwnership` — :191.
* `resolve` — :234, with the `execute…` functions (:422-529).
* `generateTopUpLink` — :311; no intent is ever found for it (`getRelatedIntent`, :536).
* `autoRefund`, `autoCredit`, `processStuckTransactions` — :347, :355, :392.

The `message` of a result is a constructor with what the text inserts.
-/
namespace NexoraGateway.Recovery

open Async

abbrev Task (α : Type) : Type := Prog Call Answer RecoveryError α

namespace Task
def now : Task Time := Prog.await Call.now
def randomUUID : Task Id := Prog.await Call.randomUUID
def create (params : CreateRecoveryCaseParams) : Task RecoveryCase := Prog.await (Call.create params)
def findById (id : Id) : Task (Option RecoveryCase) := Prog.await (Call.findById id)
def update (id : Id) (params : UpdateRecoveryCaseParams) : Task (Option RecoveryCase) :=
  Prog.await (Call.update id params)
def findStuckTransactions (maxAgeMs : ℚ) : Task (List RecoveryCase) := Prog.await (Call.findStuckTransactions maxAgeMs)
def perform (action : ResolutionAction) (recoveryCase : RecoveryCase) : Task Unit :=
  Prog.await (Call.perform action recoveryCase)
end Task

/-- `RecoveryRepository.update` (recovery.repository.ts:81). -/
def updateCase (id : Id) (params : UpdateRecoveryCaseParams) : Task RecoveryCase := do
  let some _ ← Task.findById id | throw (.notFound id)
  let some row ← Task.update id params | throw (.notFoundAfterUpdate id)
  return row

/-- What the service uses of `IChainClient`. -/
structure ChainClient where
  validateAddress : String → Bool

/-- `RecoveryServiceConfig` with the values of `DEFAULT_CONFIG`, as far as it is read. -/
structure RecoveryServiceConfig where
  stuckTransactionTimeoutMs : ℚ := 30 * 60 * 1000
  topUpLinkTtlSeconds : ℚ := 3600

structure RecoveryService where
  config : RecoveryServiceConfig := {}
  chainClients : String → Option ChainClient

/-! ## Detection -/

/-- What the detections take; the underpayment's and the overpayment's `expectedAmount` is not used. -/
structure Detection where
  intentId : Option Id
  customerAddress : String
  customerChain : String
  intendedChain : String
  asset : String
  amount : ℚ
  txHash : Id

def detect (caseType : RecoveryCaseType) (params : Detection) : Task RecoveryCase :=
  Task.create
    { relatedIntentId := params.intentId, caseType, customerAddress := params.customerAddress
      customerChain := params.customerChain, intendedChain := params.intendedChain, asset := params.asset
      amount := params.amount, txHash := some params.txHash }

def detectMisdirected (params : Detection) : Task RecoveryCase := detect .misdirected params

def detectUnderpayment (intentId : Id) (params : Detection) (_expectedAmount receivedAmount : ℚ) : Task RecoveryCase :=
  detect .underpaid { params with intentId := some intentId, amount := receivedAmount }

def detectOverpayment (intentId : Id) (params : Detection) (_expectedAmount receivedAmount : ℚ) : Task RecoveryCase :=
  detect .overpaid { params with intentId := some intentId, amount := receivedAmount }

def detectStuck (intentId : Id) (params : Detection) : Task RecoveryCase :=
  detect .stuck { params with intentId := some intentId }

/-! ## Verification -/

structure OwnershipProof where
  address : String
  signature : String
  message : String
  verified : Bool
  verifiedAt : Option Time
  deriving DecidableEq

def isHexDigit (c : Char) : Bool := c.isDigit || ('a' ≤ c && c ≤ 'f') || ('A' ≤ c && c ≤ 'F')

/-- `/^0x[0-9a-fA-F]{130}$/`. -/
def isValidSignature (signature : String) : Bool :=
  match signature.toList with
  | '0' :: 'x' :: digits => digits.length = 130 && digits.all isHexDigit
  | _ => false

variable (service : RecoveryService)

def verifyOwnership (address signature message chain : String) : Task OwnershipProof := do
  match service.chainClients chain with
  | none => return { address, signature, message, verified := false, verifiedAt := none }
  | some chainClient =>
    if isValidSignature signature && chainClient.validateAddress address && decide (0 < message.length) then
      let now ← Task.now
      return { address, signature, message, verified := true, verifiedAt := some now }
    else return { address, signature, message, verified := false, verifiedAt := none }

/-! ## Resolution -/

inductive Message where
  | caseNotFound (caseId : Id)
  | unknownAction (action : ResolutionAction)
  | noChainClient (chain : String)
  | refunded (amount : ℚ) (asset customerAddress : String)
  | credited (amount : ℚ) (asset : String)
  | topUpLinkFailed
  | topUpLink (address : String) (expiresAt : Time)
  | reQuoted (amount : ℚ) (asset : String)
  | feeBump (txHash : Option Id)
  | accelerated (txHash : Option Id)
  | error (message : String)
  deriving DecidableEq

structure ResolutionResult where
  action : ResolutionAction
  success : Bool
  txHash : Option Id
  message : Message
  deriving DecidableEq

structure TopUpLink where
  id : Id
  recoveryCaseId : Id
  amount : ℚ
  asset : String
  chain : String
  address : String
  expiresAt : Time
  createdAt : Time

/-- The digits of a UUID, at most `n` of them, behind `0x`. -/
def hexOf (uuid : Id) (n : Nat) : Id := "0x" ++ String.ofList ((uuid.toList.filter (· ≠ '-')).take n)

def getRelatedIntent (_recoveryCase : RecoveryCase) : Option Intent.PaymentIntent := none

def generateTopUpLink (caseId : Id) : Task (Option TopUpLink) := do
  let some recoveryCase ← Task.findById caseId | return none
  if recoveryCase.caseType ≠ .underpaid then return none
  match getRelatedIntent recoveryCase with
  | none => return none
  | some intent =>
    let shortfall := intent.targetAmount - recoveryCase.amount
    let hash ← Task.randomUUID
    let now ← Task.now
    let id ← Task.randomUUID
    return some
      { id, recoveryCaseId := caseId, amount := shortfall, asset := recoveryCase.asset
        chain := recoveryCase.customerChain, address := hexOf hash 40
        expiresAt := toTime (now + service.config.topUpLinkTtlSeconds * 1000), createdAt := now }

def executeAutoRefund (recoveryCase : RecoveryCase) : Task ResolutionResult := do
  match service.chainClients recoveryCase.customerChain with
  | none => return ⟨.autoRefund, false, none, .noChainClient recoveryCase.customerChain⟩
  | some _ =>
    Task.perform .autoRefund recoveryCase
    let uuid ← Task.randomUUID
    return ⟨.autoRefund, true, some (hexOf uuid 64),
      .refunded recoveryCase.amount recoveryCase.asset recoveryCase.customerAddress⟩

def executeAutoCredit (recoveryCase : RecoveryCase) : Task ResolutionResult := do
  Task.perform .autoCredit recoveryCase
  return ⟨.autoCredit, true, none, .credited recoveryCase.amount recoveryCase.asset⟩

def executeTopUpLink (recoveryCase : RecoveryCase) : Task ResolutionResult := do
  match ← generateTopUpLink service recoveryCase.id with
  | none => return ⟨.topUpLink, false, none, .topUpLinkFailed⟩
  | some link => return ⟨.topUpLink, true, none, .topUpLink link.address link.expiresAt⟩

def executeReQuote (recoveryCase : RecoveryCase) : Task ResolutionResult := do
  Task.perform .reQuote recoveryCase
  return ⟨.reQuote, true, none, .reQuoted recoveryCase.amount recoveryCase.asset⟩

def executeFeeBump (recoveryCase : RecoveryCase) : Task ResolutionResult := do
  Task.perform .feeBump recoveryCase
  return ⟨.feeBump, true, none, .feeBump recoveryCase.txHash⟩

def executeRelayerAcceleration (recoveryCase : RecoveryCase) : Task ResolutionResult := do
  match service.chainClients recoveryCase.customerChain with
  | none => return ⟨.relayerAcceleration, false, none, .noChainClient recoveryCase.customerChain⟩
  | some _ =>
    Task.perform .relayerAcceleration recoveryCase
    let uuid ← Task.randomUUID
    return ⟨.relayerAcceleration, true, some (hexOf uuid 64), .accelerated recoveryCase.txHash⟩

/-- The `switch` of `resolve`. -/
def execute (action : ResolutionAction) (recoveryCase : RecoveryCase) : Task ResolutionResult :=
  match action with
  | .autoRefund => executeAutoRefund service recoveryCase
  | .autoCredit => executeAutoCredit recoveryCase
  | .topUpLink => executeTopUpLink service recoveryCase
  | .reQuote => executeReQuote recoveryCase
  | .feeBump => executeFeeBump recoveryCase
  | .relayerAcceleration => executeRelayerAcceleration service recoveryCase
  | .other name => return ⟨.other name, false, none, .unknownAction (.other name)⟩

/-- `resolved_at: result.success ? new Date() : null`. -/
def resolvedAt (result : ResolutionResult) : Task (Option Time) :=
  if result.success then Task.now.bind fun now => .ret (some now) else .ret none

def resolve (caseId : Id) (action : ResolutionAction) : Task ResolutionResult := do
  let some recoveryCase ← Task.findById caseId | return ⟨action, false, none, .caseNotFound caseId⟩
  let _ ← updateCase caseId { status := some .resolving, resolutionAction := some action }
  try
    let result ← execute service action recoveryCase
    let resolvedAt ← resolvedAt result
    let _ ← updateCase caseId
      { status := some (if result.success then .resolved else .failed), resolutionTxHash := some result.txHash
        resolvedAt := some resolvedAt }
    pure result
  catch error =>
    let _ ← updateCase caseId { status := some .failed }
    pure ⟨action, false, none, .error error.message⟩

def autoRefund (caseId : Id) : Task ResolutionResult := resolve service caseId .autoRefund

def autoCredit (caseId : Id) : Task ResolutionResult := resolve service caseId .autoCredit

/-- The loop of `processStuckTransactions`. -/
def processStuck : List RecoveryCase → Nat → Task Nat
  | [], processed => return processed
  | stuckCase :: rest, processed => do
    let success ←
      try
        let result ← resolve service stuckCase.id .relayerAcceleration
        pure result.success
      catch _ => pure false
    processStuck rest (if success then processed + 1 else processed)

def processStuckTransactions : Task Nat := do
  let stuckCases ← Task.findStuckTransactions service.config.stuckTransactionTimeoutMs
  processStuck service stuckCases 0

/-- What a client of the service can start, the detections included. -/
inductive Op where
  | detect (caseType : RecoveryCaseType) (params : Detection)
  | resolve (caseId : Id) (action : ResolutionAction)
  | autoRefund (caseId : Id)
  | autoCredit (caseId : Id)
  | processStuckTransactions

def Op.task : Op → Task Unit
  | detect caseType params => (Recovery.detect caseType params).bind fun _ => .ret ()
  | resolve caseId action => (Recovery.resolve service caseId action).bind fun _ => .ret ()
  | autoRefund caseId => (Recovery.autoRefund service caseId).bind fun _ => .ret ()
  | autoCredit caseId => (Recovery.autoCredit service caseId).bind fun _ => .ret ()
  | processStuckTransactions => (Recovery.processStuckTransactions service).bind fun _ => .ret ()

end NexoraGateway.Recovery
