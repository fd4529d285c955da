import NexoraGateway.Compliance.Types

/-!
# The compliance gate (`rate-lock/src/compliance-gate.ts`)

`checkAddress` looks into its block lists before it asks the scorer, `checkTransaction` asks the scorer only. Addresses
are of ASCII, as in `addressKey`.

* `stopped_iff` — when the two entry points stop the same things.
-/
namespace NexoraGateway.Compliance

/-- The types of a `RiskFactor` that the gate reports (risk.ts:60). -/
inductive RiskFactorType where
  | sanctions | walletAge | mixer | darknet
  deriving DecidableEq, Repr

structure RiskFactor where
  type : RiskFactorType
  score : ℚ
  weight : ℚ
  details : String
  deriving DecidableEq

/-- `RiskAssessment` (risk.ts:67). -/
structure RiskAssessment where
  address : String
  chain : String
  totalScore : ℚ
  riskLevel : RiskLevel
  factors : List RiskFactor
  flags : List RiskFlag
  assessedAt : Time
  expiresAt : Time
  deriving DecidableEq

/-- The `reason` of a refusal, by its text in compliance-gate.ts. -/
inductive Reason where
  /-- "Address is manually blocked" -/
  | manuallyBlocked
  /-- "Chain … is not supported" -/
  | unsupportedChain (chain : String)
  /-- "Address is on sanctions list" -/
  | addressSanctioned
  /-- "Address has CRITICAL risk level (score: …)" -/
  | criticalAddress (riskScore : ℚ)
  /-- "High-risk address with large transaction amount ($…)" -/
  | highRiskLargeAmount (amount : ℚ)
  /-- "Transaction has CRITICAL risk level (score: …)" -/
  | criticalTransaction (riskScore : ℚ)
  /-- "Source address is on sanctions list" -/
  | sourceSanctioned
  /-- "Source address associated with mixer or darknet" -/
  | mixerOrDarknet
  deriving DecidableEq

/-- `ComplianceGateResult` (risk.ts:80): allowed without a reason. -/
structure ComplianceGateResult where
  reason : Option Reason
  riskAssessment : RiskAssessment
  deriving DecidableEq

def ComplianceGateResult.Allowed (result : ComplianceGateResult) : Prop := result.reason = none

instance : DecidablePred ComplianceGateResult.Allowed := fun result =>
  inferInstanceAs (Decidable (result.reason = none))

/-- The memory of a `ComplianceGate`: its two sets. -/
structure ComplianceGate where
  blockedAddresses : List String := []
  blockedChains : List String := []
  deriving DecidableEq

/-! ## Its methods -/

/-- `buildRiskAssessment` (:189). -/
def buildRiskAssessment (address chain : String) (totalScore : ℚ) (riskLevel : RiskLevel) (flags : List RiskFlag)
    (now : Time) : RiskAssessment :=
  { address, chain, totalScore, riskLevel, flags
    factors :=
      (if .sanctioned ∈ flags then [⟨.sanctions, 100, 2 / 5, "Address is on sanctions list"⟩] else []) ++
      (if .newAddress ∈ flags then [⟨.walletAge, 80, 1 / 5, "New wallet detected"⟩] else []) ++
      (if .mixer ∈ flags then [⟨.mixer, 90, 3 / 10, "Address associated with mixer"⟩] else []) ++
      if .darknet ∈ flags then [⟨.darknet, 95, 3 / 10, "Address associated with darknet"⟩] else []
    assessedAt := now, expiresAt := now + 3600000 }

/-- `buildBlockedAssessment` (:247). -/
def buildBlockedAssessment (address chain : String) (now : Time) : RiskAssessment :=
  { address, chain, totalScore := 100, riskLevel := .critical, factors := [], flags := [.sanctioned]
    assessedAt := now, expiresAt := now + 3600000 }

/-- The quick checks of `checkAddress` (:35). -/
def blocked? (gate : ComplianceGate) (address chain : String) (now : Time) : Option ComplianceGateResult :=
  if address.toLower ∈ gate.blockedAddresses then
    some { reason := some .manuallyBlocked, riskAssessment := buildBlockedAssessment address chain now }
  else if chain ∈ gate.blockedChains then
    some { reason := some (.unsupportedChain chain), riskAssessment := buildBlockedAssessment address chain now }
  else none

/-- What `checkAddress` decides on a risk result (:64). -/
def screenedAddress (address chain : String) (amount : ℚ) (riskResult : RiskResult) (now : Time) :
    ComplianceGateResult where
  reason :=
    if .sanctioned ∈ riskResult.flags then some .addressSanctioned
    else if riskResult.riskLevel = .critical then some (.criticalAddress riskResult.riskScore)
    else if riskResult.riskLevel = .high ∧ 50000 < amount then some (.highRiskLargeAmount amount)
    else none
  riskAssessment :=
    buildRiskAssessment address chain riskResult.riskScore riskResult.riskLevel riskResult.flags now

/-- What `checkTransaction` decides (:101). -/
def screenedTransaction (tx : TransactionInfo) (riskResult : RiskResult) (now : Time) : ComplianceGateResult where
  reason :=
    if riskResult.riskLevel = .critical then some (.criticalTransaction riskResult.riskScore)
    else if .sanctioned ∈ riskResult.flags then some .sourceSanctioned
    else if .mixer ∈ riskResult.flags ∨ .darknet ∈ riskResult.flags then some .mixerOrDarknet
    else none
  riskAssessment :=
    buildRiskAssessment tx.from tx.chain riskResult.riskScore riskResult.riskLevel riskResult.flags now

section
variable {σ : Type} (gate : ComplianceGate) (riskScorer : RiskScorer σ)

/-- `checkAddress` (:29). -/
def checkAddress (address chain : String) (amount : ℚ) (now : Time) (s : σ) :
    Except ScreeningError ComplianceGateResult × σ :=
  match blocked? gate address chain now with
  | some result => (.ok result, s)
  | none =>
    let (answer, s) := riskScorer.screenAddress address chain s
    (answer.map fun riskResult => screenedAddress address chain amount riskResult now, s)

/-- `checkTransaction` (:97). -/
def checkTransaction (tx : TransactionInfo) (now : Time) (s : σ) : Except ScreeningError ComplianceGateResult × σ :=
  let (answer, s) := riskScorer.screenTransaction tx s
  (answer.map fun riskResult => screenedTransaction tx riskResult now, s)

end

/-- `blockAddress` (:161); the lists are sets. -/
def ComplianceGate.blockAddress (gate : ComplianceGate) (address : String) : ComplianceGate :=
  { gate with blockedAddresses := gate.blockedAddresses.insert address.toLower }

def ComplianceGate.unblockAddress (gate : ComplianceGate) (address : String) : ComplianceGate :=
  { gate with blockedAddresses := gate.blockedAddresses.filter (· ≠ address.toLower) }

def ComplianceGate.blockChain (gate : ComplianceGate) (chain : String) : ComplianceGate :=
  { gate with blockedChains := gate.blockedChains.insert chain }

def ComplianceGate.unblockChain (gate : ComplianceGate) (chain : String) : ComplianceGate :=
  { gate with blockedChains := gate.blockedChains.filter (· ≠ chain) }

/-! ## What is stopped -/

/-- A list of the gate names the address or the chain. -/
def Blocked (gate : ComplianceGate) (address chain : String) : Prop :=
  address.toLower ∈ gate.blockedAddresses ∨ chain ∈ gate.blockedChains

def Sanctioned (riskResult : RiskResult) : Prop := .sanctioned ∈ riskResult.flags ∨ riskResult.riskLevel = .critical

def Tainted (riskResult : RiskResult) : Prop := .mixer ∈ riskResult.flags ∨ .darknet ∈ riskResult.flags

/-- A high risk with a large amount. -/
def Large (riskResult : RiskResult) (amount : ℚ) : Prop := riskResult.riskLevel = .high ∧ 50000 < amount

variable {σ : Type} {gate : ComplianceGate} {address chain : String} {amount : ℚ} {riskResult : RiskResult}
  {now : Time} {tx : TransactionInfo}

theorem blocked?_eq_none : blocked? gate address chain now = none ↔ ¬ Blocked gate address chain := by
  unfold blocked? Blocked
  split
  · simp_all
  · split <;> simp_all

theorem blocked?_refuses {result : ComplianceGateResult} (h : blocked? gate address chain now = some result) :
    ¬ result.Allowed := by
  unfold blocked? at h
  split at h
  · cases h
    exact nofun
  · split at h
    · cases h
      exact nofun
    · cases h

theorem screenedAddress_allowed : (screenedAddress address chain amount riskResult now).Allowed ↔
    ¬ Sanctioned riskResult ∧ ¬ Large riskResult amount := by
  unfold ComplianceGateResult.Allowed screenedAddress Sanctioned Large
  by_cases hflag : .sanctioned ∈ riskResult.flags
  · simp [hflag]
  by_cases hcritical : riskResult.riskLevel = .critical
  · simp [hflag, hcritical]
  · by_cases hhigh : riskResult.riskLevel = .high ∧ 50000 < amount <;> simp [hflag, hcritical, hhigh]

theorem screenedTransaction_allowed : (screenedTransaction tx riskResult now).Allowed ↔
    ¬ Sanctioned riskResult ∧ ¬ Tainted riskResult := by
  unfold ComplianceGateResult.Allowed screenedTransaction Sanctioned Tainted
  by_cases hcritical : riskResult.riskLevel = .critical
  · simp [hcritical]
  by_cases hflag : .sanctioned ∈ riskResult.flags
  · simp [hflag, hcritical]
  · by_cases htaint : .mixer ∈ riskResult.flags ∨ .darknet ∈ riskResult.flags <;> simp [hflag, hcritical, htaint]

/-- What is to be stopped, whichever way it comes. -/
def Forbidden (gate : ComplianceGate) (riskResult : RiskResult) (address chain : String) (amount : ℚ) : Prop :=
  Blocked gate address chain ∨ Sanctioned riskResult ∨ Tainted riskResult ∨ Large riskResult amount

/-- The answer of an entry point is a refusal. -/
def Refused (answer : Except ScreeningError ComplianceGateResult) : Prop :=
  ∃ result, answer = .ok result ∧ ¬ result.Allowed

theorem checkAddress_refused {riskScorer : RiskScorer σ} {s : σ}
    (hscreen : (riskScorer.screenAddress address chain s).1 = .ok riskResult) :
    Refused (checkAddress gate riskScorer address chain amount now s).1 ↔
      Blocked gate address chain ∨ Sanctioned riskResult ∨ Large riskResult amount := by
  unfold checkAddress Refused
  cases hblocked : blocked? gate address chain now with
  | some result =>
    have hlisted : Blocked gate address chain := by
      by_contra hnot
      rw [blocked?_eq_none.2 hnot] at hblocked
      cases hblocked
    exact iff_of_true ⟨result, rfl, blocked?_refuses hblocked⟩ (.inl hlisted)
  | none =>
    have hnot := blocked?_eq_none.1 hblocked
    simp only [hscreen, Except.map, Except.ok.injEq, exists_eq_left', screenedAddress_allowed]
    rw [← not_or, not_not]
    exact (or_iff_right hnot).symm

theorem checkTransaction_refused {riskScorer : RiskScorer σ} {s : σ}
    (hscreen : (riskScorer.screenTransaction tx s).1 = .ok riskResult) :
    Refused (checkTransaction riskScorer tx now s).1 ↔ Sanctioned riskResult ∨ Tainted riskResult := by
  unfold checkTransaction Refused
  simp only [hscreen, Except.map, Except.ok.injEq, exists_eq_left', screenedTransaction_allowed]
  rw [← not_or, not_not]

/-- **The two entry points stop what is forbidden just when** the address is sanctioned or critical, or the causes
that only one of them knows come together. -/
theorem stopped_iff (gate : ComplianceGate) (riskScorer : RiskScorer σ) (s : σ) (tx : TransactionInfo) (now : Time)
    (riskResult : RiskResult) (haddress : (riskScorer.screenAddress tx.from tx.chain s).1 = .ok riskResult)
    (htransaction : (riskScorer.screenTransaction tx s).1 = .ok riskResult) :
    (Forbidden gate riskResult tx.from tx.chain tx.amount →
      Refused (checkAddress gate riskScorer tx.from tx.chain tx.amount now s).1 ∧
        Refused (checkTransaction riskScorer tx now s).1) ↔
      Sanctioned riskResult ∨
        ((Blocked gate tx.from tx.chain ∨ Large riskResult tx.amount) ↔ Tainted riskResult) := by
  rw [checkAddress_refused haddress, checkTransaction_refused htransaction, Forbidden]
  by_cases hsanctioned : Sanctioned riskResult
  · simp [hsanctioned]
  · by_cases htainted : Tainted riskResult <;> simp [hsanctioned, htainted]

/-! ## A gap -/

/-- A scorer that answers the same result to everything. -/
def answering (riskResult : RiskResult) : RiskScorer Unit where
  screenAddress _ _ s := (.ok riskResult, s)
  screenTransaction _ s := (.ok riskResult, s)

/-- A result of low risk. -/
def harmless (flags : List RiskFlag) : RiskResult :=
  { address := "0xabc", chain := "1", riskScore := 10, riskLevel := .low, flags, details := {}
    screenedAt := 0, expiresAt := 300000 }

def transfer : TransactionInfo :=
  { «from» := "0xabc", «to» := "0xdef", amount := 25, asset := "ETH", chain := "1", timestamp := 0 }

/-- The rule for an address that is listed and blocked. -/
theorem stopped_iff_sanctioned :
    (Forbidden { blockedAddresses := ["0xabc"] } (harmless [.sanctioned]) "0xabc" "1" 25 →
      Refused (checkAddress { blockedAddresses := ["0xabc"] } (answering (harmless [.sanctioned])) "0xabc" "1" 25
          0 ()).1 ∧
        Refused (checkTransaction (answering (harmless [.sanctioned])) transfer 0 ()).1) ↔
      Sanctioned (harmless [.sanctioned]) ∨
        ((Blocked { blockedAddresses := ["0xabc"] } "0xabc" "1" ∨ Large (harmless [.sanctioned]) 25) ↔
          Tainted (harmless [.sanctioned])) :=
  stopped_iff { blockedAddresses := ["0xabc"] } (answering (harmless [.sanctioned])) () transfer 0
    (harmless [.sanctioned]) rfl rfl

/-- A blocked address can still be the source of a transfer, and the address of a mixer passes `checkAddress`. -/
theorem stopped_by_one :
    (Forbidden { blockedAddresses := ["0xabc"] } (harmless []) "0xabc" "1" 25 ∧
      ¬ Refused (checkTransaction (answering (harmless [])) transfer 0 ()).1) ∧
    (Forbidden {} (harmless [.mixer]) "0xabc" "1" 25 ∧
      ¬ Refused (checkAddress {} (answering (harmless [.mixer])) "0xabc" "1" 25 0 ()).1) := by
  refine ⟨⟨.inl (.inl (by decide +kernel)), ?_⟩, .inr (.inr (.inl (.inl (by decide)))), ?_⟩
  · rw [checkTransaction_refused rfl]
    simp [Sanctioned, Tainted, harmless]
  · rw [checkAddress_refused rfl]
    simp [Blocked, Sanctioned, Large, harmless]

end NexoraGateway.Compliance
