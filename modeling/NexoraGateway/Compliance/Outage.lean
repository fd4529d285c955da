import NexoraGateway.Async.Runs
import NexoraGateway.Compliance.Gate
import NexoraGateway.Compliance.Scorer

/-!
# What a listed address gets past (basic-risk-scorer.ts:161)

A sanctions check that fails counts as one without a match, and the score it leads to is cached. `shut_along` says
what keeps a listed address out: that no screening which misses the cache, of the address or of one with its cache
key, goes by a check that failed or does not know the spelling, unless the score is critical without a match.

* `Grave` — a result that is refused, `Safe` — a cache that leads to no other.
* `screening_safe` — one screening; `handle_safe` — one request.
-/
namespace NexoraGateway.Compliance

open Store Async

/-- What the sanctions provider lists. -/
abbrev SanctionsList : Type := String → String → Option SanctionsEntry

/-- A gate with its scorer's cache. -/
structure Desk where
  gate : ComplianceGate := {}
  cache : ScoreCache := Table.empty

/-- A call of the gate or of its scorer. -/
inductive Request where
  | screenAddress (address chain : String)
  | screenTransaction (tx : TransactionInfo)
  | checkAddress (address chain : String) (amount : ℚ)
  | checkTransaction (tx : TransactionInfo)
  | blockAddress (address : String)
  | unblockAddress (address : String)
  | blockChain (chain : String)
  | unblockChain (chain : String)

/-- A request with the clock, and with the error of the sanctions check when it fails. -/
structure Visit where
  request : Request
  failure : Option String := none
  now : Time
  answeredAt : Time
  gateNow : Time

variable (config : BasicRiskScorerConfig) (list : SanctionsList)

def Visit.check (visit : Visit) (address chain : String) : SanctionsCheck :=
  match visit.failure with
  | some e => .error e
  | none => .ok (list address chain)

def Visit.scorer (visit : Visit) : RiskScorer ScoreCache :=
  basicRiskScorer config (some (visit.check list)) visit.now visit.answeredAt

/-- A request, and what the gate answers when it is asked. -/
def handle (desk : Desk) (visit : Visit) : Option (Except ScreeningError ComplianceGateResult) × Desk :=
  match visit.request with
  | .screenAddress address chain =>
    (none, { desk with cache := ((visit.scorer config list).screenAddress address chain desk.cache).2 })
  | .screenTransaction tx =>
    (none, { desk with cache := ((visit.scorer config list).screenTransaction tx desk.cache).2 })
  | .checkAddress address chain amount =>
    let (answer, cache) :=
      checkAddress desk.gate (visit.scorer config list) address chain amount visit.gateNow desk.cache
    (some answer, { desk with cache })
  | .checkTransaction tx =>
    let (answer, cache) := checkTransaction (visit.scorer config list) tx visit.gateNow desk.cache
    (some answer, { desk with cache })
  | .blockAddress address => (none, { desk with gate := desk.gate.blockAddress address })
  | .unblockAddress address => (none, { desk with gate := desk.gate.unblockAddress address })
  | .blockChain chain => (none, { desk with gate := desk.gate.blockChain chain })
  | .unblockChain chain => (none, { desk with gate := desk.gate.unblockChain chain })

abbrev next (desk : Desk) (visit : Visit) : Desk := (handle config list desk visit).2

/-- The address and chain that the gate is asked about. -/
def Request.subject? : Request → Option (String × String)
  | .checkAddress address chain _ => some (address, chain)
  | .checkTransaction tx => some (tx.from, tx.chain)
  | _ => none

/-- The address and chain that the scorer is asked about. -/
def Visit.screened? (desk : Desk) (visit : Visit) : Option (String × String) :=
  match visit.request with
  | .screenAddress address chain => some (address, chain)
  | .screenTransaction tx | .checkTransaction tx => some (tx.from, tx.chain)
  | .checkAddress address chain _ =>
    if (blocked? desk.gate address chain visit.gateNow).isNone then some (address, chain) else none
  | _ => none

/-- The gate lets the address pass. -/
def Passed (answer : Option (Except ScreeningError ComplianceGateResult)) : Prop :=
  ∃ result, answer = some (.ok result) ∧ result.Allowed

instance : DecidablePred Passed
  | some (.ok result) => decidable_of_iff result.Allowed (by simp [Passed])
  | some (.error _) | none => isFalse (by simp [Passed])

/-- No listed address passes in the run. -/
def Shut (visits : List Visit) : Prop :=
  ∀ before visit, before ++ [visit] <+: visits → ∀ address chain, visit.request.subject? = some (address, chain) →
    (list address chain).isSome → ¬ Passed (handle config list (Runs.exec (next config list) {} before) visit).1

/-- The score of an address that no sanctions list knows. -/
def scoreWithoutMatch (address : String) : ℚ :=
  calculateTotalScore (calculateRiskFactors config (some (.ok none)) address)

/-- A screening that misses the cache, for a key of a listed address, is answered with an entry, or the score is
critical without one. -/
def Answered (desk : Desk) (visit : Visit) : Prop :=
  ∀ address chain, visit.screened? desk = some (address, chain) → cached? desk.cache address chain visit.now = none →
    (∃ listed listedOn, (list listed listedOn).isSome ∧ addressKey listed listedOn = addressKey address chain) →
    visit.failure = none ∧ (list address chain).isSome ∨
      config.criticalRiskThreshold ≤ min 100 (scoreWithoutMatch config address)

/-! ## Grave results -/

/-- A result of a scorer that the gate refuses in any case. -/
structure Grave (risk : RiskResult) : Prop where
  level : risk.riskLevel = determineRiskLevel config risk.riskScore
  cause : .sanctioned ∈ risk.flags ∨ config.criticalRiskThreshold ≤ min 100 risk.riskScore

/-- Whatever the cache has for a listed address leads to a grave result. -/
def Safe (cache : ScoreCache) : Prop :=
  ∀ address chain, (list address chain).isSome → ∀ cached ∈ cache.get? (addressKey address chain),
    80 ≤ cached.score ∨ config.criticalRiskThreshold ≤ min 100 cached.score

variable {config list} {cache : ScoreCache} {address chain : String} {now answeredAt : Time} {check : SanctionsCheck}
  {risk : RiskResult} {desk : Desk} {visit : Visit} {visits : List Visit}

theorem safe_empty : Safe config list Table.empty := by
  intro address chain _ cached hcached
  exact nomatch Dict.get?_eq_some.1 hcached

theorem Grave.sanctioned (h : Grave config risk) : Sanctioned risk := by
  rcases h.cause with hflag | hscore
  · exact .inl hflag
  · refine .inr ?_
    rw [h.level, determineRiskLevel, if_pos (hscore.trans (min_le_right _ _))]

theorem calculateTransactionRisk_nonneg (tx : TransactionInfo) : 0 ≤ calculateTransactionRisk tx := by
  unfold calculateTransactionRisk
  split <;> split <;> norm_num

theorem Grave.adjusted (h : Grave config risk) (tx : TransactionInfo) : Grave config (adjusted config tx risk) := by
  refine ⟨rfl, h.cause.imp id fun hscore => hscore.trans ?_⟩
  have hrisk := calculateTransactionRisk_nonneg tx
  exact le_min (min_le_left _ _) (min_le_min le_rfl (by linarith))

theorem scoreWithoutMatch_eq (hlisted : ¬ Listed (some check)) :
    (freshResult config (some check) address chain answeredAt).riskScore = scoreWithoutMatch config address := by
  rw [freshResult_score, if_neg hlisted]
  rcases check with _ | _ | entry
  · rfl
  · rfl
  · exact absurd ⟨entry, rfl⟩ hlisted

/-- A fresh result is grave when the check has a match or the score is critical without. -/
theorem freshResult_grave
    (h : Listed (some check) ∨ config.criticalRiskThreshold ≤ min 100 (scoreWithoutMatch config address)) :
    Grave config (freshResult config (some check) address chain answeredAt) := by
  refine ⟨rfl, ?_⟩
  by_cases hlisted : Listed (some check)
  · left
    rw [freshResult_flags, if_pos hlisted]
    exact List.mem_singleton_self _
  · right
    rw [scoreWithoutMatch_eq hlisted]
    exact h.resolve_left hlisted

/-- What the cache is given by a grave result. -/
theorem freshResult_cached (chain : String) (answeredAt : Time)
    (h : Listed (some check) ∨ config.criticalRiskThreshold ≤ min 100 (scoreWithoutMatch config address)) :
    80 ≤ (freshResult config (some check) address chain answeredAt).riskScore ∨
      config.criticalRiskThreshold ≤ min 100 (freshResult config (some check) address chain answeredAt).riskScore := by
  by_cases hlisted : Listed (some check)
  · left
    rw [freshResult_score, if_pos hlisted]
    norm_num
  · right
    rw [scoreWithoutMatch_eq hlisted]
    exact h.resolve_left hlisted

/-- What the provider says of a key that matters. -/
theorem Answered.listed (h : Answered config list desk visit) (hscreened : visit.screened? desk = some (address, chain))
    (hmiss : cached? desk.cache address chain visit.now = none)
    (hkey : ∃ listed listedOn, (list listed listedOn).isSome ∧ addressKey listed listedOn = addressKey address chain) :
    Listed (some (visit.check list address chain)) ∨
      config.criticalRiskThreshold ≤ min 100 (scoreWithoutMatch config address) := by
  refine (h address chain hscreened hmiss hkey).imp (fun hknown => ?_) id
  obtain ⟨entry, hentry⟩ := Option.isSome_iff_exists.1 hknown.2
  exact ⟨entry, by simp [Visit.check, hknown.1, hentry]⟩

/-- One screening keeps the cache safe, and what it answers about a listed address is grave. -/
theorem screening_safe (hsafe : Safe config list desk.cache) (hanswered : Answered config list desk visit)
    (hscreened : visit.screened? desk = some (address, chain)) :
    let answer := screenAddress config (some (visit.check list)) visit.now visit.answeredAt address chain desk.cache
    Safe config list answer.2 ∧ ((list address chain).isSome → Grave config answer.1) := by
  unfold screenAddress
  cases hhit : cached? desk.cache address chain visit.now with
  | some cached =>
    refine ⟨hsafe, fun hlisted => ⟨rfl, ?_⟩⟩
    have hcached := hsafe address chain hlisted cached (Option.filter_eq_some_iff.1 hhit).1
    exact hcached.imp (fun h80 => by simp [buildCachedResult, h80]) id
  | none =>
    have hfresh := hanswered.listed hscreened hhit
    refine ⟨fun listed listedOn hlisted cached hcached => ?_, fun hlisted => ?_⟩
    · rw [Option.mem_def, Dict.get?_put] at hcached
      split at hcached
      · rename_i hkey
        cases hcached
        exact freshResult_cached chain visit.answeredAt (hfresh ⟨listed, listedOn, hlisted, hkey.symm⟩)
      · exact hsafe listed listedOn hlisted cached hcached
    · exact freshResult_grave (hfresh ⟨address, chain, hlisted, rfl⟩)

/-- One request, when its screening is answered: the cache stays safe, and a listed address is refused. -/
theorem handle_safe (hsafe : Safe config list desk.cache) (hanswered : Answered config list desk visit) :
    Safe config list (next config list desk visit).cache ∧
      ∀ address chain, visit.request.subject? = some (address, chain) → (list address chain).isSome →
        ¬ Passed (handle config list desk visit).1 := by
  have hscreen (address chain : String) (h : visit.screened? desk = some (address, chain)) :=
    screening_safe hsafe hanswered h
  obtain ⟨request, failure, now, answeredAt, gateNow⟩ := visit
  cases request with
  | screenAddress address chain => exact ⟨(hscreen address chain rfl).1, fun _ _ h => nomatch h⟩
  | screenTransaction tx => exact ⟨(hscreen tx.from tx.chain rfl).1, fun _ _ h => nomatch h⟩
  | checkAddress address chain amount =>
    simp only [next, handle, checkAddress]
    cases hblocked : blocked? desk.gate address chain gateNow with
    | some refusal =>
      refine ⟨hsafe, ?_⟩
      rintro _ _ - - ⟨result, ⟨⟩, hallowed⟩
      exact blocked?_refuses hblocked hallowed
    | none =>
      obtain ⟨hnext, hgrave⟩ := hscreen address chain (by simp [Visit.screened?, hblocked])
      refine ⟨hnext, ?_⟩
      rintro _ _ ⟨⟩ hlisted ⟨result, ⟨⟩, hallowed⟩
      exact (screenedAddress_allowed.1 hallowed).1 (hgrave hlisted).sanctioned
  | checkTransaction tx =>
    obtain ⟨hnext, hgrave⟩ := hscreen tx.from tx.chain rfl
    refine ⟨hnext, ?_⟩
    rintro _ _ ⟨⟩ hlisted ⟨result, ⟨⟩, hallowed⟩
    exact (screenedTransaction_allowed.1 hallowed).1 ((hgrave hlisted).adjusted tx).sanctioned
  | blockAddress _ | unblockAddress _ | blockChain _ | unblockChain _ => exact ⟨hsafe, fun _ _ h => nomatch h⟩

/-- **A listed address is refused in every run** in which no screening of its cache key goes by a check that failed
or does not know the spelling. -/
theorem shut_along (config : BasicRiskScorerConfig) (list : SanctionsList) (visits : List Visit)
    (h : Runs.Along (next config list) (Answered config list) {} visits) : Shut config list visits := by
  intro before visit hbefore address chain hsubject hlisted
  obtain ⟨later, rfl⟩ := hbefore
  obtain ⟨hbefore, hvisit, -⟩ := Runs.along_append.1 (Runs.along_append.1 h).1
  have hsafe : Safe config list (Runs.exec (next config list) {} before).cache :=
    Runs.exec_inv (I := fun desk => Safe config list desk.cache)
      (fun _ _ hdesk hanswered => (handle_safe hdesk hanswered).1) safe_empty hbefore
  exact (handle_safe hsafe hvisit).2 address chain hsubject hlisted

/-! ## An outage -/

/-- A provider that lists one address, in whatever case it is asked about. -/
def oneListed : SanctionsList := fun address chain =>
  if address.toLower = "0xbad" ∧ chain = "1" then
    some { address := "0xbad", chain := "1", listName := "OFAC", entityName := "Mixer", addedAt := 0, reason := "AML" }
  else none

def visitAt (now : Time) (request : Request) (failure : Option String := none) : Visit :=
  { request, failure, now, answeredAt := now, gateNow := now }

/-- The rule on a run in which the provider fails for another address. -/
theorem shut_along_oneListed : Shut {} oneListed
    [visitAt 0 (.checkAddress "0xBAD" "1" 10), visitAt 1000 (.screenAddress "0xfine" "1") (some "timeout")] := by
  refine shut_along {} oneListed _ ⟨?_, ?_, trivial⟩
  · rintro _ _ ⟨⟩ - -
    exact .inl ⟨rfl, by decide +kernel⟩
  · rintro _ _ ⟨⟩ - ⟨listed, listedOn, hlisted, hkey⟩
    obtain ⟨hlower, rfl⟩ : listed.toLower = "0xbad" ∧ listedOn = "1" := by
      unfold oneListed at hlisted
      split at hlisted
      · assumption
      · cases hlisted
    rw [addressKey, hlower] at hkey
    exact absurd hkey (by decide +kernel)

/-- The check of a listed address fails once. -/
def outage : List Visit := [visitAt 0 (.checkAddress "0xbad" "1" 10) (some "timeout")]

/-- The address passes; and a second later, when the provider answers again, it passes by what the cache has. -/
theorem outage_passes :
    Passed (handle {} oneListed {} (visitAt 0 (.checkAddress "0xbad" "1" 10) (some "timeout"))).1 ∧
      ¬ Shut {} oneListed (outage ++ [visitAt 1000 (.checkAddress "0xbad" "1" 10)]) := by
  refine ⟨by decide +kernel, fun h => ?_⟩
  exact h outage _ (List.prefix_refl _) "0xbad" "1" rfl (by decide +kernel) (by decide +kernel)

end NexoraGateway.Compliance
