import NexoraGateway.Compliance.Audit

/-!
# The two thresholds of a decision (compliance-orchestrator.ts:30, :395)

`reviewThreshold` is compared with every score that is not stopped otherwise; `autoBlockThreshold` is configured and
never read. What blocks is the level that the scorer attached to the score, by thresholds of its own.

* `handle_answered` — a screening whose scorer answers decides by `makeDecision`.
* `heeded_iff` — when both thresholds are respected.
-/
namespace NexoraGateway.Compliance

/-- A score from `autoBlockThreshold` on is blocked, one from `reviewThreshold` on is blocked or marked for review. -/
structure Heeded (config : ComplianceConfig) (riskScore : ℚ) (result : ComplianceResult) : Prop where
  block : config.autoBlockThreshold ≤ riskScore → result.blocked = true
  review : config.reviewThreshold ≤ riskScore →
    result.blocked = true ∨ result.blockReason = some .requiresManualReview

variable {config : ComplianceConfig} {o : Orchestrator} {x : Screening} {risk : RiskResult}

/-- What the velocity checker answers at a screening, if it is asked. -/
abbrev velocityAt (config : ComplianceConfig) (o : Orchestrator) (x : Screening) : Option VelocityCheckResult :=
  (velocityOf config (x.point.transaction? x.now) x.now o.windows).map Prod.fst

/-- **A screening whose scorer answers** comes to a result, at each of the three points by the same decision. -/
theorem handle_answered (hanswer : x.answer = .ok risk) :
    ∃ result, (o.handle config x).1 = .ok result ∧
      result.blocked = (makeDecision config risk (velocityAt config o x) x.point.amount).1 ∧
      result.blockReason = (makeDecision config risk (velocityAt config o x) x.point.amount).2 := by
  obtain ⟨point, answer, now, auditId⟩ := x
  subst hanswer
  cases point <;> exact ⟨_, rfl, rfl, rfl⟩

/-- A manual review is asked for whenever the payment is not stopped. -/
theorem review_heeded {velocity : Option VelocityCheckResult} {amount : ℚ}
    (h : config.reviewThreshold ≤ risk.riskScore) :
    (makeDecision config risk velocity amount).1 = true ∨
      (makeDecision config risk velocity amount).2 = some .requiresManualReview := by
  by_cases hstopped : Stopped risk velocity amount
  · exact .inl (makeDecision_stopped hstopped)
  · rw [makeDecision_free hstopped]
    exact .inr (if_pos h)

/-- **The thresholds are respected just when** the score is below `autoBlockThreshold`, or the payment is stopped for
another reason: a sanction, a critical level, a high level with a large amount, or its velocity. -/
theorem heeded_iff (config : ComplianceConfig) (o : Orchestrator) (x : Screening) (risk : RiskResult)
    (hanswer : x.answer = .ok risk) :
    (∃ result, (o.handle config x).1 = .ok result ∧ Heeded config risk.riskScore result) ↔
      risk.riskScore < config.autoBlockThreshold ∨ Stopped risk (velocityAt config o x) x.point.amount := by
  obtain ⟨result, hresult, hblocked, hreason⟩ := handle_answered (x := x) hanswer
  constructor
  · rintro ⟨result', hresult', hheeded⟩
    obtain rfl := Except.ok.inj (hresult.symm.trans hresult')
    by_contra hfree
    obtain ⟨hscore, hstopped⟩ := not_or.1 hfree
    have hblock := hheeded.block (not_lt.1 hscore)
    rw [hblocked, makeDecision_free hstopped] at hblock
    exact Bool.false_ne_true hblock
  · intro h
    refine ⟨result, hresult, fun hscore => ?_, fun hscore => ?_⟩
    · rcases h with hlow | hstopped
      · exact absurd hscore (not_le.2 hlow)
      · exact hblocked.trans (makeDecision_stopped hstopped)
    · rw [hblocked, hreason]
      exact review_heeded hscore

/-- A score of 75 and a level that goes with it. -/
def highRisk (point : ScreeningPoint) : Screening := ⟨point, .ok (risky 75 .high), 0, "audit-0"⟩

/-- The rule for a critical level. -/
theorem heeded_iff_critical :
    (∃ result, (Orchestrator.handle { autoBlockThreshold := 75 } {}
        ⟨.settlement "pi" "0xabc" "1" 100, .ok (risky 95 .critical), 0, "audit-0"⟩).1 = .ok result ∧
        Heeded { autoBlockThreshold := 75 } 95 result) ↔
      (95 : ℚ) < 75 ∨ Stopped (risky 95 .critical) none 100 :=
  heeded_iff { autoBlockThreshold := 75 } {} ⟨.settlement "pi" "0xabc" "1" 100, .ok (risky 95 .critical), 0, "audit-0"⟩
    (risky 95 .critical) rfl

/-- At each of the three points a score that is to be blocked from 75 on is only marked for review. -/
theorem threshold_not_heeded :
    ([ScreeningPoint.intentCreation "pi" "0xabc" "1" 100, .deposit "pi" ⟨"0xabc", "0xdef", 100, "USDC", "1", 0⟩,
        .settlement "pi" "0xabc" "1" 100].map fun point =>
      (Orchestrator.handle { autoBlockThreshold := 75 } {} (highRisk point)).1.toOption.map fun result =>
        (result.blocked, result.blockReason)) =
      List.replicate 3 (some (false, some .requiresManualReview)) := by
  decide +kernel

end NexoraGateway.Compliance
