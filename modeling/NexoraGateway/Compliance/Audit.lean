import Mathlib.Data.List.Induction
import NexoraGateway.Compliance.Gate
import NexoraGateway.Compliance.Orchestrator

/-!
# Whether the audit log says what was decided (compliance-orchestrator.ts:92-434)

A screening whose risk asks for a manual review is logged as `ALLOW`, and an error that is no
`ScreeningUnavailableError` is thrown without an entry. `audited_iff` says that nothing else goes wrong: a history
is audited just when none of its screenings is rejected otherwise or comes to a review.

* `makeDecision_review` — when a review is asked for.
* `screened_recorded` — one screening, of any of the three kinds.
-/
namespace NexoraGateway.Compliance

open Async

variable {config : ComplianceConfig} {risk : RiskResult} {velocity : Option VelocityCheckResult} {amount : ℚ}
  {o : Orchestrator} {x : Screening}

/-- The decision that a result calls for, by its `blocked` and its `blockReason`. -/
def decisionOf (blocked : Bool) (reason : Option BlockReason) : Decision :=
  if blocked then .block else if reason = some .requiresManualReview then .review else .allow

/-- A screening answers a result, a blocking one if the scorer rejected it, and appends an entry about it. -/
def Recorded (intentId : Id) (action : Action) (answer : Except ScreeningError RiskResult) (o : Orchestrator)
    (out : Except ScreeningError ComplianceResult × Orchestrator) : Prop :=
  ∃ result entry, out.1 = .ok result ∧ out.2.auditLog = o.auditLog ++ [entry] ∧ entry.intentId = intentId ∧
    entry.action = action ∧ entry.decision = decisionOf result.blocked result.blockReason ∧
    ((∃ e, answer = .error e) → result.blocked = true)

/-- The risk alone, or the velocity, stops the payment. -/
def Stopped (risk : RiskResult) (velocity : Option VelocityCheckResult) (amount : ℚ) : Prop :=
  Sanctioned risk ∨ Large risk amount ∨ ∃ result ∈ velocity, result.exceeded = true

/-- A rejection is a `ScreeningUnavailableError`; an answer is below the threshold of review, or stopped. -/
def Straight (config : ComplianceConfig) (tx : Option TransactionInfo) (amount : ℚ) (now : Time) (windows : Windows) :
    Except ScreeningError RiskResult → Prop
  | .ok risk => risk.riskScore < config.reviewThreshold ∨
      Stopped risk ((velocityOf config tx now windows).map Prod.fst) amount
  | .error (.screeningUnavailable ..) => True
  | .error (.other _) => False

/-! ## One screening -/

theorem makeDecision_stopped (h : Stopped risk velocity amount) :
    (makeDecision config risk velocity amount).1 = true := by
  unfold makeDecision
  split_ifs with hflag hcritical hlarge hvelocity hreview
  iterate 4 rfl
  all_goals
    rcases h with (hsanctioned | hlevel) | hhigh | ⟨result, hresult, hexceeded⟩
    · exact absurd hsanctioned hflag
    · exact absurd hlevel hcritical
    · exact absurd hhigh hlarge
    · exact absurd ((Option.any_eq_true _ _).2 ⟨result, hresult, hexceeded⟩) hvelocity

theorem makeDecision_free (h : ¬ Stopped risk velocity amount) : makeDecision config risk velocity amount =
    (false, if config.reviewThreshold ≤ risk.riskScore then some .requiresManualReview else none) := by
  unfold Stopped Sanctioned Large at h
  push Not at h
  obtain ⟨⟨hflag, hcritical⟩, hlarge, hvelocity⟩ := h
  have hany : ¬ velocity.any (·.exceeded) = true := by
    rw [Option.any_eq_true]
    rintro ⟨result, hresult, hexceeded⟩
    exact hvelocity result hresult hexceeded
  rw [makeDecision, if_neg hflag, if_neg hcritical, if_neg (fun hhigh => absurd hhigh.2 (not_lt.2 (hlarge hhigh.1))),
    if_neg hany]
  split <;> rfl

/-- What is logged of a decision is what it says, but for a review. -/
theorem logged_iff : (if (makeDecision config risk velocity amount).1 then Decision.block else .allow) =
      decisionOf (makeDecision config risk velocity amount).1 (makeDecision config risk velocity amount).2 ↔
    risk.riskScore < config.reviewThreshold ∨ Stopped risk velocity amount := by
  unfold decisionOf
  by_cases hstopped : Stopped risk velocity amount
  · simp [makeDecision_stopped hstopped, hstopped]
  · rw [makeDecision_free hstopped]
    by_cases hreview : config.reviewThreshold ≤ risk.riskScore
    · simp [hreview, hstopped]
    · simp [hreview, not_le.1 hreview]

/-- **One screening is recorded just when** it is straight. -/
theorem screened_recorded {action : Action} {intentId : Id} {address chain : String} {tx : Option TransactionInfo}
    {details : Option VelocityCheckResult → AuditDetails}
    {place : RiskResult → Option RiskResult × Option RiskResult} {answer : Except ScreeningError RiskResult}
    {now : Time} {auditId : String} :
    Recorded intentId action answer o
        (screened config action intentId address chain amount tx details place answer now auditId o) ↔
      Straight config tx amount now o.windows answer := by
  rcases answer with (⟨provider, reason⟩ | message) | risk
  · exact iff_of_true ⟨_, _, rfl, rfl, rfl, rfl, rfl, fun _ => rfl⟩ trivial
  · refine iff_of_false ?_ id
    rintro ⟨result, entry, hanswer, -⟩
    exact nomatch hanswer
  · rw [Straight, ← logged_iff]
    constructor
    · rintro ⟨result, entry, hanswer, hlog, -, -, hdecision, -⟩
      cases hanswer
      obtain rfl := List.singleton_injective (List.append_cancel_left hlog)
      exact hdecision
    · intro h
      exact ⟨_, _, rfl, rfl, rfl, rfl, h, fun ⟨e, he⟩ => nomatch he⟩

/-- The screening is straight in the state in which it is made. -/
abbrev Plain (config : ComplianceConfig) (o : Orchestrator) (x : Screening) : Prop :=
  Straight config (x.point.transaction? x.now) x.point.amount x.now o.windows x.answer

theorem handle_recorded :
    Recorded x.point.intentId x.point.action x.answer o (o.handle config x) ↔ Plain config o x := by
  obtain ⟨point, answer, now, auditId⟩ := x
  cases point <;> exact screened_recorded

/-! ## A history -/

/-- Every screening of a history is recorded, and the statistics count each of them once. -/
structure Audited (config : ComplianceConfig) (xs : List Screening) : Prop where
  each : ∀ before x, before ++ [x] <+: xs → Recorded x.point.intentId x.point.action x.answer
    (screenedAll config before) ((screenedAll config before).handle config x)
  partition : ∀ before, before <+: xs →
    (getStats (screenedAll config before)).totalScreenings = before.length ∧
      (getStats (screenedAll config before)).allowed + (getStats (screenedAll config before)).blocked +
        (getStats (screenedAll config before)).review = before.length

theorem stats_total : (getStats o).allowed + (getStats o).blocked + (getStats o).review = o.auditLog.length := by
  unfold getStats
  induction o.auditLog with
  | nil => rfl
  | cons entry log ih =>
    simp only [List.countP_cons, List.length_cons] at ih ⊢
    cases entry.decision <;> simp <;> omega

/-- A plain screening is logged once. -/
theorem next_length (h : Plain config o x) : (o.next config x).auditLog.length = o.auditLog.length + 1 := by
  obtain ⟨_, entry, -, hlog, -⟩ := handle_recorded.2 h
  rw [hlog, List.length_append]
  rfl

/-- A history of plain screenings is logged screening by screening. -/
theorem log_length {xs : List Screening} (h : Runs.Along (Orchestrator.next config) (Plain config) {} xs) :
    (screenedAll config xs).auditLog.length = xs.length := by
  induction xs using List.reverseRecOn with
  | nil => rfl
  | append_singleton before x ih =>
    obtain ⟨hbefore, hplain, -⟩ := Runs.along_append.1 h
    rw [screenedAll, Runs.exec_append, Runs.exec_cons, Runs.exec_nil, next_length hplain, ih hbefore,
      List.length_append]
    rfl

/-- **A history is audited just when** no screening of it is rejected by another error than a
`ScreeningUnavailableError`, or comes to a manual review. -/
theorem audited_iff (config : ComplianceConfig) (xs : List Screening) :
    Audited config xs ↔ Runs.Along (Orchestrator.next config) (Plain config) {} xs := by
  constructor
  · intro h
    exact Runs.along_iff.2 fun before x hbefore => handle_recorded.1 (h.each before x hbefore)
  · intro h
    refine ⟨fun before x hbefore => handle_recorded.2 (Runs.along_iff.1 h before x hbefore), ?_⟩
    rintro before ⟨later, rfl⟩
    have hlength := log_length (Runs.along_append.1 h).1
    exact ⟨hlength, stats_total.trans hlength⟩

/-! ## A review and an error -/

def risky (riskScore : ℚ) (riskLevel : RiskLevel) : RiskResult :=
  { address := "0xabc", chain := "1", riskScore, riskLevel, flags := [], details := {}, screenedAt := 0
    expiresAt := 3600000 }

/-- A settlement that asks for a review, and one whose scorer fails in its own way. -/
def reviewed : Screening := ⟨.settlement "pi" "0xabc" "1" 100, .ok (risky 75 .high), 0, "audit-0"⟩

def thrown : Screening := ⟨.settlement "pi" "0xabc" "1" 100, .error (.other "Invalid address"), 0, "audit-0"⟩

/-- The first is answered with `Requires manual review` and logged as `ALLOW`; the second is thrown and not logged. -/
theorem review_not_audited :
    (((Orchestrator.handle {} {} reviewed).1.toOption.bind (·.blockReason)) = some .requiresManualReview ∧
      (Orchestrator.next {} {} reviewed).auditLog.map (·.decision) = [.allow] ∧ ¬ Audited {} [reviewed]) ∧
    ((Orchestrator.handle {} {} thrown).1 = .error (.other "Invalid address") ∧
      (Orchestrator.next {} {} thrown).auditLog = [] ∧ ¬ Audited {} [thrown]) := by
  refine ⟨⟨by decide +kernel, by decide +kernel, fun h => ?_⟩, rfl, rfl, fun h => ?_⟩
  · rcases handle_recorded.1 (h.each [] reviewed (List.prefix_refl _)) with
      hlow | (hflag | hlevel) | hlarge | ⟨result, hvelocity, -⟩
    · exact absurd hlow (by decide +kernel)
    · exact absurd hflag List.not_mem_nil
    · exact nomatch hlevel
    · exact absurd hlarge.2 (by decide +kernel)
    · exact nomatch hvelocity
  · exact absurd (h.partition [thrown] (List.prefix_refl _)).1 (by decide)

end NexoraGateway.Compliance
