import Mathlib.Data.List.Induction
import NexoraGateway.Compliance.Orchestrator
import NexoraGateway.Store.Sorting

/-!
# How often a payment counts (compliance-orchestrator.ts:105, :187)

Looking at the velocity records the payment, and a payment is looked at when its intent is created and when its
deposit is seen. `counted_iff` says when the measures are right nevertheless: in a history with a clock that does not
run back, at every decision just when no payment in the window has both of its screenings there, and none of them
belongs to another spelling of the address. Totals are exact sums, where the source adds doubles one by one.

* `Checkpoint` — one of the two screenings of a payment.
* `windows_after` — what the velocity checker keeps, `window_at` — what it measures.
-/
namespace NexoraGateway.Compliance

open Store Async

/-- What the two screenings of a payment have in common. -/
structure Payment where
  source : String
  chain : String
  amount : ℚ
  deriving DecidableEq

/-- Where a payment is screened. -/
inductive Stage where
  | intentCreation
  | deposit (recipient asset : String) (timestamp : Time)

/-- A screening of the payment of an intent. -/
structure Checkpoint where
  intentId : Id
  stage : Stage
  answer : Except ScreeningError RiskResult
  now : Time
  auditId : String

variable (config : ComplianceConfig) (pay : Id → Payment)

def Checkpoint.screening (c : Checkpoint) : Screening where
  point :=
    let payment := pay c.intentId
    match c.stage with
    | .intentCreation => .intentCreation c.intentId payment.source payment.chain payment.amount
    | .deposit recipient asset timestamp =>
      .deposit c.intentId
        { «from» := payment.source, «to» := recipient, amount := payment.amount, asset, chain := payment.chain
          timestamp }
  answer := c.answer
  now := c.now
  auditId := c.auditId

/-- The orchestrator after the screenings. -/
abbrev after (cs : List Checkpoint) : Orchestrator := screenedAll config (cs.map (Checkpoint.screening pay))

/-- The moment at which the screening counts. -/
def Checkpoint.timestamp (c : Checkpoint) : Time :=
  match c.stage with
  | .intentCreation => c.now
  | .deposit _ _ timestamp => timestamp

def Checkpoint.key (c : Checkpoint) : String := addressKey (pay c.intentId).source (pay c.intentId).chain

def Checkpoint.record (c : Checkpoint) : TransactionRecord := ⟨(pay c.intentId).amount, c.timestamp⟩

/-- The screenings of a history whose risk was answered and that fall in the window of `c`, under its key. -/
def inWindow (history : List Checkpoint) (c : Checkpoint) : List Checkpoint :=
  history.filter fun d =>
    d.answer.toBool && d.key pay = c.key pay && decide (config.window.Within c.now d.timestamp)

/-- The payments of the same source on the same chain that fall in the window of `c`. -/
def payments (history : List Checkpoint) (c : Checkpoint) : List Id :=
  (((inWindow config pay history c).filter fun d =>
    (pay d.intentId).source = (pay c.intentId).source ∧ (pay d.intentId).chain = (pay c.intentId).chain).map
      Checkpoint.intentId).dedup

/-- The measures on which `c` is decided, after the history `before`. -/
def measures (before : List Checkpoint) (c : Checkpoint) : Option VelocityCheckResult :=
  if c.answer.toBool then
    (velocityOf config ((c.screening pay).point.transaction? c.now) c.now
      (after config pay before).windows).map Prod.fst
  else none

/-- Every payment in the window counts once at `c`, and within the limits nothing is blocked for exceeding them. -/
structure Counted (before : List Checkpoint) (c : Checkpoint) : Prop where
  count : ∀ result ∈ measures config pay before c,
    result.transactionCount = (payments config pay (before ++ [c]) c).length
  total : ∀ result ∈ measures config pay before c,
    result.totalAmount = ((payments config pay (before ++ [c]) c).map fun id => (pay id).amount).sum
  allowed : ((payments config pay (before ++ [c]) c).length : ℚ) ≤ config.velocityMaxTransactions →
    ((payments config pay (before ++ [c]) c).map fun id => (pay id).amount).sum ≤ config.velocityMaxAmount →
    ∀ result, ((after config pay before).handle config (c.screening pay)).1 = .ok result →
      result.blockReason ≠ some .velocityLimitExceeded

/-- No payment has two screenings in the window of `c`, and no other spelling of its address has one. -/
def Apart (history : List Checkpoint) (c : Checkpoint) : Prop :=
  ((inWindow config pay history c).map Checkpoint.intentId).Nodup ∧
    ∀ d ∈ inWindow config pay history c,
      (pay d.intentId).source = (pay c.intentId).source ∧ (pay d.intentId).chain = (pay c.intentId).chain

/-! ## What is kept -/

variable {config pay} {window : VelocityWindow} {o : Orchestrator} {before history : List Checkpoint} {c : Checkpoint}
  {now now' t : Time}

/-- The transaction that a screening has checked. -/
theorem transaction_screening (pay : Id → Payment) (c : Checkpoint) :
    ∃ tx, (c.screening pay).point.transaction? c.now = some tx ∧ addressKey tx.from tx.chain = c.key pay ∧
      TransactionRecord.mk tx.amount tx.timestamp = c.record pay := by
  obtain ⟨intentId, stage, answer, now, auditId⟩ := c
  cases stage <;> exact ⟨_, rfl, rfl, rfl⟩

theorem next_windows (henabled : config.enableVelocityChecks = true) :
    (o.next config (c.screening pay)).windows =
      if c.answer.toBool then
        o.windows.put (c.key pay, (getWindowRecords o.windows (c.key pay) ++ [c.record pay]).filter fun r =>
          config.window.Within c.now r.timestamp)
      else o.windows := by
  obtain ⟨intentId, stage, answer, now, auditId⟩ := c
  have hvelocity (tx : TransactionInfo) : velocityOf config (some tx) now o.windows =
      some (checkVelocity config.window tx now o.windows) := if_pos henabled
  rcases answer with (_ | _) | risk
  · cases stage <;> rfl
  · cases stage <;> rfl
  · cases stage <;>
    · simp only [Orchestrator.next, Orchestrator.handle, Checkpoint.screening, screenIntentCreation, screenDeposit,
        screened, hvelocity]
      rfl

/-- The records of the screenings under a key. -/
def recordsOf (pay : Id → Payment) (history : List Checkpoint) (key : String) : List TransactionRecord :=
  (history.filter fun d => d.answer.toBool && d.key pay = key).map (Checkpoint.record pay)

theorem recordsOf_append {cs ds : List Checkpoint} {key : String} :
    recordsOf pay (cs ++ ds) key = recordsOf pay cs key ++ recordsOf pay ds key := by
  rw [recordsOf, List.filter_append, List.map_append]
  rfl

/-- **What the velocity checker keeps** is what is still in the window. -/
theorem windows_after (henabled : config.enableVelocityChecks = true) {cs : List Checkpoint}
    (hclock : (cs.map Checkpoint.now).Pairwise (· ≤ ·)) (hnow : ∀ d ∈ cs, d.now ≤ now) (key : String) :
    (getWindowRecords (after config pay cs).windows key).filter (fun r => config.window.Within now r.timestamp) =
      (recordsOf pay cs key).filter fun r => config.window.Within now r.timestamp := by
  induction cs using List.reverseRecOn with
  | nil => rfl
  | append_singleton cs c ih =>
    rw [List.map_append, List.pairwise_append] at hclock
    have hcs := ih hclock.1 fun d hd => hnow d (List.mem_append_left _ hd)
    have hc := hnow c (List.mem_append_right _ (List.mem_singleton_self c))
    have hstep : after config pay (cs ++ [c]) = (after config pay cs).next config (c.screening pay) := by
      rw [after, List.map_append, screenedAll, Runs.exec_append]
      rfl
    rw [hstep, getWindowRecords, next_windows henabled, recordsOf_append, List.filter_append (recordsOf pay cs key),
      ← hcs]
    by_cases hanswer : c.answer.toBool = true
    · rw [if_pos hanswer, Dict.get?_put]
      by_cases hkey : c.key pay = key
      · subst hkey
        rw [if_pos rfl, Option.getD_some, filter_filter_within hc, List.filter_append]
        simp [recordsOf, hanswer]
      · rw [if_neg hkey]
        simp [recordsOf, hkey, getWindowRecords]
    · rw [if_neg hanswer]
      simp [recordsOf, hanswer, getWindowRecords]

/-! ## What is measured -/

theorem filter_recordsOf :
    (recordsOf pay history (c.key pay)).filter (fun r => config.window.Within c.now r.timestamp) =
      (inWindow config pay history c).map (Checkpoint.record pay) := by
  rw [recordsOf, inWindow, List.filter_map, List.filter_filter]
  refine congrArg (List.map _) (List.filter_congr fun d _ => ?_)
  exact Bool.and_comm _ _

/-- **What a decision goes by**: the screenings in the window, the one at hand included. -/
theorem window_at (pay : Id → Payment) (henabled : config.enableVelocityChecks = true)
    (hclock : ((before ++ [c]).map Checkpoint.now).Pairwise (· ≤ ·)) (hanswer : c.answer.toBool = true) :
    measures config pay before c =
      some (measure config.window ((inWindow config pay (before ++ [c]) c).map (Checkpoint.record pay))) := by
  rw [List.map_append, List.pairwise_append] at hclock
  have hnow : ∀ d ∈ before, d.now ≤ c.now := fun d hd =>
    hclock.2.2 d.now (List.mem_map_of_mem hd) c.now (List.mem_map_of_mem (List.mem_singleton_self c))
  obtain ⟨tx, htx, hkey, hrecord⟩ := transaction_screening pay c
  have hwindow : windowWith config.window tx c.now (getWindowRecords (after config pay before).windows (c.key pay)) =
      (inWindow config pay (before ++ [c]) c).map (Checkpoint.record pay) := by
    have hnew : recordsOf pay [c] (c.key pay) = [c.record pay] := by simp [recordsOf, hanswer]
    rw [windowWith, hrecord, List.filter_append, windows_after henabled hclock.1 hnow, ← List.filter_append, ← hnew,
      ← recordsOf_append, filter_recordsOf]
  rw [measures, if_pos hanswer, htx, velocityOf, if_pos henabled, Option.map_some, Option.map_some, checkVelocity, hkey,
    hwindow]

/-- A decision is taken for velocity only if the limits are exceeded. -/
theorem makeDecision_velocity {risk : RiskResult} {velocity : Option VelocityCheckResult} {amount : ℚ}
    (h : (makeDecision config risk velocity amount).2 = some .velocityLimitExceeded) :
    ∃ result ∈ velocity, result.exceeded = true := by
  by_contra hno
  have hany : ¬ velocity.any (·.exceeded) = true := fun hany => hno ((Option.any_eq_true _ _).1 hany)
  simp only [makeDecision, if_neg hany] at h
  split_ifs at h <;> cases h

/-- The reason of a decision. -/
theorem handle_reason {result : ComplianceResult}
    (h : ((after config pay before).handle config (c.screening pay)).1 = .ok result)
    (hreason : result.blockReason = some .velocityLimitExceeded) :
    ∃ metrics ∈ measures config pay before c, metrics.exceeded = true := by
  obtain ⟨intentId, stage, answer, now, auditId⟩ := c
  rcases answer with (_ | _) | risk
  · cases stage <;> cases h <;> cases hreason
  · cases stage <;> cases h
  · cases stage <;>
    · cases h
      exact makeDecision_velocity hreason

/-- A screening that measures nothing is blocked for nothing that it measures. -/
theorem counted_of_none (h : measures config pay before c = none) : Counted config pay before c where
  count result hresult := nomatch h.symm.trans hresult
  total result hresult := nomatch h.symm.trans hresult
  allowed _ _ result hresult hreason := by
    obtain ⟨metrics, hmetrics, -⟩ := handle_reason hresult hreason
    exact nomatch h.symm.trans hmetrics

/-- There are as many payments as screenings in the window just when they are apart. -/
theorem length_payments : (inWindow config pay history c).length = (payments config pay history c).length ↔
    Apart config pay history c := by
  rw [payments, length_eq_dedup_iff]
  simp only [Apart, decide_eq_true_iff]

/-- Then the payments are those that are screened. -/
theorem Apart.payments_eq (h : Apart config pay history c) :
    payments config pay history c = (inWindow config pay history c).map Checkpoint.intentId := by
  rw [payments, List.filter_eq_self.2 fun d hd => decide_eq_true (h.2 d hd), List.dedup_eq_self.2 h.1]

theorem Apart.total_eq (h : Apart config pay history c) :
    (measure window ((inWindow config pay history c).map (Checkpoint.record pay))).totalAmount =
      ((payments config pay history c).map fun id => (pay id).amount).sum := by
  rw [measure, h.payments_eq, List.map_map, List.map_map]
  rfl

theorem Apart.count_eq (h : Apart config pay history c) :
    (measure window ((inWindow config pay history c).map (Checkpoint.record pay))).transactionCount =
      (payments config pay history c).length := by
  rw [measure, List.length_map]
  exact length_payments.2 h

theorem exceeded_iff {records : List TransactionRecord} : (measure window records).exceeded = true ↔
    window.maxTransactions < ((measure window records).transactionCount : ℚ) ∨
      window.maxAmount < (measure window records).totalAmount :=
  decide_eq_true_iff

/-- One decision. -/
theorem counted_iff_apart (henabled : config.enableVelocityChecks = true)
    (hclock : ((before ++ [c]).map Checkpoint.now).Pairwise (· ≤ ·)) (hanswer : c.answer.toBool = true) :
    Counted config pay before c ↔ Apart config pay (before ++ [c]) c := by
  have hmeasures := window_at pay henabled hclock hanswer
  constructor
  · intro h
    have hlength := h.count _ hmeasures
    rw [measure, List.length_map] at hlength
    exact length_payments.1 hlength
  · intro h
    refine ⟨fun result hresult => ?_, fun result hresult => ?_, fun hfew hlittle result hresult hreason => ?_⟩
    · cases hmeasures.symm.trans hresult
      exact h.count_eq
    · cases hmeasures.symm.trans hresult
      exact h.total_eq
    · obtain ⟨metrics, hmetrics, hexceeded⟩ := handle_reason hresult hreason
      cases hmeasures.symm.trans hmetrics
      rcases exceeded_iff.1 hexceeded with hmany | hmuch
      · rw [h.count_eq] at hmany
        exact not_lt.2 hfew hmany
      · rw [h.total_eq] at hmuch
        exact not_lt.2 hlittle hmuch

/-- **Every decision of a history counts every payment once just when** velocity is not looked at, or at every
answered screening no payment in the window has two screenings there, and no other spelling of its address has one. -/
theorem counted_iff (config : ComplianceConfig) (pay : Id → Payment) (cs : List Checkpoint)
    (hclock : (cs.map Checkpoint.now).Pairwise (· ≤ ·)) :
    (∀ before c, before ++ [c] <+: cs → Counted config pay before c) ↔
      (config.enableVelocityChecks = true → ∀ before c, before ++ [c] <+: cs → c.answer.toBool = true →
        Apart config pay (before ++ [c]) c) := by
  have hordered {before : List Checkpoint} {c : Checkpoint} (h : before ++ [c] <+: cs) :
      ((before ++ [c]).map Checkpoint.now).Pairwise (· ≤ ·) := hclock.sublist (h.sublist.map _)
  constructor
  · intro h henabled before c hbefore hanswer
    exact (counted_iff_apart henabled (hordered hbefore) hanswer).1 (h before c hbefore)
  · intro h before c hbefore
    by_cases hanswer : c.answer.toBool = true
    · by_cases henabled : config.enableVelocityChecks = true
      · exact (counted_iff_apart henabled (hordered hbefore) hanswer).2 (h henabled before c hbefore hanswer)
      · exact counted_of_none (by rw [measures, if_pos hanswer, velocityOf, if_neg henabled, Option.map_none])
    · exact counted_of_none (if_neg hanswer)

/-! ## A payment that counts twice -/

/-- A payment of 60 000 of a customer that may move 100 000 an hour. -/
def oneIntent : Id → Payment := fun _ => { source := "0xabc", chain := "1", amount := 60000 }

def lowRisk : RiskResult :=
  { address := "0xabc", chain := "1", riskScore := 20, riskLevel := .low, flags := [], details := {}, screenedAt := 0
    expiresAt := 3600000 }

/-- Its intent is created, and a minute later its deposit is seen. -/
def created : Checkpoint := ⟨"pi", .intentCreation, .ok lowRisk, 0, "audit-0"⟩

def deposited : Checkpoint := ⟨"pi", .deposit "0xdef" "USDC" 60000, .ok lowRisk, 60000, "audit-1"⟩

/-- The rule for the payment whose deposit is seen two hours later. -/
theorem counted_iff_later :
    (∀ before c,
        before ++ [c] <+: [created, { deposited with stage := .deposit "0xdef" "USDC" 7200000, now := 7200000 }] →
        Counted {} oneIntent before c) ↔
      (({} : ComplianceConfig).enableVelocityChecks = true → ∀ before c,
        before ++ [c] <+: [created, { deposited with stage := .deposit "0xdef" "USDC" 7200000, now := 7200000 }] →
        c.answer.toBool = true → Apart {} oneIntent (before ++ [c]) c) :=
  counted_iff {} oneIntent _ (by decide)

/-- The deposit is measured as the second of two payments, 120 000 in all, and blocked. -/
theorem counted_twice :
    (measures {} oneIntent [created] deposited).map (fun m => (m.transactionCount, m.totalAmount)) = some (2, 120000) ∧
      ((after {} oneIntent [created]).handle {} (deposited.screening oneIntent)).1.toOption.bind (·.blockReason) =
        some .velocityLimitExceeded ∧
      payments {} oneIntent [created, deposited] deposited = ["pi"] ∧ ¬ Counted {} oneIntent [created] deposited := by
  have hmeasures : (measures {} oneIntent [created] deposited).map (fun m => (m.transactionCount, m.totalAmount)) =
      some (2, 120000) := by decide +kernel
  have hpayments : payments {} oneIntent [created, deposited] deposited = ["pi"] := by decide +kernel
  refine ⟨hmeasures, by decide +kernel, hpayments, fun h => ?_⟩
  obtain ⟨m, hm, htwo⟩ := Option.map_eq_some_iff.1 hmeasures
  have hone := h.count m hm
  rw [List.singleton_append, hpayments, (Prod.mk.inj htwo).1] at hone
  exact absurd hone (by decide)

end NexoraGateway.Compliance
