import Mathlib.Data.List.Sort
import Mathlib.Data.Rat.Floor
import NexoraGateway.Compliance.Types
import NexoraGateway.Store.Table

/-!
# Velocity (`compliance/src/velocity-checker.ts`)

`checkVelocity` adds the transaction to the records of its sender, drops those that have left the window, and
measures the rest. Amounts are added and divided exactly here, where the source rounds to doubles.
-/
namespace NexoraGateway.Compliance

open Store

/-- `VelocityWindow` (:6) with the values of `DEFAULT_VELOCITY_CONFIG`. -/
structure VelocityWindow where
  durationMs : ℚ := 60 * 60 * 1000
  maxTransactions : ℚ := 20
  maxAmount : ℚ := 100000

/-- `TransactionRecord` (:223). -/
structure TransactionRecord where
  amount : ℚ
  timestamp : Time
  deriving DecidableEq

/-- `windows`. -/
abbrev Windows : Type := Dict String (List TransactionRecord)

/-- `VelocityCheckResult` (:18). The score is `none` when it is not a finite number, the time since the last
transaction is `none` when it is `Infinity`. -/
structure VelocityCheckResult where
  exceeded : Bool
  score : Option ℚ
  flags : List RiskFlag
  transactionCount : ℕ
  totalAmount : ℚ
  averageAmount : ℚ
  timeSinceLastTransaction : Option Time
  windowDuration : ℚ
  deriving DecidableEq

/-- `now - r.timestamp <= durationMs`. -/
def VelocityWindow.Within (window : VelocityWindow) (now : Time) (timestamp : Time) : Prop :=
  ((now - timestamp : Time) : ℚ) ≤ window.durationMs

instance (window : VelocityWindow) (now timestamp : Time) : Decidable (window.Within now timestamp) :=
  inferInstanceAs (Decidable (_ ≤ _))

section
variable {window : VelocityWindow} {now now' : Time}

/-- What is in the window later is in it now. -/
theorem VelocityWindow.Within.anti {timestamp : Time} (h : window.Within now' timestamp) (hnow : now ≤ now') :
    window.Within now timestamp := by
  unfold VelocityWindow.Within at *
  have hcast : ((now - timestamp : Time) : ℚ) ≤ ((now' - timestamp : Time) : ℚ) := by
    exact_mod_cast Int.sub_le_sub_right hnow timestamp
  exact hcast.trans h

/-- Pruning at one instant is not noticed at a later one. -/
theorem filter_filter_within (hnow : now ≤ now') (records : List TransactionRecord) :
    ((records.filter fun r => window.Within now r.timestamp).filter fun r => window.Within now' r.timestamp) =
      records.filter fun r => window.Within now' r.timestamp := by
  rw [List.filter_filter]
  refine List.filter_congr fun r _ => ?_
  by_cases hlater : window.Within now' r.timestamp
  · simp [hlater, hlater.anti hnow]
  · simp [hlater]

end

/-- `getWindowRecords` (:143). -/
def getWindowRecords (windows : Windows) (key : String) : List TransactionRecord := (windows.get? key).getD []

/-- The time between the last two records (:87). -/
def timeSinceLast (records : List TransactionRecord) : Option Time :=
  match (records.map TransactionRecord.timestamp).insertionSort (· ≥ ·) with
  | last :: previous :: _ => some (last - previous)
  | _ => none

/-- `Math.min(cap, (x / limit) * cap)` for `0 ≤ x`; 0 / 0 is not a number. -/
def share (cap x limit : ℚ) : Option ℚ :=
  if limit ≠ 0 then some (min cap (x / limit * cap)) else if 0 < x then some cap else none

/-- `calculateVelocityScore` (:150). -/
def calculateVelocityScore (window : VelocityWindow) (transactionCount : ℕ) (totalAmount averageAmount : ℚ)
    (timeSinceLastTx : Option Time) : Option ℚ := do
  let countScore ← share 30 transactionCount window.maxTransactions
  let amountScore ← share 30 totalAmount window.maxAmount
  let avgScore ← share 20 averageAmount 10000
  let rapid : ℚ := match timeSinceLastTx with
    | some ms => if ms < 60000 then 20 else if ms < 300000 then 10 else 0
    | none => 0
  return min 100 (⌊countScore + amountScore + avgScore + rapid + 1 / 2⌋ : ℤ)

/-- `determineFlags` (:186). -/
def determineFlags (window : VelocityWindow) (transactionCount : ℕ) (averageAmount : ℚ)
    (timeSinceLastTx : Option Time) : List RiskFlag :=
  (if window.maxTransactions * (4 / 5) < transactionCount then [.velocityAnomaly] else []) ++
  (if 5 < transactionCount ∧ 9000 < averageAmount ∧ averageAmount < 10000 then [.velocityAnomaly] else []) ++
  if (∃ ms ∈ timeSinceLastTx, ms < 60000) ∧ 3 < transactionCount then [.velocityAnomaly] else []

/-- The measures of the records in the window (:77). -/
def measure (window : VelocityWindow) (validRecords : List TransactionRecord) : VelocityCheckResult :=
  let transactionCount := validRecords.length
  let totalAmount := (validRecords.map TransactionRecord.amount).sum
  let averageAmount := if 0 < transactionCount then totalAmount / transactionCount else 0
  let timeSinceLastTransaction := timeSinceLast validRecords
  { exceeded := window.maxTransactions < transactionCount ∨ window.maxAmount < totalAmount
    score := calculateVelocityScore window transactionCount totalAmount averageAmount timeSinceLastTransaction
    flags := determineFlags window transactionCount averageAmount timeSinceLastTransaction
    transactionCount, totalAmount, averageAmount, timeSinceLastTransaction, windowDuration := window.durationMs }

/-- The records that are left in the window with the transaction. -/
def windowWith (window : VelocityWindow) (tx : TransactionInfo) (now : Time) (records : List TransactionRecord) :
    List TransactionRecord :=
  (records ++ [TransactionRecord.mk tx.amount tx.timestamp]).filter fun r =>
    window.Within now r.timestamp

/-- `checkVelocity` (:57). -/
def checkVelocity (window : VelocityWindow) (tx : TransactionInfo) (now : Time) (windows : Windows) :
    VelocityCheckResult × Windows :=
  let key := addressKey tx.from tx.chain
  let validRecords := windowWith window tx now (getWindowRecords windows key)
  (measure window validRecords, windows.put (key, validRecords))

/-- `clearHistory` (:131). -/
def clearHistory (address chain : String) (windows : Windows) : Windows := windows.erase (addressKey address chain)

end NexoraGateway.Compliance
