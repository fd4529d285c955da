import NexoraGateway.Intent.Types
import NexoraGateway.Numbers
import Mathlib.Data.List.Infix

/-!
# Settlements and the ledger (`shared/src/types/settlement.ts`, migrations 004 and 005)

The rows of `settlements` and `ledger_entries`, the amounts of a payout and the errors of the
settlement package.
-/
namespace NexoraGateway.Settlements

inductive SettlementStatus where
  | pending | processing | completed | failed | retrying
  deriving DecidableEq, Repr

/-- The status as the `status` column and the error texts spell it. -/
def SettlementStatus.name : SettlementStatus → String
  | .pending => "PENDING"
  | .processing => "PROCESSING"
  | .completed => "COMPLETED"
  | .failed => "FAILED"
  | .retrying => "RETRYING"

/-- A `settlements` row, `mapRow` (settlement.repository.ts:206) being the identity on it. The column
`retry_count` is never read or written. -/
structure Settlement where
  id : Id
  intentId : Id
  merchantId : Id
  amount : ℚ
  asset : String
  chain : String
  destinationAddress : String
  status : SettlementStatus := .pending
  txHash : Option Id := none
  createdAt : Time
  updatedAt : Time
  completedAt : Option Time := none
  deriving DecidableEq

inductive LedgerEntryType where
  | deposit | fee | settlement | refund | fxGainLoss
  deriving DecidableEq, Repr

/-- `CreateLedgerEntryParams` (ledger.repository.ts:14). -/
structure CreateLedgerEntryParams where
  intentId : Id
  entryType : LedgerEntryType
  amount : ℚ
  asset : String
  chain : String
  debitAccount : String
  creditAccount : String
  metadata : Option Payload := none

/-- A `ledger_entries` row. -/
structure LedgerEntry extends CreateLedgerEntryParams where
  id : Id
  createdAt : Time

/-- `calculateSettlementAmount` (ledger.service.ts:246). -/
def calculateSettlementAmount (targetAmount feePercentage : ℚ) : ℚ :=
  let fee := targetAmount * (feePercentage / 100)
  Ecma.mathRound ((targetAmount - fee) * 10 ^ 8) / 10 ^ 8

/-- `Number.prototype.toString` of a number with at most 8 decimals: the digits `s` without trailing
zeros, the decimal point after `n` of them, an exponent when `n` is outside `-5 … 21`. -/
def numeral (q : ℚ) : String :=
  let digits := Nat.toDigits 10 (q * 10 ^ 8).num.natAbs
  let s := (digits.reverse.dropWhile (· = '0')).reverse
  let n : Int := digits.length - 8
  let sign := if q < 0 then "-" else ""
  if s = [] then "0"
  else if s.length ≤ n ∧ n ≤ 21 then
    sign ++ String.ofList (s ++ List.replicate (n.toNat - s.length) '0')
  else if 0 < n ∧ n ≤ 21 then
    sign ++ String.ofList (s.take n.toNat ++ '.' :: s.drop n.toNat)
  else if -6 < n ∧ n ≤ 0 then
    sign ++ String.ofList ('0' :: '.' :: (List.replicate (-n).toNat '0' ++ s))
  else
    let mantissa := s.take 1 ++ (if s.length = 1 then [] else '.' :: s.drop 1)
    sign ++ String.ofList mantissa ++ "e" ++ (if n < 1 then "-" else "+") ++ toString (n - 1).natAbs

/-- The errors that leave the package: its own, and whatever the database or the chain client throws. -/
inductive SettlementError where
  | settlementFailed (settlementId : Id) (reason : String)
  | notFound (id : Id)
  | notFoundAfterUpdate (id : Id)
  | rejected (message : String)
  deriving DecidableEq

def SettlementError.message : SettlementError → String
  | settlementFailed settlementId _ => "Settlement failed: " ++ settlementId
  | notFound id => "Settlement not found: " ++ id
  | notFoundAfterUpdate id => "Settlement not found after update: " ++ id
  | rejected message => message

/-- `s.includes(pattern)`. -/
def includes (s pattern : String) : Bool := pattern.toList <:+: s.toList

/-- `isRetryableError` (settlement.service.ts:257). -/
def isRetryableError (error : SettlementError) : Bool :=
  ["NETWORK_ERROR", "TIMEOUT", "INSUFFICIENT_GAS", "ECONNRESET"].any fun p => includes error.message p

end NexoraGateway.Settlements
