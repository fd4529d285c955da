import NexoraGateway.Json

/-!
# The status of a transaction (`shared/src/types/chain.ts`, `chain-abstraction/src/evm/evm-chain-client.ts`)

`getTransactionStatus` is what the EVM client makes of the three RPC answers it reads; an RPC call
that throws makes the whole lookup throw and is left to the caller's model of rejected calls.
-/
namespace NexoraGateway.Chain

/-- `TxStatusState`. -/
inductive TxStatusState where
  | pending | confirming | confirmed | failed
  deriving DecidableEq, Repr

structure TxStatus where
  txHash : Id
  status : TxStatusState
  confirmations : Int
  blockNumber : Option Int := none
  gasUsed : Option Nat := none
  effectiveGasPrice : Option Nat := none
  deriving DecidableEq

/-- What the client reads of an RPC receipt. -/
structure Receipt where
  status : Option Nat
  blockNumber : Int
  gasUsed : Nat := 0
  gasPrice : Nat := 0

/-- `!receipt.status`: zero, or missing on a chain without status codes. -/
def Receipt.Reverted (r : Receipt) : Prop := r.status.getD 0 = 0

instance : DecidablePred Receipt.Reverted := fun _ => inferInstanceAs (Decidable (_ = _))

/-- The answers to `getTransaction` (is there one), `getTransactionReceipt` and `getBlockNumber`. -/
structure RpcAnswer where
  tx : Bool := true
  receipt : Option Receipt
  currentBlock : Int := 0

/-- `getTransactionStatus` (evm-chain-client.ts:206). -/
def getTransactionStatus (confirmationDepth : Int) (txHash : Id) (rpc : RpcAnswer) : TxStatus :=
  if !rpc.tx && rpc.receipt.isNone then { txHash, status := .pending, confirmations := 0 }
  else match rpc.receipt with
  | none => { txHash, status := .pending, confirmations := 0 }
  | some receipt =>
    let confirmations := rpc.currentBlock - receipt.blockNumber
    let status : TxStatusState :=
      if receipt.Reverted then .failed
      else if confirmations < confirmationDepth then .confirming
      else .confirmed
    { txHash, status, confirmations, blockNumber := some receipt.blockNumber
      gasUsed := some receipt.gasUsed, effectiveGasPrice := some receipt.gasPrice }

def RpcAnswer.Reverted (rpc : RpcAnswer) : Prop := ∃ r ∈ rpc.receipt, r.Reverted

/-- How many blocks lie on the receipt's block; none without a receipt. -/
def RpcAnswer.confirmations (rpc : RpcAnswer) : Int :=
  (rpc.receipt.map fun r => rpc.currentBlock - r.blockNumber).getD 0

variable {confirmationDepth : Int} {txHash : Id} {rpc : RpcAnswer}

/-- A transaction is reported `FAILED` exactly when its receipt says that it reverted, whatever its
depth. -/
@[simp] theorem getTransactionStatus_failed :
    (getTransactionStatus confirmationDepth txHash rpc).status = .failed ↔ rpc.Reverted := by
  unfold getTransactionStatus RpcAnswer.Reverted
  cases hr : rpc.receipt with
  | none => simp
  | some receipt =>
    simp only [Option.isNone_some, Bool.and_false, Bool.false_eq_true, if_false, Option.mem_some_iff]
    by_cases hrev : receipt.Reverted
    · simp [hrev]
    · simp only [hrev, if_false]
      split <;> simp [hrev]

/-- The depth is reported whatever the receipt's status. -/
@[simp] theorem getTransactionStatus_confirmations :
    (getTransactionStatus confirmationDepth txHash rpc).confirmations = rpc.confirmations := by
  unfold getTransactionStatus RpcAnswer.confirmations
  cases rpc.receipt with
  | none => simp
  | some receipt => simp

end NexoraGateway.Chain
