import NexoraGateway.Settlements.Repository

/-!
# The settlement service (`settlement/src/settlement.service.ts`, `settlement/src/ledger.service.ts`)

The service's functions as programs over `Call`s. `waitForConfirmation` polls in a loop that the clock
bounds: it makes at most 150 polls, so 151 rounds of fuel never run out (`pollLoop_fuel` in `Wait`).

* `settleIntent`, `retrySettlement` — settlement.service.ts:53, :117.
* `executeTransaction`, `waitForConfirmation`, `handleSettlementFailure` — :156, :180, :230.
* `recordFee`, `recordSettlement` — ledger.service.ts:94, :115.
-/
namespace NexoraGateway.Settlements

open Async Chain

abbrev Task (α : Type) : Type := Prog Call Answer SettlementError α

namespace Task
def now : Task Time := Prog.await Call.now
def create (params : CreateSettlementParams) : Task Settlement := Prog.await (Call.create params)
def findById (id : Id) : Task (Option Settlement) := Prog.await (Call.findById id)
def update (id : Id) (params : UpdateSettlementParams) : Task (Option Settlement) :=
    Prog.await (Call.update id params)
def createEntry (params : CreateLedgerEntryParams) : Task LedgerEntry := Prog.await (Call.createEntry params)
def estimateGas (tx : UnsignedTx) : Task Unit := Prog.await (Call.estimateGas tx)
def submitTransaction (payout : Payout) : Task Id := Prog.await (Call.submitTransaction payout)
def getTransactionStatus (txHash : Id) : Task TxStatus := Prog.await (Call.getTransactionStatus txHash)
def delay (ms : Nat) : Task Unit := Prog.await (Call.delay ms)
def setTimeout (settlementId : Id) (ms : Nat) : Task Unit := Prog.await (Call.setTimeout settlementId ms)
end Task

/-- `IChainClient`: the depth is read from its configuration, the other methods are calls. -/
structure ChainClient where
  confirmationDepth : Int

structure SettlementExecutionContext where
  intent : Intent.PaymentIntent
  merchant : Intent.MerchantConfig
  chainClient : ChainClient

/-- `SettlementRepository.update` (settlement.repository.ts:77). -/
def updateSettlement (id : Id) (params : UpdateSettlementParams) : Task Settlement := do
  let some _ ← Task.findById id | throw (.notFound id)
  let some row ← Task.update id params | throw (.notFoundAfterUpdate id)
  return row

structure FeeRecord where
  intentId : Id
  amount : ℚ
  asset : String
  chain : String
  merchantId : Id
  feeType : String
  percentage : ℚ

/-- `recordFee` (ledger.service.ts:94). -/
def recordFee (fee : FeeRecord) : Task LedgerEntry :=
  Task.createEntry
    { intentId := fee.intentId, entryType := .fee, amount := fee.amount, asset := fee.asset
      chain := fee.chain, debitAccount := "merchant:" ++ fee.merchantId, creditAccount := "revenue:fees"
      metadata := some [("fee_type", .str fee.feeType), ("percentage", .num fee.percentage)] }

/-- `recordSettlement` (ledger.service.ts:115). -/
def recordSettlement (settlement : Settlement) : Task LedgerEntry :=
  Task.createEntry
    { intentId := settlement.intentId, entryType := .settlement, amount := settlement.amount
      asset := settlement.asset, chain := settlement.chain
      debitAccount := "pending:" ++ settlement.intentId, creditAccount := "merchant:" ++ settlement.merchantId
      metadata := some [("tx_hash", .ofOption .str settlement.txHash),
        ("destination_address", .str settlement.destinationAddress)] }

/-- `getSettlementAddress` (settlement.service.ts:209). -/
def getSettlementAddress (_chain : String) : String := "0x0000000000000000000000000000000000000000"

/-- `signTransaction` (settlement.service.ts:218). -/
def signTransaction (tx : UnsignedTx) (_chain : String) : String := "0x" ++ tx.source ++ tx.destination

/-- `executeTransaction` (settlement.service.ts:156). -/
def executeTransaction (settlement : Settlement) : Task Id := do
  let tx : UnsignedTx :=
    { source := getSettlementAddress settlement.chain, destination := settlement.destinationAddress
      value := numeral settlement.amount, data := "0x" }
  Task.estimateGas tx
  let signedData := signTransaction tx settlement.chain
  Task.submitTransaction { intentId := settlement.intentId, signedData }

def pollInterval : Nat := 2000

def maxWaitTime : Nat := 300000

/-- The loop of `waitForConfirmation`; out of fuel it ends as it does out of time. -/
def pollLoop (txHash : Id) (confirmationDepth : Int) (startTime : Time) : Nat → Task Unit
  | 0 => throw (.settlementFailed txHash "Confirmation timeout")
  | fuel + 1 => do
    let now ← Task.now
    if now - startTime < maxWaitTime then
      let status ← Task.getTransactionStatus txHash
      if status.confirmations ≥ confirmationDepth then return
      if status.status = .failed then throw (.settlementFailed txHash "Transaction failed on-chain")
      Task.delay pollInterval
      pollLoop txHash confirmationDepth startTime fuel
    else throw (.settlementFailed txHash "Confirmation timeout")

/-- `waitForConfirmation` (settlement.service.ts:180). -/
def waitForConfirmation (txHash : Id) (chainClient : ChainClient) : Task Unit := do
  let startTime ← Task.now
  pollLoop txHash chainClient.confirmationDepth startTime 151

def maxRetries : Nat := 3

def baseRetryDelay : Nat := 1000

/-- `getRetryCount` (settlement.service.ts:265). -/
def getRetryCount (_settlementId : Id) : Nat := 0

/-- `handleSettlementFailure` (settlement.service.ts:230). -/
def handleSettlementFailure (settlementId : Id) (error : SettlementError) : Task Settlement := do
  let _ ← updateSettlement settlementId { status := some .failed }
  if isRetryableError error then
    let retryCount := getRetryCount settlementId
    if retryCount < maxRetries then Task.setTimeout settlementId (baseRetryDelay * 2 ^ retryCount)
  throw (.settlementFailed settlementId error.message)

/-- Steps 4 and 5 of `settleIntent`: the hash is recorded and the chain waited for. -/
def confirm (ctx : SettlementExecutionContext) (settlement : Settlement) (txHash : Id) : Task Unit := do
  let _ ← updateSettlement settlement.id { status := some .processing, txHash := some txHash }
  waitForConfirmation txHash ctx.chainClient

/-- Steps 7 and 8 of `settleIntent`: the ledger entries. -/
def record (ctx : SettlementExecutionContext) (settlementAmount : ℚ) (completed : Settlement) :
    Task Settlement := do
  if ctx.merchant.feePercentage > 0 then
    let feeAmount := ctx.intent.targetAmount - settlementAmount
    let _ ← recordFee
      { intentId := ctx.intent.id, amount := feeAmount, asset := ctx.merchant.settlementAsset
        chain := ctx.merchant.settlementChain, merchantId := ctx.merchant.id, feeType := "PLATFORM"
        percentage := ctx.merchant.feePercentage }
  let _ ← recordSettlement completed
  return completed

/-- `settleIntent` (settlement.service.ts:53). -/
def settleIntent (ctx : SettlementExecutionContext) : Task Settlement := do
  let settlementAmount := calculateSettlementAmount ctx.intent.targetAmount ctx.merchant.feePercentage
  let settlement ← Task.create
    { intentId := ctx.intent.id, merchantId := ctx.merchant.id, amount := settlementAmount
      asset := ctx.merchant.settlementAsset, chain := ctx.merchant.settlementChain
      destinationAddress := ctx.merchant.settlementAddress }
  try
    let txHash ← executeTransaction settlement
    confirm ctx settlement txHash
    let now ← Task.now
    let completed ← updateSettlement settlement.id { status := some .completed, completedAt := some now }
    record ctx settlementAmount completed
  catch error => handleSettlementFailure settlement.id error

/-- `retrySettlement` (settlement.service.ts:117). -/
def retrySettlement (settlementId : Id) : Task Settlement := do
  let some settlement ← Task.findById settlementId
    | throw (.settlementFailed settlementId "Settlement not found")
  if settlement.status ≠ .failed ∧ settlement.status ≠ .retrying then
    throw (.settlementFailed settlementId ("Cannot retry settlement in status: " ++ settlement.status.name))
  updateSettlement settlementId { status := some .retrying }

/-- What a client of the service, or a scheduled retry, can start. -/
inductive Op where
  | settleIntent (ctx : SettlementExecutionContext)
  | retrySettlement (settlementId : Id)

def Op.task : Op → Task Unit
  | settleIntent ctx => (Settlements.settleIntent ctx).bind fun _ => .ret ()
  | retrySettlement settlementId => (Settlements.retrySettlement settlementId).bind fun _ => .ret ()

/-! ## The calls that each function makes -/

section Calls
variable {ok : Call → Prop} {E : SettlementError → Prop}

theorem updateSettlement_only {id : Id} {params : UpdateSettlementParams} (hfind : ok (.findById id))
    (hupdate : ok (.update id params)) : (updateSettlement id params).Only ok fun _ => True := by
  refine Prog.Only.bind (Prog.Only.await hfind) fun existing => ?_
  cases existing with
  | none => exact Prog.Only.throw trivial
  | some _ =>
    refine Prog.Only.bind (Prog.Only.await hupdate) fun row => ?_
    cases row with
    | none => exact Prog.Only.throw trivial
    | some row => exact Prog.Only.ret row

theorem pollLoop_only {txHash : Id} (hnow : ok .now) (hpoll : ok (.getTransactionStatus txHash))
    (hdelay : ok (.delay pollInterval)) (confirmationDepth : Int) (startTime : Time) (fuel : Nat) :
    (pollLoop txHash confirmationDepth startTime fuel).Only ok fun _ => True := by
  induction fuel with
  | zero => exact Prog.Only.throw trivial
  | succ fuel ih =>
    refine Prog.Only.bind (Prog.Only.await hnow) fun now => ?_
    split
    · refine Prog.Only.bind (Prog.Only.await hpoll) fun status => ?_
      split
      · exact Prog.Only.ret ()
      · split
        · exact Prog.Only.throw trivial
        · exact Prog.Only.bind (Prog.Only.await hdelay) fun _ => ih
    · exact Prog.Only.throw trivial

theorem confirm_only {ctx : SettlementExecutionContext} {settlement : Settlement} {txHash : Id}
    (hfind : ok (.findById settlement.id))
    (hupdate : ok (.update settlement.id { status := some .processing, txHash := some txHash }))
    (hnow : ok .now) (hpoll : ok (.getTransactionStatus txHash)) (hdelay : ok (.delay pollInterval)) :
    (confirm ctx settlement txHash).Only ok fun _ => True :=
  (updateSettlement_only hfind hupdate).bind fun _ =>
    Prog.Only.bind (Prog.Only.await hnow) fun _ => pollLoop_only hnow hpoll hdelay _ _ _

theorem record_only (hpost : ∀ params, ok (.createEntry params)) (ctx : SettlementExecutionContext)
    (settlementAmount : ℚ) (completed : Settlement) :
    (record ctx settlementAmount completed).Only ok fun _ => True := by
  have hrest : ((recordSettlement completed).bind fun _ => .ret completed : Task Settlement).Only ok
    fun _ => True :=
    Prog.Only.bind (Prog.Only.await (hpost _)) fun _ => Prog.Only.ret completed
  unfold record
  split
  · exact Prog.Only.bind (Prog.Only.await (hpost _)) fun _ => hrest
  · exact hrest

theorem handleSettlementFailure_only {id : Id} (hfind : ok (.findById id))
    (hupdate : ok (.update id { status := some .failed })) (hretry : ∀ ms, ok (.setTimeout id ms))
    (error : SettlementError) : (handleSettlementFailure id error).Only ok fun _ => True := by
  refine (updateSettlement_only hfind hupdate).bind fun _ => ?_
  split
  · exact Prog.Only.bind (Prog.Only.await (hretry _)) fun _ => Prog.Only.throw trivial
  · exact Prog.Only.throw trivial

end Calls

/-! ## An order of 100 USDC at a fee of one per cent -/

def order : Intent.PaymentIntent :=
  { id := "pi", merchantId := "shop", orderRef := "order-1", targetAmount := 100, targetAsset := "USDC"
    targetChain := "ethereum", acceptedAssets := ["USDC"], state := .settling, version := 7, createdAt := 0
    updatedAt := 6 }

def shop : Intent.MerchantConfig :=
  { id := "shop", name := "Shop", settlementAsset := "USDC", settlementChain := "ethereum"
    settlementAddress := "0xshop", feePercentage := 1 }

def context : SettlementExecutionContext := ⟨order, shop, ⟨12⟩⟩

def emptyDb : Db := ⟨.empty, [], [], [], [], 0⟩

end NexoraGateway.Settlements
