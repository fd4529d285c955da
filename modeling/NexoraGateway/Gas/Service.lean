import NexoraGateway.Jobs.Types
import NexoraGateway.Store.Table
import NexoraGateway.Text.Numerals

/-!
# The gas abstraction service (`gas-abstraction/src/gas-abstraction.service.ts`)

| model | source |
|---|---|
| `ChainGasConfig.merge`, `GasAbstractionService.new` | the constructor, :95 |
| `isGaslessAvailable`, `estimateGasCost` | :202, :128 |
| `prepareGasless`, `executeGasless` | :232, :258 |

Both switch on the strategy alone and simulate what a paymaster or a relayer would do, configured or not; only
`isGaslessAvailable` looks at the configurations and at the token. `succeeds_iff` says which transactions go through.
-/
namespace NexoraGateway.Gas

open Store
open Text.Numerals (digits? signed? trim)

inductive GasAbstractionStrategy where
  | erc4337Paymaster | relayer | resourceModel | priorityFeeRelay
  deriving DecidableEq, Repr

def GasAbstractionStrategy.name : GasAbstractionStrategy → String
  | .erc4337Paymaster => "ERC4337_PAYMASTER"
  | .relayer => "RELAYER"
  | .resourceModel => "RESOURCE_MODEL"
  | .priorityFeeRelay => "PRIORITY_FEE_RELAY"

/-- What is read of a `PaymasterConfig`. -/
structure PaymasterConfig where
  address : String
  deriving DecidableEq

/-- What is read of a `RelayerConfig`. -/
structure RelayerConfig where
  feePercentage : ℚ
  deriving DecidableEq

/-- `ChainGasConfig` (:18). A custom configuration may leave any field `undefined`. -/
structure ChainGasConfig where
  chainId : Option String := none
  strategy : Option GasAbstractionStrategy := none
  nativeSymbol : Option String := none
  nativePriceUsd : Option ℚ := none
  paymasterConfig : Option PaymasterConfig := none
  relayerConfig : Option RelayerConfig := none
  deriving DecidableEq

/-- A field of a `Partial<ChainGasConfig>`: missing, or present and possibly `undefined`. -/
abbrev Given (α : Type) : Type := Option (Option α)

structure PartialConfig where
  chainId : Given String := none
  strategy : Given GasAbstractionStrategy := none
  nativeSymbol : Given String := none
  nativePriceUsd : Given ℚ := none
  paymasterConfig : Given PaymasterConfig := none
  relayerConfig : Given RelayerConfig := none

/-- `{ ...existing, ...config }`. -/
def ChainGasConfig.merge (existing : ChainGasConfig) (config : PartialConfig) : ChainGasConfig :=
  { chainId := config.chainId.getD existing.chainId
    strategy := config.strategy.getD existing.strategy
    nativeSymbol := config.nativeSymbol.getD existing.nativeSymbol
    nativePriceUsd := config.nativePriceUsd.getD existing.nativePriceUsd
    paymasterConfig := config.paymasterConfig.getD existing.paymasterConfig
    relayerConfig := config.relayerConfig.getD existing.relayerConfig }

/-- An entry of `DEFAULT_CHAIN_CONFIGS` (:31). -/
def defaultConfig (chainId : String) (strategy : GasAbstractionStrategy) (nativeSymbol : String) (nativePriceUsd : ℚ) :
    String × ChainGasConfig :=
  (chainId, { chainId, strategy, nativeSymbol, nativePriceUsd })

def defaultChainConfigs : Dict String ChainGasConfig :=
  ⟨[defaultConfig "1" .erc4337Paymaster "ETH" 3500, defaultConfig "8453" .erc4337Paymaster "ETH" 3500,
    defaultConfig "42161" .erc4337Paymaster "ETH" 3500, defaultConfig "137" .relayer "MATIC" (4 / 5),
    defaultConfig "tron" .resourceModel "TRX" (3 / 25), defaultConfig "solana" .priorityFeeRelay "SOL" 150], by decide⟩

structure RelayerTransaction where
  «from» : String
  «to» : String
  value : String
  data : String
  chainId : ℕ

structure UserOperation where
  sender : String
  nonce : ℕ := 0
  callData : String
  callGasLimit : ℚ := 200000
  verificationGasLimit : ℚ := 50000
  preVerificationGas : ℚ := 21000
  maxFeePerGas : ℚ := 20000000000
  maxPriorityFeePerGas : ℚ := 2000000000
  paymasterAndData : String
  signature : String := "0x"

/-- `PaymasterRequest | RelayerRequest`. -/
inductive PreparedRequest where
  | paymaster (userOperation : UserOperation) (chainId : String) (gasToken : Option String)
  | relayer (transaction : RelayerTransaction) (senderAddress maxFeeWei : String)

structure GaslessFee where
  percentage : ℚ
  usdAmount : Option ℚ
  tokenAmount : ℚ
  tokenSymbol : Option String
  deriving DecidableEq

/-- `GasCostEstimate`; an amount in dollars without a price is `NaN`, here `none`. -/
structure GasCostEstimate where
  chainId : Option String
  strategy : Option GasAbstractionStrategy
  nativeCost : ℚ
  nativeSymbol : Option String
  usdCost : Option ℚ
  tokenCost : Option ℚ := none
  tokenSymbol : Option String := none
  gasLimit : ℚ
  gasPrice : ℚ
  gaslessAvailable : Bool
  gaslessFee : Option GaslessFee := none
  deriving DecidableEq

structure GaslessExecutionResult where
  success : Bool
  txHash : String
  cost : GasCostEstimate
  error : Option String := none
  deriving DecidableEq

/-- What `IChainClient.estimateGas` resolves with. -/
structure GasEstimate where
  gasLimit : ℚ
  gasPrice : ℚ
  totalCost : ℚ
  totalCostUSD : ℚ

/-- The parameters of `prepareGasless`. -/
structure PrepareParams where
  chainId : String
  transaction : RelayerTransaction
  senderAddress : String
  gasToken : Option String := none

/-- The parameters of `estimateGasCost`. -/
structure EstimateParams where
  chainId : String
  «from» : String
  «to» : String
  value : String
  data : String
  gasToken : Option String := none

/-- The clients estimate what they are asked for, or throw. -/
structure GasAbstractionService where
  chainConfigs : Dict String ChainGasConfig
  chainClients : Dict String (EstimateParams → Option GasEstimate)

/-- The constructor. -/
def GasAbstractionService.new (chainClients : Dict String (EstimateParams → Option GasEstimate))
    (customConfigs : Dict String PartialConfig) : GasAbstractionService :=
  { chainClients
    chainConfigs := customConfigs.rows.foldl (fun configs entry =>
      configs.put (entry.1, ((configs.get? entry.1).getD {}).merge entry.2)) defaultChainConfigs }

/-- `BigInt(s)`; `none` where it throws a `SyntaxError`. -/
def bigInt? (s : String) : Option Int :=
  match trim s.toList with
  | [] => some 0
  | '0' :: c :: cs =>
    match c.toLower with
    | 'x' => (digits? 16 cs).map Nat.cast
    | 'o' => (digits? 8 cs).map Nat.cast
    | 'b' => (digits? 2 cs).map Nat.cast
    | _ => (digits? 10 ('0' :: c :: cs)).map Nat.cast
  | cs => signed? (fun cs => (digits? 10 cs).map Nat.cast) cs

/-- `generateHash` (:469), from what `Math.random` returns. -/
def generateHash (random : ℕ → Jobs.Fraction) (length : ℕ) : String :=
  String.ofList ((List.range length).map fun i =>
    "0123456789abcdef".toList.getD ⌊(random i).val * 16⌋.toNat '0')

/-- `createDefaultCostEstimate` (:450). -/
def createDefaultCostEstimate (self : GasAbstractionService) (chainId : String) : GasCostEstimate :=
  let config := (self.chainConfigs.get? chainId).getD {}
  { chainId, strategy := config.strategy.getD .relayer, nativeCost := 0
    nativeSymbol := config.nativeSymbol.getD "ETH", usdCost := some 0, gasLimit := 0, gasPrice := 0
    gaslessAvailable := false }

/-- `estimateDefaultGasCost` (:429). -/
def estimateDefaultGasCost (chainId : String) : GasCostEstimate :=
  { chainId, strategy := some .relayer, nativeCost := 1 / 1000, nativeSymbol := "ETH", usdCost := some (7 / 2)
    gasLimit := 21000, gasPrice := 20000000000, gaslessAvailable := false }

namespace GasAbstractionService
variable (toUpperCase : String → String) (self : GasAbstractionService)

def isAcceptedFeeToken (token : String) : Bool := toUpperCase token ∈ ["USDC", "USDT", "DAI"]

/-- `!token`. -/
def noToken (token : Option String) : Bool := token = none ∨ token = some ""

/-- `isGaslessAvailable` (:202). -/
def isGaslessAvailable (chainId : String) (token : Option String) : Bool :=
  match self.chainConfigs.get? chainId with
  | none => false
  | some config =>
    match config.strategy with
    | some .erc4337Paymaster => config.paymasterConfig.isSome
    | some .relayer => config.relayerConfig.isSome && (noToken token || token.any (isAcceptedFeeToken toUpperCase))
    | some .priorityFeeRelay => config.relayerConfig.isSome
    | some .resourceModel | none => false

/-- `estimateGasCost` (:128). -/
def estimateGasCost (params : EstimateParams) : GasCostEstimate :=
  match self.chainConfigs.get? params.chainId, self.chainClients.get? params.chainId with
  | some config, some estimateGas =>
    match estimateGas params with
    | none => estimateDefaultGasCost params.chainId
    | some gasEstimate =>
      let usdCost := gasEstimate.totalCostUSD
      let gaslessAvailable := self.isGaslessAvailable toUpperCase params.chainId params.gasToken
      let gasToken := params.gasToken.filter (· ≠ "")
      { chainId := params.chainId, strategy := config.strategy, nativeCost := gasEstimate.totalCost
        nativeSymbol := config.nativeSymbol, usdCost := some usdCost, tokenCost := gasToken.map fun _ => usdCost
        tokenSymbol := gasToken, gasLimit := gasEstimate.gasLimit, gasPrice := gasEstimate.gasPrice, gaslessAvailable
        gaslessFee := if gaslessAvailable then config.relayerConfig.map fun relayer =>
            { percentage := relayer.feePercentage, usdAmount := some (usdCost * (relayer.feePercentage / 100))
              tokenAmount := 0, tokenSymbol := params.gasToken.or config.nativeSymbol }
          else none }
  | _, _ => estimateDefaultGasCost params.chainId

/-- `preparePaymasterRequest` (:301). -/
def preparePaymasterRequest (params : PrepareParams) (config : ChainGasConfig) : PreparedRequest :=
  .paymaster
    { sender := params.senderAddress, callData := params.transaction.data
      paymasterAndData := (config.paymasterConfig.map (·.address)).getD "0x" }
    params.chainId params.gasToken

/-- `prepareRelayerRequest` (:371): at most 0.1 of the native token, in wei. -/
def prepareRelayerRequest (params : PrepareParams) : PreparedRequest :=
  .relayer params.transaction params.senderAddress "100000000000000000"

/-- `prepareGasless` (:232); an error is the message of what is thrown. -/
def prepareGasless (params : PrepareParams) : Except String PreparedRequest :=
  match self.chainConfigs.get? params.chainId with
  | none => .error ("No gas abstraction config for chain " ++ params.chainId)
  | some config =>
    match config.strategy with
    | some .erc4337Paymaster => .ok (preparePaymasterRequest params config)
    | some .relayer | some .priorityFeeRelay => .ok (prepareRelayerRequest params)
    | some .resourceModel => .error "Gasless not supported for strategy RESOURCE_MODEL"
    | none => .error "Gasless not supported for strategy undefined"

/-- `executePaymaster` (:336). A request of the other kind has no `userOperation`. -/
def executePaymaster (random : ℕ → Jobs.Fraction) (config : ChainGasConfig) :
    PreparedRequest → Except String GaslessExecutionResult
  | .paymaster userOperation _ _ => .ok
    { success := true, txHash := "0x" ++ generateHash random 64
      cost :=
        { chainId := config.chainId, strategy := config.strategy, nativeCost := 0, nativeSymbol := config.nativeSymbol
          usdCost := some 0, gasLimit := userOperation.callGasLimit, gasPrice := userOperation.maxFeePerGas
          gaslessAvailable := true
          gaslessFee := some
            { percentage := 0, usdAmount := some 0, tokenAmount := 0, tokenSymbol := config.nativeSymbol } } }
  | .relayer .. => .error "Cannot read properties of undefined (reading 'callGasLimit')"

/-- What the result of `executeRelayer` is, for a fee. -/
def relayed (random : ℕ → Jobs.Fraction) (config : ChainGasConfig) (feeWei : Int) : GaslessExecutionResult :=
  let feeEth : ℚ := feeWei / 10 ^ 18
  let usdCost := config.nativePriceUsd.map (feeEth * ·)
  { success := true, txHash := "0x" ++ generateHash random 64
    cost :=
      { chainId := config.chainId, strategy := config.strategy, nativeCost := feeEth
        nativeSymbol := config.nativeSymbol, usdCost, gasLimit := 200000, gasPrice := 20000000000
        gaslessAvailable := true
        gaslessFee := some
          { percentage := (config.relayerConfig.map (·.feePercentage)).getD 1, usdAmount := usdCost
            tokenAmount := feeEth, tokenSymbol := config.nativeSymbol } } }

/-- `executeRelayer` (:392): 10% of the maximum. A request of the other kind has no `maxFeeWei`. -/
def executeRelayer (random : ℕ → Jobs.Fraction) (config : ChainGasConfig) :
    PreparedRequest → Except String GaslessExecutionResult
  | .relayer _ _ maxFeeWei =>
    match bigInt? maxFeeWei with
    | none => .error ("Cannot convert " ++ maxFeeWei ++ " to a BigInt")
    | some maxFee => .ok (relayed random config (maxFee.tdiv 10))
  | .paymaster .. => .error "Cannot convert undefined to a BigInt"

def failed (chainId error : String) : GaslessExecutionResult :=
  { success := false, txHash := "", cost := createDefaultCostEstimate self chainId, error := some error }

/-- `executeGasless` (:258). -/
def executeGasless (random : ℕ → Jobs.Fraction) (chainId : String) (preparedRequest : PreparedRequest) :
    GaslessExecutionResult :=
  match self.chainConfigs.get? chainId with
  | none => self.failed chainId ("No gas abstraction config for chain " ++ chainId)
  | some config =>
    let result := match config.strategy with
      | some .erc4337Paymaster => executePaymaster random config preparedRequest
      | some .relayer | some .priorityFeeRelay => executeRelayer random config preparedRequest
      | some .resourceModel => .error "Unsupported strategy: RESOURCE_MODEL"
      | none => .error "Unsupported strategy: undefined"
    match result with
    | .ok result => result
    | .error error => self.failed chainId error

/-- `prepareGasless`, and then `executeGasless` on the same chain. -/
def transact (random : ℕ → Jobs.Fraction) (params : PrepareParams) : Except String GaslessExecutionResult :=
  (self.prepareGasless params).map (self.executeGasless random params.chainId)

/-! ## Which transactions go through -/

/-- The strategies that are simulated. -/
def Simulated (chainId : String) : Prop :=
  ∃ config, self.chainConfigs.get? chainId = some config ∧
    (config.strategy = some .erc4337Paymaster ∨ config.strategy = some .relayer ∨
      config.strategy = some .priorityFeeRelay)

variable {toUpperCase self} {random : ℕ → Jobs.Fraction} {params : PrepareParams} {config : ChainGasConfig}

theorem bigInt_maxFee : bigInt? "100000000000000000" = some (10 ^ 17) := by decide +kernel

/-- Where the strategy is simulated, the transaction goes through. -/
theorem Simulated.transact (h : self.Simulated params.chainId) :
    ∃ result, self.transact random params = .ok result ∧ result.success = true ∧
      result.cost.gaslessAvailable = true := by
  obtain ⟨config, hconfig, hstrategy⟩ := h
  rcases hstrategy with hstrategy | hstrategy
  · have hprepare : self.prepareGasless params = .ok (preparePaymasterRequest params config) := by
      simp only [prepareGasless, hconfig, hstrategy]
    refine ⟨_, (congrArg (Except.map _) hprepare).trans rfl, ?_⟩
    simp [executeGasless, hconfig, hstrategy, executePaymaster, preparePaymasterRequest]
  · have hprepare : self.prepareGasless params = .ok (prepareRelayerRequest params) := by
      rcases hstrategy with hstrategy | hstrategy <;> simp only [prepareGasless, hconfig, hstrategy]
    refine ⟨_, (congrArg (Except.map _) hprepare).trans rfl, ?_⟩
    rcases hstrategy with hstrategy | hstrategy <;>
      simp [executeGasless, hconfig, hstrategy, executeRelayer, prepareRelayerRequest, bigInt_maxFee, relayed]

theorem simulated_of_prepared {request : PreparedRequest} (h : self.prepareGasless params = .ok request) :
    self.Simulated params.chainId := by
  unfold prepareGasless at h
  split at h
  · cases h
  · rename_i config hconfig
    split at h
    · exact ⟨config, hconfig, .inl ‹_›⟩
    · exact ⟨config, hconfig, .inr (.inl ‹_›)⟩
    · exact ⟨config, hconfig, .inr (.inr ‹_›)⟩
    · cases h
    · cases h

theorem simulated_of_available {chainId : String} {token : Option String}
    (h : self.isGaslessAvailable toUpperCase chainId token = true) : self.Simulated chainId := by
  unfold isGaslessAvailable at h
  split at h
  · cases h
  · rename_i config hconfig
    split at h
    · exact ⟨config, hconfig, .inl ‹_›⟩
    · exact ⟨config, hconfig, .inr (.inl ‹_›)⟩
    · exact ⟨config, hconfig, .inr (.inr ‹_›)⟩
    · cases h
    · cases h

/-- **An estimate is kept**: where it says that gasless is available, every transaction on its chain goes through. -/
theorem transact_of_estimate {estimate : EstimateParams} (hchain : estimate.chainId = params.chainId)
    (h : (self.estimateGasCost toUpperCase estimate).gaslessAvailable = true) :
    ∃ result, self.transact random params = .ok result ∧ result.success = true ∧
      result.cost.gaslessAvailable = true := by
  have havailable : self.isGaslessAvailable toUpperCase estimate.chainId estimate.gasToken = true := by
    unfold estimateGasCost at h
    split at h
    · split at h
      · exact absurd h Bool.false_ne_true
      · exact h
    · exact absurd h Bool.false_ne_true
  exact (hchain ▸ simulated_of_available havailable).transact

/-- **A gasless transaction goes through** just where its strategy is simulated, and so wherever it is available. -/
theorem succeeds_iff (toUpperCase : String → String)
    (chainClients : Dict String (EstimateParams → Option GasEstimate)) (customConfigs : Dict String PartialConfig)
    (random : ℕ → Jobs.Fraction) (params : PrepareParams) :
    ((∃ result, (new chainClients customConfigs).transact random params = .ok result ∧ result.success = true) ↔
      (new chainClients customConfigs).Simulated params.chainId) ∧
    ((new chainClients customConfigs).isGaslessAvailable toUpperCase params.chainId params.gasToken = true →
      ∃ result, (new chainClients customConfigs).transact random params = .ok result ∧ result.success = true ∧
        result.cost.gaslessAvailable =
          (new chainClients customConfigs).isGaslessAvailable toUpperCase params.chainId params.gasToken) := by
  refine ⟨⟨?_, fun h => ?_⟩, fun h => ?_⟩
  · rintro ⟨result, hresult, -⟩
    cases hprepare : (new chainClients customConfigs).prepareGasless params with
    | error error => rw [transact, hprepare] at hresult; cases hresult
    | ok request => exact simulated_of_prepared hprepare
  · obtain ⟨result, hresult, hsuccess, -⟩ := h.transact
    exact ⟨result, hresult, hsuccess⟩
  · obtain ⟨result, hresult, hsuccess, havailable⟩ := (simulated_of_available h).transact
    exact ⟨result, hresult, hsuccess, havailable.trans h.symm⟩

/-- A transfer on Ethereum, where no paymaster is configured. -/
def transfer : PrepareParams :=
  { chainId := "1", transaction := ⟨"0xfrom", "0xto", "1", "0x", 1⟩, senderAddress := "0xfrom" }

/-- A paymaster for Ethereum, and nothing else given. -/
def sponsored : Dict String PartialConfig :=
  ⟨[("1", { paymasterConfig := some (some ⟨"0xpaymaster"⟩) })], List.nodup_singleton _⟩

theorem succeeds_iff_sponsored : ∃ result, (new .empty sponsored).transact (fun _ => default) transfer = .ok result ∧
    result.success = true ∧ result.cost.gaslessAvailable =
      (new .empty sponsored).isGaslessAvailable String.toUpper "1" none :=
  (succeeds_iff String.toUpper .empty sponsored (fun _ => default) transfer).2 rfl

/-- Without one the transaction goes through as well. -/
theorem unavailable_succeeds :
    (new .empty .empty).isGaslessAvailable String.toUpper "1" none = false ∧
    ∃ result, (new .empty .empty).transact (fun _ => default) transfer = .ok result ∧ result.success = true ∧
      result.cost.gaslessAvailable = true :=
  ⟨rfl, _, rfl, rfl, rfl⟩

end GasAbstractionService

end NexoraGateway.Gas
