import Mathlib.Algebra.Order.BigOperators.Group.List
import Mathlib.Data.List.Infix
import Mathlib.Data.NNRat.Lemmas
import NexoraGateway.Routing.Engine
import NexoraGateway.Text.Numerals

/-!
# Quotes of LI.FI (`routing-engine/src/providers/lifi-route-provider.ts`)

| here | there |
|---|---|
| `LifiQuoteResponse` | :37 |
| `normalizeQuote` | :233 |
| `calculateSecurityScore`, `calculateReliabilityScore` | :397, :415 |

Amounts of fees and steps come in base units. `normalizeQuote` takes those of the fees as they are, and reads those of
the steps with 18 decimals and with the decimals of the token that the quote ends in; `inWholeUnits_iff` says for which
responses that comes to the same. The numerals of a response are read by `parseFloat`; they and its prices are not
negative.
-/
namespace NexoraGateway.Routing

open Text.Numerals (digits? isWhiteSpace signed?)

/-! ## `parseFloat` -/

/-- The power of ten behind a mantissa, if there is a complete one. -/
def exponent : List Char → ℤ
  | c :: cs =>
    if c = 'e' ∨ c = 'E' then
      (signed? (fun cs => (digits? 10 (cs.takeWhile Char.isDigit)).map Int.ofNat) cs).getD 0
    else 0
  | [] => 0

/-- The longest decimal literal that the characters begin with. -/
def leadingDecimal? (cs : List Char) : Option ℚ :=
  let whole := cs.takeWhile Char.isDigit
  let (fraction, rest) := match cs.dropWhile Char.isDigit with
    | '.' :: cs => (cs.takeWhile Char.isDigit, cs.dropWhile Char.isDigit)
    | cs => ([], cs)
  (digits? 10 (whole ++ fraction)).map fun value => value / 10 ^ fraction.length * 10 ^ exponent rest

/-- `parseFloat(s)`, or `none` for `NaN` and the infinities. -/
def parseFloat? (s : String) : Option ℚ :=
  signed? leadingDecimal? (s.toList.dropWhile isWhiteSpace)

example : ["1500000", " 2.5e1 USD", "0.003", ".5e", "e5", ""].map parseFloat? =
    [some 1500000, some 25, some (3 / 1000), some (1 / 2), none, none] := by decide +kernel

/-- A numeral of a response. -/
structure Numeral where
  text : String
  value : ℚ
  reads : parseFloat? text = some value
  nonneg : 0 ≤ value

/-! ## The response -/

structure LifiToken where
  decimals : ℕ
  priceUSD : ℚ≥0

structure FeeCost where
  amount : Numeral
  token : Option LifiToken

structure GasCost where
  amountUSD : Option Numeral

/-- A step, with the action's members beside it. Its tokens are addresses. -/
structure LifiStep where
  type : String
  tool : String
  fromToken : String
  toToken : String
  fromAmount : Numeral
  toAmount : Numeral
  slippage : Option ℚ

/-- What is read of a `LifiQuoteResponse`. -/
structure LifiQuoteResponse where
  id : String
  fromChainId : ℕ
  toToken : LifiToken
  toAmount : Option Numeral
  feeCosts : Option (List FeeCost)
  gasCosts : Option (List GasCost)
  steps : List LifiStep
  executionDuration : Option ℚ
  validity : Option ℚ

/-- `CHAIN_ID_TO_NAME` (:105). -/
def chainIdToName (chainId : ℕ) : Option String :=
  List.lookup chainId
    [(1, "ethereum"), (137, "polygon"), (42161, "arbitrum"), (10, "optimism"), (8453, "base"), (56, "bsc"),
      (43114, "avalanche"), (100, "gnosis"), (250, "fantom"), (1284, "moonbeam"), (11155111, "sepolia"),
      (84532, "base-sepolia"), (421614, "arbitrum-sepolia"), (80002, "polygon-amoy")]

namespace LifiRouteProvider

def knownTools : List String := ["hop", "connext", "stargate", "across", "woofi", "pancakeswap"]

/-- The mean of no steps is `NaN`, which is not above anything. -/
def calculateSecurityScore (data : LifiQuoteResponse) : ℚ :=
  let knownToolCount := data.steps.countP fun step =>
    knownTools.any fun known => decide (known.toList <:+: step.tool.toLower.toList)
  let avgSlippage := (data.steps.map fun step => step.slippage.getD 0).sum / data.steps.length
  max 0 (min 100 (70 + min (knownToolCount * 5) 15 - if 1 / 20 < avgSlippage then 10 else 0))

/-- A missing duration is neither short nor long. -/
def calculateReliabilityScore (data : LifiQuoteResponse) : ℚ :=
  let duration : ℚ := match data.executionDuration with
    | none => 0
    | some d => if d < 60 then 10 else if d < 300 then 5 else if 600 < d then -10 else 0
  let length : ℚ := if data.steps.length = 1 then 5 else if 3 < data.steps.length then -5 else 0
  max 0 (min 100 (75 + duration + length))

/-- What a fee costs: `(parseFloat(fee.amount) || 0) * (fee.token?.priceUSD || 0)`. -/
def feeUsd (fee : FeeCost) : ℚ := fee.amount.value * (fee.token.map (·.priceUSD)).getD 0

/-- `parseFloat(gas.amountUSD || '0')`. -/
def gasUsd (gas : GasCost) : ℚ := (gas.amountUSD.map (·.value)).getD 0

/-- The step of the quote for a step of the response. -/
def routeStep (data : LifiQuoteResponse) (params : RouteQuoteParams) (step : LifiStep) : RouteStep :=
  { chain := (chainIdToName data.fromChainId).getD params.sourceChain
    protocol := step.tool
    action := step.type
    inputAmount := step.fromAmount.value / 10 ^ 18
    outputAmount := step.toAmount.value / 10 ^ data.toToken.decimals
    fee := 0 }

def normalizeQuote (data : LifiQuoteResponse) (params : RouteQuoteParams) (now : Time) : RouteQuote :=
  let estimatedFee := ((data.feeCosts.getD []).map feeUsd).sum + ((data.gasCosts.getD []).map gasUsd).sum
  let toAmount := match data.toAmount with
    | some amount => amount.value / 10 ^ data.toToken.decimals
    | none => params.sourceAmount
  let steps := match data.steps.map (routeStep data params) with
    | [] =>
      [{ chain := params.sourceChain, protocol := "lifi", action := "bridge", inputAmount := params.sourceAmount
         outputAmount := toAmount, fee := estimatedFee }]
    | steps => steps
  { id := data.id, provider := "lifi", sourceChain := params.sourceChain, sourceAsset := params.sourceAsset
    sourceAmount := params.sourceAmount, targetChain := params.targetChain, targetAsset := params.targetAsset
    targetAmount := toAmount, steps, estimatedFee, estimatedTime := data.executionDuration.getD 30
    securityScore := calculateSecurityScore data, reliabilityScore := calculateReliabilityScore data
    expiresAt := toTime (now + data.validity.getD 60 * 1000) }

/-! ## Whole units -/

/-- What a fee costs, its amount being in base units of its token. -/
def wholeFeeUsd (fee : FeeCost) : ℚ :=
  match fee.token with
  | none => 0
  | some token => fee.amount.value / 10 ^ token.decimals * token.priceUSD

/-- The amounts of a quote are in whole units, given the decimals of the tokens. -/
structure InWholeUnits (decimalsOf : String → ℕ) (data : LifiQuoteResponse) (quote : RouteQuote) : Prop where
  fee : quote.estimatedFee =
    ((data.feeCosts.getD []).map wholeFeeUsd).sum + ((data.gasCosts.getD []).map gasUsd).sum
  steps : data.steps ≠ [] → quote.steps.map (fun step => (step.inputAmount, step.outputAmount)) =
    data.steps.map fun step =>
      (step.fromAmount.value / 10 ^ decimalsOf step.fromToken, step.toAmount.value / 10 ^ decimalsOf step.toToken)

/-- A fee is nothing, or its token has no decimals. -/
def PlainFee (fee : FeeCost) : Prop :=
  ∀ token ∈ fee.token, fee.amount.value = 0 ∨ token.priceUSD = 0 ∨ token.decimals = 0

/-- A step takes a token of 18 decimals, and gives one with those of the token that the quote ends in; of nothing, it
may be any. -/
def PlainStep (decimalsOf : String → ℕ) (data : LifiQuoteResponse) (step : LifiStep) : Prop :=
  (step.fromAmount.value = 0 ∨ decimalsOf step.fromToken = 18) ∧
    (step.toAmount.value = 0 ∨ decimalsOf step.toToken = data.toToken.decimals)

variable {data : LifiQuoteResponse} {params : RouteQuoteParams} {now : Time} {decimalsOf : String → ℕ} {fee : FeeCost}

theorem scaled_eq_iff {q : ℚ} {d d' : ℕ} : q / 10 ^ d = q / 10 ^ d' ↔ q = 0 ∨ d' = d := by
  by_cases hq : q = 0
  · simp [hq]
  · rw [div_eq_mul_inv, div_eq_mul_inv, mul_right_inj' hq, inv_inj, or_iff_right hq, eq_comm]
    exact (pow_right_injective₀ (by norm_num : (0 : ℚ) < 10) (by norm_num)).eq_iff

theorem sum_map_eq_iff {α : Type} {f g : α → ℚ} {xs : List α} (h : ∀ x ∈ xs, g x ≤ f x) :
    (xs.map f).sum = (xs.map g).sum ↔ ∀ x ∈ xs, f x = g x := by
  induction xs with
  | nil => simp
  | cons x xs ih =>
    obtain ⟨hx, hxs⟩ := List.forall_mem_cons.1 h
    have hsum : (xs.map g).sum ≤ (xs.map f).sum := List.sum_le_sum hxs
    rw [List.map_cons, List.map_cons, List.sum_cons, List.sum_cons, List.forall_mem_cons, ← ih hxs]
    constructor
    · intro heq
      exact ⟨by linarith, by linarith⟩
    · rintro ⟨hhead, htail⟩
      rw [hhead, htail]

theorem wholeFeeUsd_le (fee : FeeCost) : wholeFeeUsd fee ≤ feeUsd fee := by
  unfold wholeFeeUsd feeUsd
  cases fee.token with
  | none => simp
  | some token =>
    have hamount : fee.amount.value / 10 ^ token.decimals ≤ fee.amount.value :=
      div_le_self fee.amount.nonneg (one_le_pow₀ (by norm_num))
    exact mul_le_mul_of_nonneg_right hamount token.priceUSD.2

theorem feeUsd_eq_iff : feeUsd fee = wholeFeeUsd fee ↔ PlainFee fee := by
  unfold wholeFeeUsd feeUsd PlainFee
  cases fee.token with
  | none => simp
  | some token =>
    have hscaled : fee.amount.value = fee.amount.value / 10 ^ token.decimals ↔
        fee.amount.value = 0 ∨ token.decimals = 0 := by
      have h : fee.amount.value / 10 ^ 0 = fee.amount.value / 10 ^ token.decimals ↔
          fee.amount.value = 0 ∨ token.decimals = 0 := scaled_eq_iff
      rwa [pow_zero, div_one] at h
    simp only [Option.map_some, Option.getD_some, Option.mem_def, Option.some.injEq, forall_eq', mul_eq_mul_right_iff,
      hscaled, NNRat.cast_eq_zero]
    tauto

theorem normalizeQuote_steps (h : data.steps ≠ []) :
    (normalizeQuote data params now).steps = data.steps.map (routeStep data params) := by
  unfold normalizeQuote
  dsimp only
  split
  · rename_i hnil
    exact absurd (List.map_eq_nil_iff.1 hnil) h
  · rfl

/-- **A quote of LI.FI is in whole units** just when its fees and steps come to the same in base units. -/
theorem inWholeUnits_iff (decimalsOf : String → ℕ) (data : LifiQuoteResponse) (params : RouteQuoteParams) (now : Time) :
    InWholeUnits decimalsOf data (normalizeQuote data params now) ↔
      (∀ fee ∈ data.feeCosts.getD [], PlainFee fee) ∧ ∀ step ∈ data.steps, PlainStep decimalsOf data step := by
  have hfee : (normalizeQuote data params now).estimatedFee =
      ((data.feeCosts.getD []).map wholeFeeUsd).sum + ((data.gasCosts.getD []).map gasUsd).sum ↔
      ∀ fee ∈ data.feeCosts.getD [], PlainFee fee := by
    refine (add_left_inj _).trans ((sum_map_eq_iff fun fee _ => wholeFeeUsd_le fee).trans ?_)
    exact forall₂_congr fun fee _ => feeUsd_eq_iff
  have hsteps (hne : data.steps ≠ []) : ((normalizeQuote data params now).steps.map fun step =>
        (step.inputAmount, step.outputAmount)) = (data.steps.map fun step =>
      (step.fromAmount.value / 10 ^ decimalsOf step.fromToken, step.toAmount.value / 10 ^ decimalsOf step.toToken)) ↔
      ∀ step ∈ data.steps, PlainStep decimalsOf data step := by
    rw [normalizeQuote_steps hne, List.map_map, List.map_inj_left]
    refine forall₂_congr fun step _ => ?_
    rw [Function.comp_apply, Prod.mk.injEq]
    exact and_congr scaled_eq_iff scaled_eq_iff
  constructor
  · intro h
    refine ⟨hfee.1 h.fee, fun step hstep => ?_⟩
    have hne : data.steps ≠ [] := List.ne_nil_of_mem hstep
    exact (hsteps hne).1 (h.steps hne) step hstep
  · rintro ⟨hfees, hplain⟩
    exact ⟨hfee.2 hfees, fun hne => (hsteps hne).2 hplain⟩

/-- A quote of one USDC for one USDC, at a fee of one USDC. -/
def usdcForUsdc : LifiQuoteResponse :=
  let amount : Numeral := { text := "1000000", value := 1000000, reads := by decide +kernel, nonneg := by norm_num }
  let usdc : LifiToken := { decimals := 6, priceUSD := 1 }
  { id := "q", fromChainId := 1, toToken := usdc, toAmount := some amount
    feeCosts := some [{ amount, token := some usdc }], gasCosts := none
    steps := [{ type := "cross", tool := "across", fromToken := "0xa0", toToken := "0x83", fromAmount := amount
                toAmount := amount, slippage := none }]
    executionDuration := none, validity := none }

theorem usdcForUsdc_not_whole :
    let quote := normalizeQuote usdcForUsdc
      { sourceChain := "ethereum", sourceAsset := "USDC", sourceAmount := 1, targetChain := "base"
        targetAsset := "USDC", targetAmount := 1 } 0
    quote.estimatedFee = 1000000 ∧ quote.targetAmount = 1 ∧
      quote.steps.map (fun step => (step.inputAmount, step.outputAmount)) = [(1 / 10 ^ 12, 1)] ∧
      ¬ InWholeUnits (fun _ => 6) usdcForUsdc quote := by
  intro quote
  refine ⟨by decide +kernel, by decide +kernel, by decide +kernel, fun h => ?_⟩
  have hfee : quote.estimatedFee ≠ ((usdcForUsdc.feeCosts.getD []).map wholeFeeUsd).sum +
      ((usdcForUsdc.gasCosts.getD []).map gasUsd).sum := by decide +kernel
  exact hfee h.fee

end LifiRouteProvider

end NexoraGateway.Routing
