import Mathlib.Data.Real.Basic
import NexoraGateway.Async.Settling
import NexoraGateway.Json
import NexoraGateway.Numbers
import NexoraGateway.Store.Ranks

/-!
# The price of several oracles (`rate-lock/src/price-oracle.service.ts`)

`PriceOracleAggregator.getPrice` asks every oracle at once, waits until all have answered or failed, drops the quotes
that are not confident enough or not positive, and returns the price in the middle of the rest. An oracle may answer
anything: prices and confidences are numbers with `NaN` and the infinities.

| here | there |
| --- | --- |
| `getPrice` | price-oracle.service.ts:436; `s` is how the calls of the oracles settle, `now` the clock afterwards |
| `successful`, `medianPrice` | :441, :451 |
| `calculateConfidence` | :474; `root` is `Math.sqrt` |
-/
namespace NexoraGateway.RateLocks

open Async (Settling)
open Ecma (Number)

/-- `PriceQuote` (shared/src/types/rate-lock.ts:8). -/
structure PriceQuote where
  asset : String
  baseAsset : String
  price : Number
  timestamp : Time
  source : String
  confidence : Number
  deriving DecidableEq

/-- What the aggregator reads of an `IPriceOracle` (:17) besides its answers. -/
structure PriceOracle where
  getName : String

structure PriceOracleAggregator where
  oracles : List PriceOracle
  minConfidence : Number := .finite (4 / 5)

namespace PriceOracleAggregator

def getName (self : PriceOracleAggregator) : String :=
  "aggregator(" ++ String.intercalate "+" (self.oracles.map (·.getName)) ++ ")"

/-- The filter of the quotes. -/
def passes (self : PriceOracleAggregator) (q : PriceQuote) : Bool := self.minConfidence ≤ q.confidence ∧ 0 < q.price

def successful (self : PriceOracleAggregator) (results : List (Except String PriceQuote)) : List PriceQuote :=
  (results.filterMap Except.toOption).filter self.passes

def medianPrice (prices : List Number) : Number :=
  let sorted := Number.sort prices
  (sorted[sorted.length / 2]?.orElse fun _ => sorted[0]?).getD 0

def calculateConfidence (root : ℚ → ℚ) (quotes : List PriceQuote) : Number :=
  match quotes with
  | [quote] => quote.confidence
  | _ =>
    let prices := quotes.map (·.price)
    let size : Number := .finite prices.length
    let mean := prices.foldl (· + ·) 0 / size
    let variance := prices.foldl (fun sum p => sum + (p - mean) * (p - mean)) 0 / size
    let coefficientOfVariation := Number.sqrt root variance / mean
    Number.minimum (Number.maximum 0 (1 - coefficientOfVariation * 10)) 1

/-- price-oracle.service.ts:436. `none`: an oracle has not answered yet. -/
def getPrice (root : ℚ → ℚ) (self : PriceOracleAggregator) (asset baseAsset : String)
    (s : Settling String PriceQuote) (now : Time) : Option (Except String PriceQuote) :=
  (s.allSettled self.oracles.length).map fun results =>
    let quotes := self.successful results
    if quotes.length = 0 then .error s!"No oracle returned a valid price for {asset}/{baseAsset}"
    else .ok
      { asset := asset.toUpper, baseAsset := baseAsset.toUpper, price := medianPrice (quotes.map (·.price))
        timestamp := now, source := self.getName, confidence := calculateConfidence root quotes }

/-- A price between two real numbers. -/
def Within (lo hi : ℝ) (price : Number) : Prop := ∃ q : ℚ, price = .finite q ∧ lo ≤ q ∧ q ≤ hi

variable {root : ℚ → ℚ} {self : PriceOracleAggregator} {asset baseAsset : String} {s : Settling String PriceQuote}
  {results results' : List (Except String PriceQuote)} {quote : PriceQuote} {prices prices' : List Number} {now : Time}

/-! ## The middle price -/

/-- A range is where a lower part of the line meets an upper part. -/
theorem within_iff {lo hi : ℝ} {price : Number} :
    Within lo hi price ↔ (∃ q : ℚ, price.value ≤ (q : WithTop ℚ) ∧ q ≤ hi) ∧
      ∃ q : ℚ, lo ≤ q ∧ ((q : WithTop ℚ) : WithBot (WithTop ℚ)) ≤ price.value := by
  constructor
  · rintro ⟨q, rfl, hlo, hhi⟩
    exact ⟨⟨q, le_rfl, hhi⟩, q, hlo, le_rfl⟩
  · rintro ⟨⟨above, habove, hhi⟩, below, hlo, hbelow⟩
    cases price with
    | nan | negInfinity => exact absurd hbelow (not_le.2 (WithBot.bot_lt_coe _))
    | infinity => exact absurd habove (not_le.2 (WithBot.coe_lt_coe.2 (WithTop.coe_lt_top above)))
    | finite q =>
      have hq : q ≤ above := by simpa [Number.value] using habove
      have hq' : below ≤ q := by simpa [Number.value] using hbelow
      exact ⟨q, rfl, hlo.trans (Rat.cast_le.2 hq'), (Rat.cast_le.2 hq).trans hhi⟩

theorem medianPrice_eq (h : prices ≠ []) :
    ∃ hk : (Number.sort prices).length / 2 < (Number.sort prices).length,
      medianPrice prices = (Number.sort prices)[(Number.sort prices).length / 2] := by
  have hk : (Number.sort prices).length / 2 < (Number.sort prices).length := by
    refine Nat.div_lt_self ?_ one_lt_two
    rw [Number.sort_perm.length_eq]
    exact List.length_pos_iff.2 h
  exact ⟨hk, by simp [medianPrice, List.getElem?_eq_getElem hk]⟩

theorem medianPrice_mem (h : prices ≠ []) : medianPrice prices ∈ prices := by
  obtain ⟨hk, heq⟩ := medianPrice_eq h
  rw [heq, ← Number.sort_perm.mem_iff]
  exact List.getElem_mem hk

open Classical in
/-- **The middle of the prices lies where more than half of them do.** -/
theorem medianPrice_within (h : ∀ x ∈ prices, x ≠ .nan) {lo hi : ℝ}
    (hmajority : prices.length < 2 * prices.countP (Within lo hi)) : Within lo hi (medianPrice prices) := by
  have hne : prices ≠ [] := by
    rintro rfl
    simp at hmajority
  obtain ⟨hk, heq⟩ := medianPrice_eq hne
  rw [heq, within_iff]
  have hplace := Store.getElem_of_majority
    (p := fun x : Number => decide (∃ q : ℚ, x.value ≤ (q : WithTop ℚ) ∧ q ≤ hi))
    (q := fun x : Number => decide (∃ q : ℚ, lo ≤ q ∧ ((q : WithTop ℚ) : WithBot (WithTop ℚ)) ≤ x.value))
    Number.sort_perm (Number.sort_sorted h) ?_ ?_ ?_ hk
  · simpa only [decide_eq_true_eq] using hplace
  · intro a b hab hb
    obtain ⟨q, hq, hhi⟩ := of_decide_eq_true hb
    exact decide_eq_true ⟨q, hab.trans hq, hhi⟩
  · intro a b hab ha
    obtain ⟨q, hlo, hq⟩ := of_decide_eq_true ha
    exact decide_eq_true ⟨q, hlo, hq.trans hab⟩
  · simpa only [within_iff, Bool.decide_and] using hmajority

/-- The order in which the prices come does not matter. -/
theorem medianPrice_perm (h : ∀ x ∈ prices, x ≠ .nan) (hperm : prices.Perm prices') :
    medianPrice prices = medianPrice prices' := by
  have h' (x : Number) (hx : x ∈ prices') : x ≠ .nan := h x (hperm.mem_iff.2 hx)
  have hsort : Number.sort prices = Number.sort prices' :=
    Store.sorted_unique (fun a ha b hb => Number.value_injective (h a ha) (h b hb)) hperm Number.sort_perm
      (Number.sort_sorted h) Number.sort_perm (Number.sort_sorted h')
  rw [medianPrice, medianPrice, hsort]

/-! ## What the aggregator answers -/

theorem mem_successful {q : PriceQuote} :
    q ∈ self.successful results ↔ .ok q ∈ results ∧ self.minConfidence ≤ q.confidence ∧ 0 < q.price := by
  rw [successful, List.mem_filter, List.mem_filterMap, passes, decide_eq_true_iff]
  refine and_congr_left fun _ => ⟨?_, fun h => ⟨_, h, rfl⟩⟩
  rintro ⟨result, hresult, heq⟩
  cases result with
  | error e => cases heq
  | ok q' =>
    cases heq
    exact hresult

theorem price_ne_nan {x : Number} (hx : x ∈ (self.successful results).map (·.price)) : x ≠ .nan := by
  obtain ⟨q, hq, rfl⟩ := List.mem_map.1 hx
  exact Number.ne_nan_of_pos (mem_successful.1 hq).2.2

theorem successful_congr {self' : PriceOracleAggregator} (h : self'.minConfidence = self.minConfidence) :
    self'.successful results = self.successful results := by
  have hpasses : self'.passes = self.passes := by
    funext q
    rw [passes, passes, h]
  rw [successful, successful, hpasses]

/-- The oracles may be listed in another order, each with its outcome. -/
theorem successful_perm {self' : PriceOracleAggregator} {s' : Settling String PriceQuote}
    (hconfidence : self'.minConfidence = self.minConfidence) (hs : s.allSettled self.oracles.length = some results)
    (hs' : s'.allSettled self'.oracles.length = some results')
    (hperm : (self'.oracles.zip results').Perm (self.oracles.zip results)) :
    (self'.successful results').Perm (self.successful results) := by
  have hresults : results'.Perm results := by
    have hsnd := hperm.map Prod.snd
    rwa [List.map_snd_zip (Settling.allSettled_length hs').le,
      List.map_snd_zip (Settling.allSettled_length hs).le] at hsnd
  rw [successful_congr hconfidence]
  exact (hresults.filterMap _).filter _

/-- Once every oracle has answered or failed there is a price, if there is a quote to take it from. -/
theorem getPrice_ok (root : ℚ → ℚ) (asset baseAsset : String) (now : Time)
    (hs : s.allSettled self.oracles.length = some results) (hne : self.successful results ≠ []) :
    ∃ quote, self.getPrice root asset baseAsset s now = some (.ok quote) ∧
      quote.price = medianPrice ((self.successful results).map (·.price)) := by
  rw [getPrice, hs, Option.map_some, if_neg fun h => hne (List.length_eq_zero_iff.1 h)]
  exact ⟨_, rfl, rfl⟩

theorem successful_of_getPrice (hs : s.allSettled self.oracles.length = some results)
    (h : self.getPrice root asset baseAsset s now = some (.ok quote)) :
    self.successful results ≠ [] ∧ quote.price = medianPrice ((self.successful results).map (·.price)) := by
  have hne : self.successful results ≠ [] := by
    intro hnil
    rw [getPrice, hs, Option.map_some, hnil] at h
    cases h
  obtain ⟨quote', hquote, hprice⟩ := getPrice_ok root asset baseAsset now hs hne
  rw [h] at hquote
  cases hquote
  exact ⟨hne, hprice⟩

open Classical in
/-- **A minority cannot move the price.** When all oracles have answered or failed there is a price just when a quote
passes the filter. It is the price of a quote that passes; it lies in every range in which more than half of those that
pass lie; and it is the same for whatever order the oracles are listed in and settle in. -/
theorem getPrice_robust (root : ℚ → ℚ) (self : PriceOracleAggregator) (asset baseAsset : String)
    (s : Settling String PriceQuote) (now : Time) (results : List (Except String PriceQuote))
    (hs : s.allSettled self.oracles.length = some results) :
    (self.successful results ≠ [] ↔ ∃ quote, self.getPrice root asset baseAsset s now = some (.ok quote)) ∧
    ∀ quote, self.getPrice root asset baseAsset s now = some (.ok quote) →
      (∃ q ∈ self.successful results, q.price = quote.price) ∧
      (∀ lo hi : ℝ, lo ≤ hi →
        (self.successful results).length < 2 * (self.successful results).countP (fun q => Within lo hi q.price) →
        Within lo hi quote.price) ∧
      (∀ s' : Settling String PriceQuote, s'.order.Perm s.order →
        self.getPrice root asset baseAsset s' now = some (.ok quote)) ∧
      ∀ (self' : PriceOracleAggregator) (s' : Settling String PriceQuote) (results' : List (Except String PriceQuote))
        (now' : Time), self'.minConfidence = self.minConfidence → s'.allSettled self'.oracles.length = some results' →
        (self'.oracles.zip results').Perm (self.oracles.zip results) →
        ∃ quote', self'.getPrice root asset baseAsset s' now' = some (.ok quote') ∧ quote'.price = quote.price := by
  refine ⟨⟨fun hne => ?_, fun ⟨quote, hquote⟩ => (successful_of_getPrice hs hquote).1⟩, fun quote hquote => ?_⟩
  · obtain ⟨quote, hquote, -⟩ := getPrice_ok root asset baseAsset now hs hne
    exact ⟨quote, hquote⟩
  obtain ⟨hne, hprice⟩ := successful_of_getPrice hs hquote
  refine ⟨?_, ?_, ?_, ?_⟩
  · have hmem : medianPrice ((self.successful results).map (·.price)) ∈ _ := medianPrice_mem (by simpa using hne)
    obtain ⟨q, hq, heq⟩ := List.mem_map.1 hmem
    exact ⟨q, hq, heq.trans hprice.symm⟩
  · intro lo hi _ hmajority
    rw [hprice]
    refine medianPrice_within (fun x hx => price_ne_nan hx) ?_
    rw [List.length_map, List.countP_map]
    exact hmajority
  · intro s' hperm
    rw [← hquote, getPrice, getPrice, Settling.allSettled_perm hperm]
  · intro self' s' results' now' hconfidence hs' hperm
    have hquotes := successful_perm hconfidence hs hs' hperm
    obtain ⟨quote', hquote', hprice'⟩ := getPrice_ok root asset baseAsset now' hs' fun hnil =>
      hne (by simpa [hnil] using hquotes)
    refine ⟨quote', hquote', ?_⟩
    rw [hprice, hprice']
    exact medianPrice_perm (fun x hx => price_ne_nan hx) (hquotes.map _)

def sampleQuote (source : String) (price : Number) : PriceQuote :=
  { asset := "ETH", baseAsset := "USD", price, timestamp := 0, source, confidence := 1 }

/-- Three oracles, the second of which answers first and makes the price infinite. -/
def sampleAnswers : Settling String PriceQuote :=
  ⟨[(1, .ok (sampleQuote "b" .infinity)), (0, .ok (sampleQuote "a" 100)), (2, .ok (sampleQuote "c" 101))], by decide⟩

theorem getPrice_robust_three : ∃ quote,
    getPrice id { oracles := [⟨"a"⟩, ⟨"b"⟩, ⟨"c"⟩] } "eth" "usd" sampleAnswers 0 = some (.ok quote) ∧
      Within 100 101 quote.price := by
  have hpass : successful { oracles := [⟨"a"⟩, ⟨"b"⟩, ⟨"c"⟩] } [.ok (sampleQuote "a" 100),
      .ok (sampleQuote "b" .infinity), .ok (sampleQuote "c" 101)] =
      [sampleQuote "a" 100, sampleQuote "b" .infinity, sampleQuote "c" 101] := by decide +kernel
  obtain ⟨hprice, hrobust⟩ := getPrice_robust id { oracles := [⟨"a"⟩, ⟨"b"⟩, ⟨"c"⟩] } "eth" "usd" sampleAnswers 0
    [.ok (sampleQuote "a" 100), .ok (sampleQuote "b" .infinity), .ok (sampleQuote "c" 101)] rfl
  rw [hpass] at hprice hrobust
  obtain ⟨quote, hquote⟩ := hprice.1 (List.cons_ne_nil _ _)
  have ha : Within 100 101 (sampleQuote "a" 100).price := ⟨100, rfl, by norm_num, by norm_num⟩
  have hb : ¬Within 100 101 (sampleQuote "b" .infinity).price := by
    rintro ⟨q, hq, -⟩
    cases hq
  have hc : Within 100 101 (sampleQuote "c" 101).price := ⟨101, rfl, by norm_num, by norm_num⟩
  exact ⟨quote, hquote, (hrobust quote hquote).2.1 100 101 (by norm_num) (by simp [ha, hb, hc])⟩

end PriceOracleAggregator

end NexoraGateway.RateLocks
