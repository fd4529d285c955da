import Mathlib.Algebra.Order.Round
import Mathlib.Data.Int.Log
import Mathlib.Data.Rat.Floor

/-!
# Double-precision numbers

A finite `number` is a multiple of a power of two with 53 bits (`Double.Binary64`), and every operation rounds its exact
result to the nearest such number, a tie to the even one (`Double.nearest`). There is no overflow: what would be an
infinity stays a number. `NaN` and the infinities are in `Ecma.Number`, which does not round.

* `ofRat` — a decimal in the source, or read by `parseFloat`: the nearest double.
* `nearest_mono` — rounding keeps the order, and what is a double already (`nearest_eq`).
-/
namespace Ecma.Double

/-- `q` is a binary64 number. -/
def Binary64 (q : ℚ) : Prop := ∃ n k : ℤ, q = n * 2 ^ k ∧ |n| ≤ 2 ^ 53 ∧ -1074 ≤ k

/-- The integer nearest to `q`, the even one of two. -/
def roundEven (q : ℚ) : ℤ :=
  let r := ⌊q + 1 / 2⌋
  if q + 1 / 2 = r ∧ r % 2 = 1 then r - 1 else r

/-- The exponent of the last bit of a double near `q`; below the normal numbers it is that of the smallest. -/
def lastBit (q : ℚ) : ℤ := max (Int.log 2 |q| - 52) (-1074)

/-- The double nearest to `q`. -/
def nearest (q : ℚ) : ℚ := roundEven (q / 2 ^ lastBit q) * 2 ^ lastBit q

/-! ## Integers -/

variable {q q' : ℚ} {n k : ℤ}

theorem roundEven_intCast (n : ℤ) : roundEven n = n := by
  have hfloor : ⌊(n : ℚ) + 1 / 2⌋ = n := by
    rw [Int.floor_intCast_add, Int.floor_eq_iff.2 (by norm_num : ((0 : ℤ) : ℚ) ≤ 1 / 2 ∧ (1 / 2 : ℚ) < (0 : ℤ) + 1),
      add_zero]
  simp only [roundEven, hfloor]
  exact if_neg fun h => absurd h.1 (by linarith)

theorem roundEven_mono (h : q ≤ q') : roundEven q ≤ roundEven q' := by
  have hfloor : ⌊q + 1 / 2⌋ ≤ ⌊q' + 1 / 2⌋ := Int.floor_le_floor (by linarith)
  simp only [roundEven]
  split
  · split <;> omega
  · rename_i hq
    split
    · rename_i hq'
      -- at the upper tie `q` is below it, or the same tie
      by_contra hlt
      have hsame : ⌊q + 1 / 2⌋ = ⌊q' + 1 / 2⌋ := by omega
      have hle : ((⌊q + 1 / 2⌋ : ℤ) : ℚ) ≤ q + 1 / 2 := Int.floor_le _
      have heq : q + 1 / 2 = (⌊q + 1 / 2⌋ : ℤ) := by
        rw [hsame] at hle ⊢
        linarith [hq'.1]
      exact hq ⟨heq, hsame ▸ hq'.2⟩
    · exact hfloor

/-! ## The last bit -/

theorem two_zpow_pos (k : ℤ) : (0 : ℚ) < 2 ^ k := zpow_pos two_pos k

theorem two_zpow_add (m k : ℤ) : (2 : ℚ) ^ (m + k) = 2 ^ m * 2 ^ k := zpow_add₀ two_ne_zero m k

/-- A number has 53 bits before its last one. -/
theorem abs_lt_lastBit (q : ℚ) : |q| < 2 ^ (53 + lastBit q) := by
  have hlog : |q| < ((2 : ℕ) : ℚ) ^ (Int.log 2 |q| + 1) := Int.lt_zpow_succ_log_self one_lt_two |q|
  refine hlog.trans_le ?_
  rw [Nat.cast_ofNat]
  exact zpow_le_zpow_right₀ one_le_two (by rw [lastBit]; omega)

/-- And not fewer, above the smallest last bit. -/
theorem lastBit_le_abs (hq : q ≠ 0) (h : -1074 < lastBit q) : (2 : ℚ) ^ (52 + lastBit q) ≤ |q| := by
  have hlog : ((2 : ℕ) : ℚ) ^ Int.log 2 |q| ≤ |q| := Int.zpow_log_le_self one_lt_two (abs_pos.2 hq)
  refine le_trans ?_ hlog
  rw [Nat.cast_ofNat]
  refine zpow_le_zpow_right₀ one_le_two ?_
  unfold lastBit at h ⊢
  omega

/-! ## Rounding -/

/-- Rounding does not go past a multiple of the last bit. -/
theorem nearest_le (h : q ≤ n * 2 ^ lastBit q) : nearest q ≤ n * 2 ^ lastBit q := by
  have hscaled : roundEven (q / 2 ^ lastBit q) ≤ n := by
    rw [← roundEven_intCast n]
    exact roundEven_mono ((div_le_iff₀ (two_zpow_pos _)).2 h)
  exact mul_le_mul_of_nonneg_right (by exact_mod_cast hscaled) (two_zpow_pos _).le

theorem le_nearest (h : n * 2 ^ lastBit q ≤ q) : n * 2 ^ lastBit q ≤ nearest q := by
  have hscaled : n ≤ roundEven (q / 2 ^ lastBit q) := by
    rw [← roundEven_intCast n]
    exact roundEven_mono ((le_div_iff₀ (two_zpow_pos _)).2 h)
  exact mul_le_mul_of_nonneg_right (by exact_mod_cast hscaled) (two_zpow_pos _).le

theorem nearest_nonneg (h : 0 ≤ q) : 0 ≤ nearest q := by
  simpa using le_nearest (n := 0) (by simpa using h)

theorem nearest_nonpos (h : q ≤ 0) : nearest q ≤ 0 := by
  simpa using nearest_le (n := 0) (by simpa using h)

/-- Between numbers of different size lies a power of two. -/
theorem abs_lt_abs_of_lastBit_lt (hq' : q' ≠ 0) (h : lastBit q < lastBit q') :
    |q| < 2 ^ 53 * 2 ^ lastBit q ∧ (2 : ℚ) ^ 53 * 2 ^ lastBit q ≤ 2 ^ 52 * 2 ^ lastBit q' ∧
      2 ^ 52 * 2 ^ lastBit q' ≤ |q'| := by
  have hsmallest : -1074 ≤ lastBit q := le_max_right _ _
  have hpower : (2 : ℚ) ^ (53 + lastBit q) ≤ 2 ^ (52 + lastBit q') := zpow_le_zpow_right₀ one_le_two (by omega)
  have hsmall := abs_lt_lastBit q
  have hlarge := lastBit_le_abs hq' (by omega)
  rw [two_zpow_add] at hsmall hlarge
  rw [two_zpow_add, two_zpow_add] at hpower
  exact ⟨by exact_mod_cast hsmall, by exact_mod_cast hpower, by exact_mod_cast hlarge⟩

/-- **Rounding keeps the order.** -/
theorem nearest_mono (h : q ≤ q') : nearest q ≤ nearest q' := by
  rcases eq_or_ne q 0 with rfl | hq
  · exact (nearest_nonpos le_rfl).trans (nearest_nonneg h)
  rcases eq_or_ne q' 0 with rfl | hq'
  · exact (nearest_nonpos h).trans (nearest_nonneg le_rfl)
  rcases lt_trichotomy (lastBit q) (lastBit q') with hlt | heq | hgt
  · -- `q'` is positive, and the power is between them
    obtain ⟨hsmall, hpower, hlarge⟩ := abs_lt_abs_of_lastBit_lt hq' hlt
    have hpos : 0 < q' := by
      by_contra hneg
      rw [abs_of_nonpos (not_lt.1 hneg)] at hlarge
      rw [abs_of_nonpos (h.trans (not_lt.1 hneg))] at hsmall
      linarith
    rw [abs_of_pos hpos] at hlarge
    have hupper : nearest q ≤ (2 ^ 53 : ℤ) * 2 ^ lastBit q :=
      nearest_le (by push_cast; exact (le_abs_self q).trans hsmall.le)
    have hlower : (2 ^ 52 : ℤ) * 2 ^ lastBit q' ≤ nearest q' := le_nearest (by push_cast; exact hlarge)
    push_cast at hupper hlower
    exact hupper.trans (hpower.trans hlower)
  · rw [nearest, nearest, heq]
    have hscaled : roundEven (q / 2 ^ lastBit q') ≤ roundEven (q' / 2 ^ lastBit q') :=
      roundEven_mono (div_le_div_of_nonneg_right h (two_zpow_pos _).le)
    exact mul_le_mul_of_nonneg_right (by exact_mod_cast hscaled) (two_zpow_pos _).le
  · -- `q` is negative, and minus the power is between them
    obtain ⟨hsmall, hpower, hlarge⟩ := abs_lt_abs_of_lastBit_lt hq hgt
    have hneg : q < 0 := by
      by_contra hpos
      rw [abs_of_nonneg (not_lt.1 hpos)] at hlarge
      rw [abs_of_nonneg ((not_lt.1 hpos).trans h)] at hsmall
      linarith
    rw [abs_of_neg hneg] at hlarge
    have hupper : nearest q ≤ (-2 ^ 52 : ℤ) * 2 ^ lastBit q := nearest_le (by push_cast; linarith)
    have hlower : (-2 ^ 53 : ℤ) * 2 ^ lastBit q' ≤ nearest q' :=
      le_nearest (by push_cast; linarith [neg_abs_le q'])
    push_cast at hupper hlower
    linarith

/-- Rounding gives a double. -/
theorem binary64_nearest (q : ℚ) : Binary64 (nearest q) := by
  refine ⟨_, _, rfl, abs_le.2 ?_, le_max_right _ _⟩
  have hscaled : |q / 2 ^ lastBit q| ≤ 2 ^ 53 := by
    rw [abs_div, abs_of_pos (two_zpow_pos _), div_le_iff₀ (two_zpow_pos _)]
    have hbits := (abs_lt_lastBit q).le
    rw [two_zpow_add] at hbits
    exact_mod_cast hbits
  obtain ⟨hlower, hupper⟩ := abs_le.1 hscaled
  constructor
  · rw [← roundEven_intCast (-2 ^ 53)]
    exact roundEven_mono (by push_cast; exact hlower)
  · rw [← roundEven_intCast (2 ^ 53)]
    exact roundEven_mono (by push_cast; exact hupper)

/-- A double is a multiple of its last bit. -/
theorem Binary64.eq_mul (h : Binary64 q) : ∃ n : ℤ, q = n * 2 ^ lastBit q := by
  rcases eq_or_ne q 0 with hq | hq
  · exact ⟨0, by simp [hq]⟩
  obtain ⟨n, k, hvalue, hn, hk⟩ := h
  rcases le_or_gt (lastBit q) k with hle | hgt
  · refine ⟨n * 2 ^ (k - lastBit q).toNat, hvalue.trans ?_⟩
    have hsplit : (2 : ℚ) ^ k = 2 ^ (k - lastBit q).toNat * 2 ^ lastBit q := by
      rw [← zpow_natCast, ← two_zpow_add]
      congr 1
      omega
    rw [hsplit]
    push_cast
    ring
  · -- then `n` is the power of two that is one bit longer
    have hlarge := lastBit_le_abs hq (by omega)
    have habs : |q| = |n| * 2 ^ k := by rw [hvalue, abs_mul, abs_of_pos (two_zpow_pos k), Int.cast_abs]
    have hbits : |(n : ℚ)| ≤ 2 ^ 53 := by exact_mod_cast hn
    have hexponent : lastBit q = k + 1 := by
      have hlt : (2 : ℚ) ^ (52 + lastBit q) ≤ 2 ^ (53 + k) := by
        rw [two_zpow_add 53]
        refine hlarge.trans (habs.trans_le (mul_le_mul_of_nonneg_right ?_ (two_zpow_pos k).le))
        exact_mod_cast hn
      have hle := (zpow_le_zpow_iff_right₀ one_lt_two).1 hlt
      omega
    have hpower : |n| = 2 ^ 53 := by
      refine le_antisymm hn ?_
      rw [hexponent, habs, show 52 + (k + 1) = 53 + k by omega, two_zpow_add] at hlarge
      exact_mod_cast le_of_mul_le_mul_right hlarge (two_zpow_pos k)
    refine ⟨n / 2, ?_⟩
    have heven : 2 * (n / 2) = n := Int.mul_ediv_cancel' ((dvd_abs 2 n).1 (hpower ▸ ⟨2 ^ 52, rfl⟩))
    calc q = ((2 * (n / 2) : ℤ) : ℚ) * 2 ^ k := by rw [heven, hvalue]
      _ = (n / 2 : ℤ) * 2 ^ (k + 1) := by
        rw [two_zpow_add, zpow_one]
        push_cast
        ring
      _ = (n / 2 : ℤ) * 2 ^ lastBit q := by rw [hexponent]

/-- **What is a double is not rounded.** -/
theorem nearest_eq (h : Binary64 q) : nearest q = q := by
  obtain ⟨n, hn⟩ := h.eq_mul
  have hscaled : q / 2 ^ lastBit q = n := (div_eq_iff (two_zpow_pos _).ne').2 hn
  rw [nearest, hscaled, roundEven_intCast]
  exact hn.symm

end Ecma.Double

namespace Ecma

/-- A finite `number`. -/
structure Double where
  value : ℚ
  binary64 : Double.Binary64 value

namespace Double

/-- The double nearest to a rational number. -/
def ofRat (q : ℚ) : Double := ⟨nearest q, binary64_nearest q⟩

@[ext] theorem ext {x y : Double} (h : x.value = y.value) : x = y := by
  cases x
  cases h
  rfl

instance (n : Nat) : OfNat Double n := ⟨ofRat n⟩
instance : Add Double := ⟨fun x y => ofRat (x.value + y.value)⟩
instance : Sub Double := ⟨fun x y => ofRat (x.value - y.value)⟩
instance : Mul Double := ⟨fun x y => ofRat (x.value * y.value)⟩
instance : LinearOrder Double := LinearOrder.lift' value fun _ _ => ext

variable {x y : Double} {q q' : ℚ}

theorem ofRat_mono (h : q ≤ q') : ofRat q ≤ ofRat q' := nearest_mono h

/-- A double is not rounded again. -/
@[simp] theorem ofRat_value (x : Double) : ofRat x.value = x := ext (nearest_eq x.binary64)

/-- The first summand is the sum so far. -/
theorem zero_add (x : Double) : 0 + x = x := by
  have hzero : (0 : Double).value = 0 := le_antisymm (nearest_nonpos le_rfl) (nearest_nonneg le_rfl)
  change ofRat ((0 : Double).value + x.value) = x
  rw [hzero, Rat.zero_add, ofRat_value]

theorem ofRat_nonneg (h : 0 ≤ q) : 0 ≤ (ofRat q).value := nearest_nonneg h

/-- There is no largest number. -/
theorem exists_gt (x : Double) : ∃ q, x < ofRat q := by
  have hsmallest : -1074 ≤ lastBit x.value := le_max_right _ _
  refine ⟨2 ^ (53 + lastBit x.value), ?_⟩
  change x.value < nearest (2 ^ (53 + lastBit x.value))
  rw [nearest_eq ⟨1, 53 + lastBit x.value, by simp, by norm_num, by omega⟩]
  exact (le_abs_self _).trans_lt (abs_lt_lastBit _)

/-- A factor of at most one does not make a number larger. -/
theorem mul_le (hx : 0 ≤ x.value) (hy : y.value ≤ 1) : x * y ≤ x := by
  have hround : x * y ≤ ofRat x.value := ofRat_mono (mul_le_of_le_one_right hx hy)
  rwa [ofRat_value] at hround

/-- Nor does one of at least one make it smaller. -/
theorem le_mul (hx : 0 ≤ x.value) (hy : 1 ≤ y.value) : x ≤ x * y := by
  have hround : ofRat x.value ≤ x * y := ofRat_mono (le_mul_of_one_le_right hx hy)
  rwa [ofRat_value] at hround

end Double

end Ecma
