import Mathlib.Algebra.Order.Ring.Rat
import Mathlib.Algebra.Order.Round
import Mathlib.Data.List.Sort
import Mathlib.Data.Rat.Floor
import Mathlib.Order.WithBot

/-!
# Numbers with `NaN` and the infinities, and `Math.round`

The arithmetic and the comparisons of a `number` that may be anything. Finite results are exact. Zero has one sign, so
division by it is division by what is just above it.

`sort` is `sort((a, b) => a - b)`: of two elements the first stays in front unless the difference is positive, which a
`NaN` is not. Over numbers that are not `NaN` it sorts by `value` (`sort_sorted`).
-/
namespace Ecma

inductive Number where
  | nan
  | negInfinity
  | finite (q : ℚ)
  | infinity
  deriving DecidableEq

namespace Number

instance (n : Nat) : OfNat Number n := ⟨finite n⟩

instance : Neg Number where
  neg
    | nan => nan
    | negInfinity => infinity
    | finite q => finite (-q)
    | infinity => negInfinity

instance : Add Number where
  add
    | nan, _ | _, nan | infinity, negInfinity | negInfinity, infinity => nan
    | infinity, _ | _, infinity => infinity
    | negInfinity, _ | _, negInfinity => negInfinity
    | finite x, finite y => finite (x + y)

instance : Sub Number := ⟨fun x y => x + -y⟩

/-- An infinity times a number of this sign. -/
def scaled (sign : ℚ) : Number := if sign = 0 then nan else if 0 < sign then infinity else negInfinity

instance : Mul Number where
  mul
    | nan, _ | _, nan => nan
    | infinity, infinity | negInfinity, negInfinity => infinity
    | infinity, negInfinity | negInfinity, infinity => negInfinity
    | infinity, finite q | finite q, infinity => scaled q
    | negInfinity, finite q | finite q, negInfinity => scaled (-q)
    | finite x, finite y => finite (x * y)

instance : Div Number where
  div
    | finite x, finite y => if y = 0 then scaled x else finite (x / y)
    | infinity, finite y => if y < 0 then negInfinity else infinity
    | negInfinity, finite y => if y < 0 then infinity else negInfinity
    | finite _, infinity | finite _, negInfinity => 0
    | _, _ => nan

def less : Number → Number → Bool
  | finite x, finite y => x < y
  | negInfinity, finite _ | negInfinity, infinity | finite _, infinity => true
  | _, _ => false

instance : LT Number := ⟨fun x y => x.less y = true⟩
instance : LE Number := ⟨fun x y => x < y ∨ (x = y ∧ x ≠ nan)⟩
instance (x y : Number) : Decidable (x < y) := inferInstanceAs (Decidable (_ = true))
instance (x y : Number) : Decidable (x ≤ y) := inferInstanceAs (Decidable (_ ∨ _))

/-- `Math.max(x, y)`. -/
def maximum (x y : Number) : Number := if x = nan ∨ y = nan then nan else if x < y then y else x

/-- `Math.min(x, y)`. -/
def minimum (x y : Number) : Number := if x = nan ∨ y = nan then nan else if y < x then y else x

/-- `Math.sqrt`, given the root of what is finite. -/
def sqrt (root : ℚ → ℚ) : Number → Number
  | finite q => if q < 0 then nan else finite (root q)
  | infinity => infinity
  | nan | negInfinity => nan

/-- The place of a number on the line. -/
def value : Number → WithBot (WithTop ℚ)
  | nan | negInfinity => ⊥
  | finite q => ((q : WithTop ℚ) : WithBot (WithTop ℚ))
  | infinity => ((⊤ : WithTop ℚ) : WithBot (WithTop ℚ))

/-- `sort((a, b) => a - b)`. -/
def sort (numbers : List Number) : List Number := numbers.insertionSort fun a b => ¬0 < a - b

variable {x y : Number} {q : ℚ} {numbers numbers' : List Number}

theorem ne_nan_of_pos (h : 0 < x) : x ≠ nan := by
  rintro rfl
  exact Bool.false_ne_true h

theorem value_injective (hx : x ≠ nan) (hy : y ≠ nan) (h : value x = value y) : x = y := by
  cases x <;> cases y <;> simp_all [value]

@[simp] theorem zero_lt_finite : 0 < finite q ↔ 0 < q := decide_eq_true_iff (p := ((0 : ℕ) : ℚ) < q)
@[simp] theorem zero_lt_infinity : 0 < infinity := rfl
@[simp] theorem not_zero_lt_negInfinity : ¬0 < negInfinity := Bool.false_ne_true
@[simp] theorem not_zero_lt_nan : ¬0 < nan := Bool.false_ne_true

theorem finite_sub_finite (q q' : ℚ) : finite q - finite q' = finite (q - q') := by
  rw [sub_eq_add_neg]
  rfl

/-- The comparator of the sort compares places. -/
theorem zero_lt_sub (hx : x ≠ nan) (hy : y ≠ nan) : 0 < x - y ↔ value y < value x := by
  cases x with
  | nan => exact absurd rfl hx
  | negInfinity =>
    -- Nothing is below it, and the difference is it again or `NaN`.
    refine iff_of_false ?_ not_lt_bot
    cases y <;> exact Bool.false_ne_true
  | finite q =>
    cases y with
    | nan => exact absurd rfl hy
    | negInfinity => exact iff_of_true rfl (WithBot.bot_lt_coe _)
    | finite q' => simp [finite_sub_finite, value]
    | infinity => exact iff_of_false Bool.false_ne_true (by simp [value])
  | infinity =>
    cases y with
    | nan => exact absurd rfl hy
    | negInfinity => exact iff_of_true rfl (WithBot.bot_lt_coe _)
    | finite q' => exact iff_of_true rfl (WithBot.coe_lt_coe.2 (WithTop.coe_lt_top q'))
    | infinity => exact iff_of_false Bool.false_ne_true (lt_irrefl _)

theorem sort_perm : (sort numbers).Perm numbers := List.perm_insertionSort _ _

/-- **Numbers that are not `NaN` are sorted by their places.** -/
theorem sort_sorted (h : ∀ x ∈ numbers, x ≠ nan) : (sort numbers).Pairwise fun a b => value a ≤ value b := by
  have hplaces : (sort numbers).map value = (numbers.map value).insertionSort (· ≤ ·) :=
    List.map_insertionSort _ _ value numbers fun a ha b hb => by rw [zero_lt_sub (h a ha) (h b hb), not_lt]
  have hsorted : ((sort numbers).map value).Pairwise (· ≤ ·) := by
    rw [hplaces]
    exact List.pairwise_insertionSort _ _
  exact List.pairwise_map.1 hsorted

end Number

/-! ## `Math.round` -/

/-- `Math.round`: to the nearest integer, halves upwards. -/
def mathRound (q : ℚ) : ℚ := ⌊q + 1 / 2⌋

theorem mathRound_eq (q : ℚ) : mathRound q = (round q : ℤ) := by rw [mathRound, round_eq]

theorem mathRound_mono : Monotone mathRound := fun _ _ h =>
  Int.cast_le.2 (Int.floor_mono (add_le_add_left h _))

@[simp] theorem mathRound_zero : mathRound 0 = 0 := by simp [mathRound_eq]

@[simp] theorem mathRound_natCast (n : ℕ) : mathRound n = n := by
  rw [mathRound_eq, round_natCast, Int.cast_natCast]

theorem abs_mathRound_sub_le (q : ℚ) : |mathRound q - q| ≤ 1 / 2 := by
  rw [mathRound_eq, abs_sub_comm]
  exact abs_sub_round q

end Ecma
