import Mathlib.Data.Rat.Floor

/-!
# Values shared by every package

`number` is modelled as an exact rational and `Date` as milliseconds since the epoch. `Json` is what
a `Record<string, unknown>` payload holds; `date t` is the string that `toISOString` renders for `t`.
-/
namespace NexoraGateway

/-- Milliseconds since the epoch. -/
abbrev Time := Int

/-- `new Date(ms)` drops what is less than a millisecond. -/
def toTime (ms : ℚ) : Time := ms.num.tdiv ms.den

/-- UUIDs, hashes and addresses are strings the code only compares. -/
abbrev Id := String

inductive Json : Type where
  | null
  | bool (b : Bool)
  | num (q : ℚ)
  | str (s : String)
  | date (t : Time)
  | arr (xs : List Json)
  | obj (fields : List (String × Json))

abbrev Payload := List (String × Json)

/-- `payload[key]`. -/
def Payload.get? (p : Payload) (key : String) : Option Json := List.lookup key p

/-- A nullable field: `x ?? null`. -/
def Json.ofOption {α : Type} (f : α → Json) : Option α → Json
  | none => .null
  | some x => f x

/-- What a `DECIMAL(20, 8)` column stores for `q`: `q` rounded to 8 places, half away from zero. -/
def decimal8 (q : ℚ) : ℚ :=
  if 0 ≤ q then (⌊q * 10 ^ 8 + 1 / 2⌋ : ℚ) / 10 ^ 8 else -((⌊-q * 10 ^ 8 + 1 / 2⌋ : ℚ) / 10 ^ 8)

section
variable {q : ℚ}

theorem toTime_of_nonneg (h : 0 ≤ q) : toTime q = ⌊q⌋ := by
  rw [toTime, Int.tdiv_eq_ediv_of_nonneg (Rat.num_nonneg.2 h), Rat.floor_def']

/-- A date lies after a moment when it is at least a millisecond later. -/
theorem lt_toTime {t : Time} (ht : 0 ≤ t) : t < toTime q ↔ (t : ℚ) + 1 ≤ q := by
  by_cases hq : 0 ≤ q
  · rw [toTime_of_nonneg hq, ← Int.add_one_le_iff, Int.le_floor]
    norm_cast
  · have hnum : q.num ≤ 0 := Rat.num_nonpos.2 (le_of_not_ge hq)
    have hdate : toTime q ≤ 0 := by
      have hneg : 0 ≤ (-q.num).tdiv q.den := Int.tdiv_nonneg (by omega) (Int.natCast_nonneg _)
      rw [Int.neg_tdiv] at hneg
      exact Int.neg_nonneg.1 hneg
    have hcast : (0 : ℚ) ≤ t := Int.cast_nonneg ht
    refine iff_of_false (not_lt.2 (hdate.trans ht)) fun hle => hq ?_
    linarith

/-- An amount of at most eight decimals is stored as it is. -/
theorem decimal8_units (units : ℤ) : decimal8 (units / 10 ^ 8) = units / 10 ^ 8 := by
  have hround (z : ℤ) : ⌊(z : ℚ) / 10 ^ 8 * 10 ^ 8 + 1 / 2⌋ = z := by
    rw [div_mul_cancel₀ _ (by norm_num), Int.floor_intCast_add]
    norm_num
  unfold decimal8
  split
  · rw [hround]
  · have hneg : -((units : ℚ) / 10 ^ 8) = (-units : ℤ) / 10 ^ 8 := by rw [Int.cast_neg, neg_div]
    rw [hneg, hround, ← hneg, neg_neg]

theorem decimal8_nonneg (h : 0 ≤ q) : 0 ≤ decimal8 q := by
  have hfloor : 0 ≤ ⌊q * 10 ^ 8 + 1 / 2⌋ := Int.floor_nonneg.2 (by positivity)
  rw [decimal8, if_pos h]
  exact div_nonneg (Int.cast_nonneg hfloor) (by norm_num)

/-- What is stored as zero: less than half a unit of the eighth decimal. -/
theorem decimal8_eq_zero_iff (h : 0 ≤ q) : decimal8 q = 0 ↔ q < 1 / (2 * 10 ^ 8) := by
  rw [decimal8, if_pos h, div_eq_zero_iff, Int.cast_eq_zero, Int.floor_eq_zero_iff, Set.mem_Ico]
  constructor
  · rintro (⟨-, hlt⟩ | hpow)
    · linarith
    · norm_num at hpow
  · intro hlt
    exact .inl ⟨by positivity, by linarith⟩

end

end NexoraGateway
