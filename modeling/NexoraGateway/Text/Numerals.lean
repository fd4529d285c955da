import Mathlib.Algebra.Order.Field.Rat
import Mathlib.Data.List.TakeWhile

/-!
# The numbers that strings are read as

`Number(s)` and `parseInt(s, 10)`, and the blanks that both skip. Where they answer `NaN` or an infinity, they are
`none`.

* `number?_digits`, `number?_toString` — digits are read as their number, so a natural number is read back.
-/
namespace Text.Numerals

/-- White space and line terminators. -/
def isWhiteSpace (c : Char) : Bool :=
  c.toNat ∈ [0x9, 0xa, 0xb, 0xc, 0xd, 0x20, 0xa0, 0x1680, 0x2028, 0x2029, 0x202f, 0x205f, 0x3000, 0xfeff] ||
    (0x2000 ≤ c.toNat && c.toNat ≤ 0x200a)

/-- `s.trim()`. -/
def trim (cs : List Char) : List Char := ((cs.dropWhile isWhiteSpace).reverse.dropWhile isWhiteSpace).reverse

/-- What a digit in a base up to 16 stands for. -/
def digit? (base : Nat) (c : Char) : Option Nat :=
  let value := if c.isDigit then c.toNat - 48 else if c.isAlpha then c.toLower.toNat - 87 else base
  if value < base then some value else none

def digits? (base : Nat) (cs : List Char) : Option Nat :=
  if cs.isEmpty then none else cs.foldlM (fun n c => (digit? base c).map (base * n + ·)) 0

def signed? {α : Type} [Neg α] (parse : List Char → Option α) : List Char → Option α
  | '-' :: cs => (parse cs).map (- ·)
  | '+' :: cs => parse cs
  | cs => parse cs

/-- A decimal literal without sign. -/
def decimal? (cs : List Char) : Option ℚ := do
  let notE := fun c : Char => c ≠ 'e' && c ≠ 'E'
  let mantissa := cs.takeWhile notE
  let fraction := (mantissa.dropWhile (· ≠ '.')).drop 1
  let value ← digits? 10 (mantissa.takeWhile (· ≠ '.') ++ fraction)
  let exponent ← match cs.dropWhile notE with
    | [] => some 0
    | _ :: exponent => signed? (fun cs => (digits? 10 cs).map Int.ofNat) exponent
  return value / 10 ^ fraction.length * 10 ^ exponent

/-- `Number(s)`, or `none` for `NaN` and the infinities. -/
def number? (s : String) : Option ℚ :=
  match trim s.toList with
  | [] => some 0
  | '0' :: c :: cs =>
    match c.toLower with
    | 'x' => (digits? 16 cs).map Nat.cast
    | 'o' => (digits? 8 cs).map Nat.cast
    | 'b' => (digits? 2 cs).map Nat.cast
    | _ => decimal? ('0' :: c :: cs)
  | cs => signed? decimal? cs

example : ["100", " -2.5e1 ", "0x1F", "", "1e", "."].map number? =
    [some 100, some (-25), some 31, some 0, none, none] := by
  decide +kernel

/-- `parseInt(s, 10)`, or `none` for `NaN`. -/
def parseInt (s : String) : Option ℤ :=
  let magnitude (cs : List Char) : Option ℤ :=
    let digits := cs.takeWhile Char.isDigit
    if digits = [] then none else some (Nat.ofDigitChars 10 digits 0)
  signed? magnitude (s.toList.dropWhile isWhiteSpace)

example : ["12", " -12 s", "+7", "Wed, 21 Oct 2026 07:28:00 GMT"].map parseInt =
    [some 12, some (-12), some 7, none] := by
  decide +kernel

/-! ## Digits -/

variable {c : Char} {cs : List Char}

theorem isDigit_range (hc : c.isDigit) : 48 ≤ c.toNat ∧ c.toNat ≤ 57 := by
  simpa [Char.isDigit, UInt32.le_iff_toNat_le] using hc

theorem not_isWhiteSpace (hc : c.isDigit) : isWhiteSpace c = false := by
  have hrange := isDigit_range hc
  simp only [isWhiteSpace, List.mem_cons, List.not_mem_nil, or_false, Bool.or_eq_false_iff, decide_eq_false_iff_not,
    Bool.and_eq_false_iff]
  omega

theorem digit?_of_isDigit (hc : c.isDigit) : digit? 10 c = some (c.toNat - '0'.toNat) := by
  have hrange := isDigit_range hc
  have hlt : c.toNat - 48 < 10 := by omega
  simp [digit?, hc, hlt]

theorem digits?_ofDigitChars (hne : cs ≠ []) (hall : ∀ c ∈ cs, c.isDigit) :
    digits? 10 cs = some (Nat.ofDigitChars 10 cs 0) := by
  have hfold (n : Nat) : cs.foldlM (fun n c => (digit? 10 c).map (10 * n + ·)) n =
      some (Nat.ofDigitChars 10 cs n) := by
    clear hne
    induction cs generalizing n with
    | nil => rfl
    | cons c cs ih =>
      rw [List.foldlM_cons, digit?_of_isDigit (hall c List.mem_cons_self), Nat.ofDigitChars_cons]
      exact ih (fun c' hc' => hall c' (List.mem_cons_of_mem c hc')) _
  rw [digits?, if_neg (by simpa using hne), hfold]

/-- No digit is one of the other characters of a literal. -/
theorem digit_ne (c' : Char) (hc : c.isDigit) (hc' : c'.isDigit = false) : c ≠ c' := by
  rintro rfl
  rw [hc] at hc'
  cases hc'

theorem decimal?_digits (hne : cs ≠ []) (hall : ∀ c ∈ cs, c.isDigit) :
    decimal? cs = some (Nat.ofDigitChars 10 cs 0 : ℚ) := by
  have hmantissa : cs.takeWhile (fun c => c ≠ 'e' && c ≠ 'E') = cs := by
    refine List.takeWhile_eq_self_iff.2 fun c hc => ?_
    simp [digit_ne 'e' (hall c hc) (by decide), digit_ne 'E' (hall c hc) (by decide)]
  have hexponent : cs.dropWhile (fun c => c ≠ 'e' && c ≠ 'E') = [] := by
    refine List.dropWhile_eq_nil_iff.2 fun c hc => ?_
    simp [digit_ne 'e' (hall c hc) (by decide), digit_ne 'E' (hall c hc) (by decide)]
  have hwhole : cs.takeWhile (fun c => c ≠ '.') = cs := by
    refine List.takeWhile_eq_self_iff.2 fun c hc => ?_
    simp [digit_ne '.' (hall c hc) (by decide)]
  have hfraction : cs.dropWhile (fun c => c ≠ '.') = [] := by
    refine List.dropWhile_eq_nil_iff.2 fun c hc => ?_
    simp [digit_ne '.' (hall c hc) (by decide)]
  unfold decimal?
  simp only [hmantissa, hexponent, hwhole, hfraction]
  simp [digits?_ofDigitChars hne hall]

theorem toLower_of_isDigit (hc : c.isDigit) : c.toLower = c := by
  have hrange := isDigit_range hc
  refine dif_neg fun hupper => ?_
  have hle : 65 ≤ c.toNat := UInt32.le_iff_toNat_le.1 hupper.1
  omega

theorem trim_of_isDigit (hall : ∀ c ∈ cs, c.isDigit) : trim cs = cs := by
  have hdrop {ds : List Char} (hds : ∀ c ∈ ds, c.isDigit) : ds.dropWhile isWhiteSpace = ds := by
    cases ds with
    | nil => rfl
    | cons c ds => simp [not_isWhiteSpace (hds c List.mem_cons_self)]
  rw [trim, hdrop hall, hdrop fun c hc => hall c (List.mem_reverse.1 hc), List.reverse_reverse]

/-- Digits are read as the number that they stand for. -/
theorem number?_digits (hne : cs ≠ []) (hall : ∀ c ∈ cs, c.isDigit) :
    number? (String.ofList cs) = some (Nat.ofDigitChars 10 cs 0 : ℚ) := by
  unfold number?
  rw [String.toList_ofList, trim_of_isDigit hall]
  split
  · exact absurd rfl hne
  · rename_i c cs
    have hc := hall c (List.mem_cons_of_mem _ List.mem_cons_self)
    rw [toLower_of_isDigit hc]
    split
    · exact absurd hc (by decide)
    · exact absurd hc (by decide)
    · exact absurd hc (by decide)
    · exact decimal?_digits hne hall
  · rename_i cs _
    unfold signed?
    split
    · exact absurd (hall '-' List.mem_cons_self) (by decide)
    · exact absurd (hall '+' List.mem_cons_self) (by decide)
    · exact decimal?_digits hne hall

theorem number?_toString (n : Nat) : number? (toString n) = some (n : ℚ) := by
  have hstring : toString n = String.ofList (Nat.toDigits 10 n) := Nat.toString_eq_ofList_toDigits
  have hall : ∀ c ∈ Nat.toDigits 10 n, c.isDigit := fun c hc =>
    Nat.isDigit_of_mem_toDigits (by decide) (by decide) hc
  rw [hstring, number?_digits Nat.toDigits_ne_nil hall, Nat.ofDigitChars_ten_toDigits]

end Text.Numerals
