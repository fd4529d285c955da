import Mathlib.Data.List.TakeWhile

/-!
# Base64

`encode` writes octets in the standard alphabet, with padding. `decode` is lenient: it reads both alphabets, skips
what is in neither, and stops at the first `=`; what is left of a group of four is read as far as it goes.

* `decode_encode` — what was written is read back.
-/
namespace Text.Base64

/-- The character of a sextet. -/
def digit (n : Nat) : Char :=
  if n < 26 then Char.ofNat (65 + n)
  else if n < 52 then Char.ofNat (71 + n)
  else if n < 62 then Char.ofNat (n - 4)
  else if n = 62 then '+'
  else '/'

def sextet? (c : Char) : Option Nat :=
  if c.isUpper then some (c.toNat - 65)
  else if c.isLower then some (c.toNat - 71)
  else if c.isDigit then some (c.toNat + 4)
  else if c = '+' ∨ c = '-' then some 62
  else if c = '/' ∨ c = '_' then some 63
  else none

def encode : List Nat → List Char
  | a :: b :: c :: bs =>
    [digit (a / 4), digit (a % 4 * 16 + b / 16), digit (b % 16 * 4 + c / 64), digit (c % 64)] ++ encode bs
  | [a, b] => [digit (a / 4), digit (a % 4 * 16 + b / 16), digit (b % 16 * 4), '=']
  | [a] => [digit (a / 4), digit (a % 4 * 16), '=', '=']
  | [] => []

/-- The octets of sextets; one that is left over has too few bits. -/
def octets : List Nat → List Nat
  | a :: b :: c :: d :: ns => [a * 4 + b / 16, b % 16 * 16 + c / 4, c % 4 * 64 + d] ++ octets ns
  | [a, b, c] => [a * 4 + b / 16, b % 16 * 16 + c / 4]
  | [a, b] => [a * 4 + b / 16]
  | [_] | [] => []

/-- The sextets that are read from a text. -/
def sextets (cs : List Char) : List Nat := (cs.takeWhile (· ≠ '=')).filterMap sextet?

def decode (cs : List Char) : List Nat := octets (sextets cs)

theorem digit_ne_pad {n : Nat} (h : n < 64) : digit n ≠ '=' := by
  have hall : ∀ n < 64, digit n ≠ '=' := by decide
  exact hall n h

theorem sextet?_digit {n : Nat} (h : n < 64) : sextet? (digit n) = some n := by
  have hall : ∀ n < 64, sextet? (digit n) = some n := by decide
  exact hall n h

theorem sextets_digit {n : Nat} (h : n < 64) (cs : List Char) : sextets (digit n :: cs) = n :: sextets cs := by
  rw [sextets, List.takeWhile_cons_of_pos (by simpa using digit_ne_pad h), List.filterMap_cons, sextet?_digit h]
  rfl

theorem sextets_pad (cs : List Char) : sextets ('=' :: cs) = [] := rfl

theorem decode_encode {bs : List Nat} (h : ∀ b ∈ bs, b < 256) : decode (encode bs) = bs := by
  unfold decode
  induction bs using encode.induct with
  | case1 a b c bs ih =>
    simp only [List.mem_cons, forall_eq_or_imp] at h
    obtain ⟨ha, hb, hc, hbs⟩ := h
    simp only [encode, List.cons_append, List.nil_append]
    rw [sextets_digit (by omega), sextets_digit (by omega), sextets_digit (by omega), sextets_digit (by omega),
      octets, ih hbs]
    have hfirst : a / 4 * 4 + (a % 4 * 16 + b / 16) / 16 = a := by omega
    have hsecond : (a % 4 * 16 + b / 16) % 16 * 16 + (b % 16 * 4 + c / 64) / 4 = b := by omega
    have hthird : (b % 16 * 4 + c / 64) % 4 * 64 + c % 64 = c := by omega
    rw [hfirst, hsecond, hthird]
    rfl
  | case2 a b =>
    simp only [List.mem_cons, List.not_mem_nil, or_false, forall_eq_or_imp, forall_eq] at h
    obtain ⟨ha, hb⟩ := h
    rw [encode, sextets_digit (by omega), sextets_digit (by omega), sextets_digit (by omega), sextets_pad, octets]
    have hfirst : a / 4 * 4 + (a % 4 * 16 + b / 16) / 16 = a := by omega
    have hsecond : (a % 4 * 16 + b / 16) % 16 * 16 + b % 16 * 4 / 4 = b := by omega
    rw [hfirst, hsecond]
  | case3 a =>
    simp only [List.mem_singleton, forall_eq] at h
    rw [encode, sextets_digit (by omega), sextets_digit (by omega), sextets_pad, octets]
    have hfirst : a / 4 * 4 + a % 4 * 16 / 16 = a := by omega
    rw [hfirst]
  | case4 => rfl

end Text.Base64
