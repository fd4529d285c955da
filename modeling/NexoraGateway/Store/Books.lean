import Mathlib.Algebra.BigOperators.Finprod
import Mathlib.Data.Finsupp.Weight

/-!
# Double-entry books

A posting adds its amount to the account it debits and takes it from the account it credits. `books` gives every
account the balance that a list of postings leaves it with: its debits minus its credits.

* `finsum_books` — all balances together are zero.
* `books_concat` — a posting changes the balances of its two accounts, and no other (`effect_debit`,
  `effect_credit`, `effect_other`).
* `books_apply` — a balance as the difference of two sums.
-/
namespace Books

variable {A M : Type} [AddCommGroup M]

structure Posting (A M : Type) where
  debit : A
  credit : A
  amount : M

namespace Posting

/-- What a posting does to the balance of each account. -/
noncomputable def effect (p : Posting A M) : A →₀ M := .single p.debit p.amount - .single p.credit p.amount

variable {p : Posting A M} {a : A}

theorem effect_debit (h : p.debit ≠ p.credit) : p.effect p.debit = p.amount := by
  simp [effect, Finsupp.single_eq_of_ne h]

theorem effect_credit (h : p.debit ≠ p.credit) : p.effect p.credit = -p.amount := by
  simp [effect, Finsupp.single_eq_of_ne (Ne.symm h)]

theorem effect_other (hd : a ≠ p.debit) (hc : a ≠ p.credit) : p.effect a = 0 := by
  simp [effect, Finsupp.single_eq_of_ne hd, Finsupp.single_eq_of_ne hc]

theorem degree_effect (p : Posting A M) : p.effect.degree = 0 := by
  simp [effect]

end Posting

noncomputable def books (ps : List (Posting A M)) : A →₀ M := (ps.map Posting.effect).sum

@[simp] theorem books_nil : books ([] : List (Posting A M)) = 0 := rfl

@[simp] theorem books_cons (p : Posting A M) (ps : List (Posting A M)) :
    books (p :: ps) = p.effect + books ps := List.sum_cons

theorem books_append (ps qs : List (Posting A M)) : books (ps ++ qs) = books ps + books qs := by
  simp [books]

theorem books_concat (ps : List (Posting A M)) (p : Posting A M) : books (ps ++ [p]) = books ps + p.effect := by
  simp [books_append]

theorem degree_books (ps : List (Posting A M)) : (books ps).degree = 0 := by
  induction ps with
  | nil => simp
  | cons p ps ih => rw [books_cons, map_add, p.degree_effect, ih, add_zero]

/-- **The books balance.** -/
theorem finsum_books (ps : List (Posting A M)) : ∑ᶠ a, books ps a = 0 := by
  rw [← degree_books ps, Finsupp.degree_apply]
  exact finsum_eq_sum_of_support_subset _ (by simp [Finsupp.fun_support_eq])

/-- A balance is the sum of what each posting does to it. -/
theorem books_sum (ps : List (Posting A M)) (a : A) : books ps a = (ps.map fun p => p.effect a).sum := by
  induction ps with
  | nil => rfl
  | cons p ps ih => rw [books_cons, Finsupp.add_apply, ih, List.map_cons, List.sum_cons]

section
variable [DecidableEq A]

theorem effect_apply (p : Posting A M) (a : A) :
    p.effect a = (if p.debit = a then p.amount else 0) - (if p.credit = a then p.amount else 0) := by
  simp [Posting.effect, Finsupp.single_apply]

theorem books_apply (ps : List (Posting A M)) (a : A) :
    books ps a = (ps.map fun p => if p.debit = a then p.amount else 0).sum
      - (ps.map fun p => if p.credit = a then p.amount else 0).sum := by
  induction ps with
  | nil => simp
  | cons p ps ih =>
    rw [books_cons, Finsupp.add_apply, effect_apply, ih, List.map_cons, List.sum_cons, List.map_cons, List.sum_cons]
    exact (add_sub_add_comm ..).symm

end

end Books
