import Mathlib.Data.List.Forall2
import NexoraGateway.Store.Stable

/-!
# `Promise.allSettled`

Calls started together settle in any order, each once, with a result or with an error; some may stay pending.
`allSettled` has one outcome for each call, in the order in which the calls were made, as soon as none is pending.
-/
namespace Async

/-- The calls that have settled, by number, in the order in which they did. -/
structure Settling (ε α : Type) where
  order : List (Nat × Except ε α)
  once : (order.map Prod.fst).Nodup

variable {ε α : Type} {n : Nat} {s s' : Settling ε α} {results : List (Except ε α)}

namespace Settling

/-- `await Promise.allSettled(..)` of `n` calls; `none` while a call is pending. -/
def allSettled (s : Settling ε α) (n : Nat) : Option (List (Except ε α)) :=
  (List.range n).mapM fun i => List.lookup i s.order

theorem forall₂_of_mapM {β γ : Type} {f : β → Option γ} {l : List β} {l' : List γ} (h : l.mapM f = some l') :
    List.Forall₂ (fun a b => f a = some b) l l' := by
  induction l generalizing l' with
  | nil =>
    cases h
    exact .nil
  | cons a l ih =>
    rw [List.mapM_cons] at h
    obtain ⟨b, hb, h⟩ := Option.bind_eq_some_iff.1 h
    obtain ⟨bs, hbs, h⟩ := Option.bind_eq_some_iff.1 h
    cases h
    exact .cons hb (ih hbs)

/-- Each call's outcome stands at its own place. -/
theorem allSettled_outcomes (h : s.allSettled n = some results) :
    List.Forall₂ (fun i x => (i, x) ∈ s.order) (List.range n) results :=
  (forall₂_of_mapM h).imp fun _ _ hlookup => (Store.lookup_eq_some_iff s.once).1 hlookup

theorem allSettled_length (h : s.allSettled n = some results) : results.length = n := by
  rw [← (allSettled_outcomes h).length_eq, List.length_range]

/-- **The order in which the calls settle does not matter.** -/
theorem allSettled_perm (h : s.order.Perm s'.order) : s.allSettled n = s'.allSettled n := by
  have hlookup (i : Nat) : List.lookup i s.order = List.lookup i s'.order := by
    ext x
    rw [Store.lookup_eq_some_iff s.once, Store.lookup_eq_some_iff s'.once, h.mem_iff]
  simp only [allSettled, hlookup]

end Settling

end Async
