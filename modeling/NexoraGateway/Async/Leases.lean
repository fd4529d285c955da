import Mathlib.Data.List.Basic

/-!
# Leases

What at most one task may work on at a time, and spend at most once in all. A task holds a lease on a key, with or
without the permit to spend it; `Exclusive held spent gs` relates the leases `gs` of the tasks to what the store says
is held and how often a key was spent. There is one rule for each thing a task can do: `take`, `spend`, `release`, and
`drop` when it forgets its lease.
-/
namespace Async

structure Lease (K : Type) where
  key : K
  permit : Bool
  deriving DecidableEq

namespace Lease

variable {K : Type} [DecidableEq K]

def holders (gs : List (Option (Lease K))) (k : K) : Nat := gs.countP fun g => g.any fun l => l.key = k

def permits (gs : List (Option (Lease K))) (k : K) : Nat := gs.countP fun g => g.any fun l => l.key = k && l.permit

/-- A key has at most one holder, and none that is not held; it was spent once, or may still be, or neither. -/
structure Exclusive (held : K → Prop) (spent : K → Nat) (gs : List (Option (Lease K))) : Prop where
  single : ∀ k, holders gs k ≤ 1
  held : ∀ k, 0 < holders gs k → held k
  once : ∀ k, spent k + permits gs k ≤ 1

variable {held held' : K → Prop} {spent spent' : K → Nat} {gs gs₁ gs₂ : List (Option (Lease K))} {g : Option (Lease K)}
  {k : K} {b : Bool}

theorem holders_focus (k : K) : holders (gs₁ ++ g :: gs₂) k = holders (gs₁ ++ gs₂) k + holders [g] k := by
  simp only [holders, List.countP_append, List.countP_cons, List.countP_nil]
  omega

theorem permits_focus (k : K) : permits (gs₁ ++ g :: gs₂) k = permits (gs₁ ++ gs₂) k + permits [g] k := by
  simp only [permits, List.countP_append, List.countP_cons, List.countP_nil]
  omega

theorem permits_le_holders (k : K) : permits gs k ≤ holders gs k := by
  refine List.countP_mono_left fun g _ hg => ?_
  obtain ⟨l, hl, hboth⟩ := (Option.any_eq_true _ _).1 hg
  exact (Option.any_eq_true _ _).2 ⟨l, hl, (Bool.and_eq_true _ _ ▸ hboth).1⟩

@[simp] theorem holders_none (k : K) : holders [none] k = 0 := rfl
@[simp] theorem permits_none (k : K) : permits [none] k = 0 := rfl
@[simp] theorem holders_self : holders [some ⟨k, b⟩] k = 1 := by simp [holders]

theorem holders_of_ne {j : K} (h : j ≠ k) : holders [some ⟨k, b⟩] j = 0 := by simp [holders, h.symm]

theorem permits_self : permits [some ⟨k, b⟩] k = if b then 1 else 0 := by simp [permits, List.countP_cons]

theorem permits_of_ne {j : K} (h : j ≠ k) : permits [some ⟨k, b⟩] j = 0 := by simp [permits, h.symm]

namespace Exclusive

theorem nil (h : ∀ k, spent k ≤ 1) : Exclusive held spent [] where
  single _ := Nat.zero_le 1
  held _ hpos := absurd hpos (Nat.lt_irrefl 0)
  once := h

/-- What a task holds is held. -/
theorem held_of_lease (h : Exclusive held spent (gs₁ ++ some ⟨k, b⟩ :: gs₂)) : held k := by
  refine h.held k ?_
  rw [holders_focus, holders_self]
  omega

/-- A new task holds nothing. -/
theorem grow (h : Exclusive held spent gs) : Exclusive held spent (gs ++ [none]) where
  single k := by rw [holders_focus, List.append_nil]; exact h.single k
  held k hpos := by rw [holders_focus, List.append_nil] at hpos; exact h.held k hpos
  once k := by rw [permits_focus, List.append_nil]; exact h.once k

theorem mono (h : Exclusive held spent gs) (hheld : ∀ k, held k → held' k) (hspent : ∀ k, spent' k ≤ spent k) :
    Exclusive held' spent' gs where
  single := h.single
  held k hpos := hheld k (h.held k hpos)
  once k := Nat.le_trans (Nat.add_le_add_right (hspent k) _) (h.once k)

/-- A lease is forgotten. -/
theorem drop (h : Exclusive held spent (gs₁ ++ g :: gs₂)) : Exclusive held spent (gs₁ ++ none :: gs₂) where
  single k := by
    have hbound := h.single k
    rw [holders_focus] at hbound
    rw [holders_focus, holders_none]
    omega
  held k hpos := by
    rw [holders_focus, holders_none] at hpos
    refine h.held k ?_
    rw [holders_focus]
    omega
  once k := by
    have hbound := h.once k
    rw [permits_focus] at hbound
    rw [permits_focus, permits_none]
    omega

/-- What nobody holds is taken, with the permit only if it was never spent. -/
theorem take (h : Exclusive held spent (gs₁ ++ g :: gs₂)) (hfree : ¬ held k) (hk : held' k)
    (hheld : ∀ j, held j → held' j) (hspent : b = true → spent k = 0) :
    Exclusive held' spent (gs₁ ++ some ⟨k, b⟩ :: gs₂) := by
  have hrest := h.drop
  have hnone : holders (gs₁ ++ gs₂) k = 0 := by
    have hzero := mt (hrest.held k) hfree
    rw [holders_focus, holders_none] at hzero
    omega
  have hpermits : permits (gs₁ ++ gs₂) k ≤ holders (gs₁ ++ gs₂) k := permits_le_holders k
  refine ⟨fun j => ?_, fun j hpos => ?_, fun j => ?_⟩
  · rw [holders_focus]
    by_cases hj : j = k
    · subst hj
      exact Nat.le_of_eq (by rw [holders_self, hnone])
    · rw [holders_of_ne hj, ← holders_none j, ← holders_focus]
      exact hrest.single j
  · by_cases hj : j = k
    · exact hj ▸ hk
    · rw [holders_focus, holders_of_ne hj, ← holders_none j, ← holders_focus] at hpos
      exact hheld j (hrest.held j hpos)
  · rw [permits_focus]
    by_cases hj : j = k
    · subst hj
      rw [permits_self]
      split
      · rename_i hb
        have := hspent hb
        omega
      · have := h.once j
        rw [permits_focus] at this
        omega
    · rw [permits_of_ne hj, ← permits_none j, ← permits_focus]
      exact hrest.once j

/-- The holder gives a key back, whatever becomes of it. -/
theorem release (h : Exclusive held spent (gs₁ ++ some ⟨k, b⟩ :: gs₂)) (hheld : ∀ j, j ≠ k → held j → held' j) :
    Exclusive held' spent (gs₁ ++ none :: gs₂) := by
  refine ⟨h.drop.single, fun j hpos => ?_, h.drop.once⟩
  refine hheld j ?_ (h.drop.held j hpos)
  rintro rfl
  have := h.single j
  rw [holders_focus, holders_self] at this
  rw [holders_focus, holders_none] at hpos
  omega

/-- The holder spends a key with its permit. -/
theorem spend (h : Exclusive held spent (gs₁ ++ some ⟨k, true⟩ :: gs₂))
    (hspent : ∀ j, spent' j ≤ spent j + if j = k then 1 else 0) :
    Exclusive held spent' (gs₁ ++ some ⟨k, false⟩ :: gs₂) := by
  have hholders (j : K) : holders [some ⟨k, false⟩] j = holders [some ⟨k, true⟩] j := rfl
  refine ⟨fun j => ?_, fun j hpos => ?_, fun j => ?_⟩
  · rw [holders_focus, hholders, ← holders_focus]
    exact h.single j
  · rw [holders_focus, hholders, ← holders_focus] at hpos
    exact h.held j hpos
  · have honce := h.once j
    have hj := hspent j
    rw [permits_focus] at honce ⊢
    by_cases hjk : j = k
    · subst hjk
      rw [permits_self, if_pos rfl] at honce
      rw [permits_self, if_neg Bool.false_ne_true]
      rw [if_pos rfl] at hj
      omega
    · rw [permits_of_ne hjk] at honce ⊢
      rw [if_neg hjk] at hj
      omega

end Exclusive

end Lease

end Async
