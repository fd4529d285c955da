import Mathlib.Data.List.Sort

/-!
# What a stable sort keeps

`sortBy key` leaves elements with one key in the order they had.

* `sortBy_pairwise_iff` — a relation between such elements, earlier to later, holds after the sort just when it did.
* `resort_eq_iff` — when sorting by another key, and then by the first again, changes nothing.
* `lookup_eq_some_iff` — what is found by name does not depend on the order, where each name stands once.
-/
namespace Store

variable {α β γ κ ν : Type} [LinearOrder β] [LinearOrder γ] {key : α → β} {other : α → γ} {l l' : List α}

def sortBy (key : α → β) (l : List α) : List α := l.insertionSort fun a b => key a ≤ key b

theorem sortBy_perm : (sortBy key l).Perm l := List.perm_insertionSort _ l

@[simp] theorem mem_sortBy {a : α} : a ∈ sortBy key l ↔ a ∈ l := sortBy_perm.mem_iff

theorem sortBy_sorted : (sortBy key l).Pairwise fun a b => key a ≤ key b :=
  List.pairwise_insertionSort (fun a b : α => key a ≤ key b) l

theorem sortBy_eq_self (h : l.Pairwise fun a b => key a ≤ key b) : sortBy key l = l := h.insertionSort_eq

theorem map_sortBy {f : α → κ} {key' : κ → β} (h : ∀ a, key' (f a) = key a) :
    (sortBy key l).map f = sortBy key' (l.map f) :=
  List.map_insertionSort _ _ f l fun a _ b _ => by rw [h, h]

theorem orderedInsert_append {a : α} (h : ∀ b ∈ l', key a ≤ key b) :
    (l ++ l').orderedInsert (fun a b => key a ≤ key b) a = l.orderedInsert (fun a b => key a ≤ key b) a ++ l' := by
  induction l with
  | nil =>
    cases l' with
    | nil => rfl
    | cons b l' => exact if_pos (h b List.mem_cons_self)
  | cons c l ih =>
    simp only [List.cons_append, List.orderedInsert_cons]
    split
    · rfl
    · rw [ih, List.cons_append]

/-- Two lists of which the second comes after the first are sorted one after the other. -/
theorem sortBy_append (h : ∀ a ∈ l, ∀ b ∈ l', key a ≤ key b) :
    sortBy key (l ++ l') = sortBy key l ++ sortBy key l' := by
  induction l with
  | nil => rfl
  | cons a l ih =>
    have hrest := ih fun a ha => h a (List.mem_cons_of_mem _ ha)
    change (sortBy key (l ++ l')).orderedInsert _ a = (sortBy key l).orderedInsert _ a ++ sortBy key l'
    rw [hrest, orderedInsert_append fun b hb => h a List.mem_cons_self b (mem_sortBy.1 hb)]

/-- Where each key stands once, the order of the list does not matter. -/
theorem sortBy_eq_of_perm (hperm : l.Perm l') (hnodup : (l.map key).Nodup) : sortBy key l = sortBy key l' := by
  refine List.Perm.eq_of_pairwise (fun a b ha hb hab hba => ?_) sortBy_sorted sortBy_sorted
    ((sortBy_perm.trans hperm).trans sortBy_perm.symm)
  have hb' : b ∈ l := hperm.mem_iff.2 (mem_sortBy.1 hb)
  exact List.inj_on_of_nodup_map hnodup (mem_sortBy.1 ha) hb' (le_antisymm hab hba)

/-- An element is put in front of those with its key, past those with smaller ones. -/
theorem orderedInsert_pairwise_iff {C : α → α → Prop} (hC : ∀ a b, key a ≠ key b → C a b) (a : α) :
    (l.orderedInsert (fun a b => key a ≤ key b) a).Pairwise C ↔ (a :: l).Pairwise C := by
  induction l with
  | nil => exact Iff.rfl
  | cons b l ih =>
    rw [List.orderedInsert_cons]
    split
    · exact Iff.rfl
    · rename_i hle
      have hlt := not_le.1 hle
      simp only [List.pairwise_cons, List.mem_orderedInsert, ih, List.mem_cons, forall_eq_or_imp]
      constructor
      · rintro ⟨⟨-, hb⟩, ha, hl⟩
        exact ⟨⟨hC a b hlt.ne', ha⟩, hb, hl⟩
      · rintro ⟨⟨-, ha⟩, hb, hl⟩
        exact ⟨⟨hC b a hlt.ne, hb⟩, ha, hl⟩

/-- **A stable sort keeps the elements with one key in order.** -/
theorem sortBy_pairwise_iff {C : α → α → Prop} (hC : ∀ a b, key a ≠ key b → C a b) :
    (sortBy key l).Pairwise C ↔ l.Pairwise C := by
  induction l with
  | nil => exact Iff.rfl
  | cons a l ih =>
    change ((sortBy key l).orderedInsert _ a).Pairwise C ↔ _
    rw [orderedInsert_pairwise_iff hC, List.pairwise_cons, List.pairwise_cons, ih]
    simp only [mem_sortBy]

/-- **Two sorts are undone by the first** just when the elements with one key for it were sorted by the other. -/
theorem resort_eq_iff (hother : ∀ a ∈ l, ∀ b ∈ l, other a = other b → a = b) :
    sortBy key (sortBy other (sortBy key l)) = sortBy key l ↔
      l.Pairwise fun a b => key a = key b → other a ≤ other b := by
  have hstable (l' : List α) : (sortBy key l').Pairwise (fun a b => key a = key b → other a ≤ other b) ↔
      l'.Pairwise fun a b => key a = key b → other a ≤ other b :=
    sortBy_pairwise_iff fun a b hne heq => absurd heq hne
  have hsorted : (sortBy other (sortBy key l)).Pairwise fun a b => other a ≤ other b := sortBy_sorted
  have hkept : (sortBy other (sortBy key l)).Pairwise fun a b => key a = key b → other a ≤ other b := by
    refine hsorted.imp ?_
    intro a b hab _
    exact hab
  have hresorted := (hstable _).2 hkept
  constructor
  · intro h
    rw [h] at hresorted
    exact (hstable l).1 hresorted
  · intro h
    have hperm : (sortBy key (sortBy other (sortBy key l))).Perm (sortBy key l) := sortBy_perm.trans sortBy_perm
    refine List.Perm.eq_of_pairwise (fun a b ha hb hab hba => ?_) (sortBy_sorted.and hresorted)
      (sortBy_sorted.and ((hstable l).2 h)) hperm
    have heq : key a = key b := le_antisymm hab.1 hba.1
    rw [hperm.mem_iff, mem_sortBy] at ha
    exact hother a ha b (mem_sortBy.1 hb) (le_antisymm (hab.2 heq) (hba.2 heq.symm))

theorem lookup_eq_some_iff [DecidableEq κ] {members : List (κ × ν)} (hnodup : (members.map Prod.fst).Nodup) {k : κ}
    {v : ν} : members.lookup k = some v ↔ (k, v) ∈ members := by
  induction members with
  | nil => simp
  | cons m members ih =>
    obtain ⟨k', v'⟩ := m
    obtain ⟨hk', htail⟩ := List.nodup_cons.1 hnodup
    rw [List.lookup_cons, List.mem_cons, Prod.mk.injEq]
    by_cases hk : k = k'
    · subst hk
      have hout : (k, v) ∉ members := fun h => hk' (by simpa using List.mem_map_of_mem (f := Prod.fst) h)
      simp [hout, eq_comm]
    · rw [beq_false_of_ne hk]
      simp only [hk, false_and, false_or]
      exact ih htail

end Store
