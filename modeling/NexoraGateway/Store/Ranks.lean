import Mathlib.Data.List.Sort

/-!
# What stands at a place of a sorted list

`sort(compare)[k]`, by counting: in a sorted list the elements with a property that passes to what is smaller come
first, so place `k` has the property just when more than `k` elements do (`getElem_iff_lt_countP`).

* `getElem_of_countP` — a set that is a lower part meeting an upper part holds place `k` when it has elements enough.
* `getElem_of_majority` — the middle place belongs to every such set that has more than half of the elements.
* `sorted_unique` — what is sorted by a key does not depend on the order of the elements.
* `sort_unique_iff` — when it does not depend on what a sort does with equal keys either.
-/
namespace Store

variable {α β : Type} {r : α → α → Prop} {l sorted : List α} {p q : α → Bool} {k : Nat}

/-- **The elements with a property that passes to the smaller fill the first places.** -/
theorem getElem_iff_lt_countP (hsorted : sorted.Pairwise r) (hdown : ∀ a b, r a b → p b = true → p a = true)
    (hk : k < sorted.length) : p sorted[k] = true ↔ k < sorted.countP p := by
  induction sorted generalizing k with
  | nil => exact absurd hk (Nat.not_lt_zero k)
  | cons a l ih =>
    obtain ⟨hhead, htail⟩ := List.pairwise_cons.1 hsorted
    by_cases ha : p a = true
    · rw [List.countP_cons_of_pos ha]
      cases k with
      | zero => simp [ha]
      | succ k =>
        rw [List.getElem_cons_succ, ih htail (by simpa using hk)]
        omega
    · -- Behind an element without the property none has it.
      have hnone (b : α) (hb : b ∈ l) : ¬p b = true := fun hpb => ha (hdown a b (hhead b hb) hpb)
      rw [List.countP_cons_of_neg ha, List.countP_eq_zero.2 hnone]
      refine iff_of_false ?_ (Nat.not_lt_zero k)
      cases k with
      | zero => exact ha
      | succ k =>
        rw [List.getElem_cons_succ]
        exact hnone _ (List.getElem_mem _)

/-- The elements with a property that passes to the greater fill the last places. -/
theorem getElem_iff_length_le (hsorted : sorted.Pairwise r) (hup : ∀ a b, r a b → p a = true → p b = true)
    (hk : k < sorted.length) : p sorted[k] = true ↔ sorted.length ≤ k + sorted.countP p := by
  have hdown (a b : α) (hab : r a b) (hb : (!p b) = true) : (!p a) = true := by
    rw [Bool.not_eq_true'] at hb ⊢
    exact Bool.eq_false_iff.2 fun ha => Bool.eq_false_iff.1 hb (hup a b hab ha)
  have hplace := getElem_iff_lt_countP hsorted (p := fun a => !p a) hdown hk
  have hcount : sorted.length = sorted.countP p + sorted.countP fun a => !p a := by
    simpa using List.length_eq_countP_add_countP p (l := sorted)
  rw [Bool.not_eq_true'] at hplace
  rw [← Bool.not_eq_false, hplace]
  omega

theorem getElem_of_countP (hperm : sorted.Perm l) (hsorted : sorted.Pairwise r)
    (hdown : ∀ a b, r a b → p b = true → p a = true) (hup : ∀ a b, r a b → q a = true → q b = true)
    (hlt : k < l.countP fun a => p a && q a) (hle : l.length ≤ k + l.countP fun a => p a && q a)
    (hk : k < sorted.length) : p sorted[k] = true ∧ q sorted[k] = true := by
  have hp : (l.countP fun a => p a && q a) ≤ sorted.countP p := by
    rw [hperm.countP_eq]
    exact List.countP_mono_left fun a _ h => (Bool.and_eq_true_iff.1 h).1
  have hq : (l.countP fun a => p a && q a) ≤ sorted.countP q := by
    rw [hperm.countP_eq]
    exact List.countP_mono_left fun a _ h => (Bool.and_eq_true_iff.1 h).2
  have hlength := hperm.length_eq
  exact ⟨(getElem_iff_lt_countP hsorted hdown hk).2 (by omega), (getElem_iff_length_le hsorted hup hk).2 (by omega)⟩

/-- **More than half of the elements hold the middle place.** -/
theorem getElem_of_majority (hperm : sorted.Perm l) (hsorted : sorted.Pairwise r)
    (hdown : ∀ a b, r a b → p b = true → p a = true) (hup : ∀ a b, r a b → q a = true → q b = true)
    (hmajority : l.length < 2 * l.countP fun a => p a && q a) (hk : sorted.length / 2 < sorted.length) :
    p sorted[sorted.length / 2] = true ∧ q sorted[sorted.length / 2] = true := by
  have hlength := hperm.length_eq
  refine getElem_of_countP hperm hsorted hdown hup ?_ ?_ hk <;> omega

/-- The sort of given elements is one list when the key tells them apart. -/
theorem sorted_unique [LinearOrder β] {key : α → β} {l' sorted' : List α}
    (hkey : ∀ a ∈ l, ∀ b ∈ l, key a = key b → a = b) (hperm : l.Perm l')
    (hsort : sorted.Perm l) (hsorted : sorted.Pairwise fun a b => key a ≤ key b)
    (hsort' : sorted'.Perm l') (hsorted' : sorted'.Pairwise fun a b => key a ≤ key b) : sorted = sorted' := by
  refine List.Perm.eq_of_pairwise ?_ hsorted hsorted' ((hsort.trans hperm).trans hsort'.symm)
  intro a b ha hb hab hba
  exact hkey a (hsort.mem_iff.1 ha) b (hperm.mem_iff.2 (hsort'.mem_iff.1 hb)) (le_antisymm hab hba)

/-- **A list is the one way to sort its elements just when no two have the same key and it is sorted.** -/
theorem sort_unique_iff [LinearOrder β] {key : α → β} (hnodup : l.Nodup) :
    (∀ l', l'.Perm l → (l'.Pairwise fun a b => key a ≤ key b) → l' = l) ↔ l.Pairwise fun a b => key a < key b := by
  constructor
  · intro h
    have hsorted : l.Pairwise fun a b => key a ≤ key b := by
      rw [← h _ (List.perm_insertionSort (fun a b => key a ≤ key b) l) (List.pairwise_insertionSort _ l)]
      exact List.pairwise_insertionSort _ l
    induction l with
    | nil => exact .nil
    | cons a l ih =>
      obtain ⟨ha, hl⟩ := List.nodup_cons.1 hnodup
      obtain ⟨hle, htail⟩ := List.pairwise_cons.1 hsorted
      refine List.pairwise_cons.2 ⟨fun b hb => (hle b hb).lt_of_ne fun heq => ?_, ih hl (fun l' hperm hl' => ?_) htail⟩
      · -- An element with the key of the first could come first itself.
        obtain ⟨pre, post, rfl⟩ := List.append_of_mem hb
        have hswap : (b :: a :: (pre ++ post)).Perm (a :: (pre ++ b :: post)) :=
          (List.Perm.swap a b _).trans (List.perm_middle.symm.cons a)
        have hrest : (pre ++ post).Pairwise fun a b => key a ≤ key b :=
          htail.sublist ((List.sublist_cons_self b post).append_left pre)
        have hfirst (c : α) (hc : c ∈ pre ++ post) : key a ≤ key c :=
          hle c (((List.sublist_cons_self b post).append_left pre).subset hc)
        have hsame := h _ hswap (List.pairwise_cons.2 ⟨fun c hc => ?_, List.pairwise_cons.2 ⟨hfirst, hrest⟩⟩)
        · obtain rfl := (List.cons.inj hsame).1
          exact ha hb
        · rcases List.mem_cons.1 hc with rfl | hc
          · exact heq.ge
          · exact heq.ge.trans (hfirst c hc)
      · have hcons := h (a :: l') (hperm.cons a) (List.pairwise_cons.2 ⟨fun b hb => hle b (hperm.subset hb), hl'⟩)
        exact (List.cons.inj hcons).2
  · intro hl l' hperm hl'
    have hkey : ∀ a ∈ l, ∀ b ∈ l, key a = key b → a = b :=
      List.inj_on_of_nodup_map (List.pairwise_map.2 (hl.imp fun hab => hab.ne))
    exact (sorted_unique hkey (List.Perm.refl l) (List.Perm.refl l) (hl.imp fun hab => hab.le) hperm hl').symm

end Store
