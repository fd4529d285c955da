import Mathlib.Data.List.Dedup
import Mathlib.Data.List.Sort

/-!
# `ORDER BY key DESC LIMIT 1`, `COUNT(DISTINCT f)`

A stable descending sort puts first the earliest of the greatest elements.

* `Leads` — the element is that one.
* `head?_insertionSort_iff` — the sort finds it.
* `length_eq_dedup_iff` — when counting rows counts their distinct values.
-/
namespace Store

variable {α : Type} {key : α → Int}

/-- The element exceeds all before it in the list and is exceeded by nothing behind it. -/
def Leads (key : α → Int) (l : List α) (a : α) : Prop :=
  ∃ before after, l = before ++ a :: after ∧ (∀ b ∈ before, key b < key a) ∧ ∀ b ∈ after, key b ≤ key a

theorem Leads.mem {l : List α} {a : α} (h : Leads key l a) : a ∈ l := by
  obtain ⟨before, after, rfl, -⟩ := h
  exact List.mem_append_right before List.mem_cons_self

theorem Leads.le {l : List α} {a : α} (h : Leads key l a) : ∀ b ∈ l, key b ≤ key a := by
  obtain ⟨before, after, rfl, hbefore, hafter⟩ := h
  intro b hb
  rcases List.mem_append.1 hb with hb | hb
  · exact (hbefore b hb).le
  · rcases List.mem_cons.1 hb with rfl | hb
    · exact le_rfl
    · exact hafter b hb

theorem leads_cons {c : α} {l : List α} {a : α} :
    Leads key (c :: l) a ↔ (a = c ∧ ∀ b ∈ l, key b ≤ key c) ∨ (key c < key a ∧ Leads key l a) := by
  constructor
  · rintro ⟨before, after, hl, hbefore, hafter⟩
    cases before with
    | nil =>
      obtain ⟨rfl, rfl⟩ := List.cons.inj hl
      exact .inl ⟨rfl, hafter⟩
    | cons c' before =>
      obtain ⟨rfl, rfl⟩ := List.cons.inj hl
      exact .inr ⟨hbefore c List.mem_cons_self, before, after, rfl,
        fun b hb => hbefore b (List.mem_cons_of_mem c hb), hafter⟩
  · rintro (⟨rfl, hle⟩ | ⟨hlt, before, after, rfl, hbefore, hafter⟩)
    · exact ⟨[], l, rfl, fun b hb => absurd hb List.not_mem_nil, hle⟩
    · refine ⟨c :: before, after, rfl, fun b hb => ?_, hafter⟩
      rcases List.mem_cons.1 hb with rfl | hb
      · exact hlt
      · exact hbefore b hb

/-- What a descending sort puts first. -/
theorem head?_insertionSort_iff {l : List α} {a : α} :
    (l.insertionSort fun a b => key b ≤ key a).head? = some a ↔ Leads key l a := by
  induction l generalizing a with
  | nil => simp [Leads]
  | cons c l ih =>
    rw [List.insertionSort_cons, leads_cons, ← ih]
    cases hsorted : l.insertionSort fun a b => key b ≤ key a with
    | nil =>
      have hnil : l = [] := by simpa using congrArg List.length hsorted
      simp [hnil, eq_comm]
    | cons b sorted =>
      have hleads : Leads key l b := ih.1 (by rw [hsorted]; rfl)
      have hle : key b ≤ key c ↔ ∀ x ∈ l, key x ≤ key c :=
        ⟨fun h x hx => (hleads.le x hx).trans h, fun h => h b hleads.mem⟩
      simp only [List.orderedInsert_cons, List.head?_cons, Option.some.injEq, ← hle]
      by_cases h : key b ≤ key c
      · rw [if_pos h, List.head?_cons, Option.some.injEq]
        simp only [h, and_true]
        constructor
        · exact fun hca => .inl hca.symm
        · rintro (hac | ⟨hlt, rfl⟩)
          · exact hac.symm
          · omega
      · rw [if_neg h, List.head?_cons, Option.some.injEq]
        simp only [h, and_false, false_or]
        constructor
        · rintro rfl
          exact ⟨by omega, rfl⟩
        · exact fun hba => hba.2

/-- A list is as long as the distinct values of those of its elements that pass a test, just when all pass it and
no value comes twice. -/
theorem length_eq_dedup_iff {β : Type} [DecidableEq β] {l : List α} {p : α → Bool} {f : α → β} :
    l.length = ((l.filter p).map f).dedup.length ↔ (l.map f).Nodup ∧ ∀ x ∈ l, p x = true := by
  constructor
  · intro h
    have hdedup := (List.dedup_sublist ((l.filter p).map f)).length_le
    have hfilter := (List.filter_sublist (p := p) (l := l)).length_le
    rw [List.length_map] at hdedup
    have hall : ∀ x ∈ l, p x = true := List.length_filter_eq_length_iff.1 (by omega)
    refine ⟨?_, hall⟩
    rw [List.filter_eq_self.2 hall] at h
    have hself := (List.dedup_sublist (l.map f)).eq_of_length (by rw [← h, List.length_map])
    exact List.dedup_eq_self.1 hself
  · rintro ⟨hnodup, hall⟩
    rw [List.filter_eq_self.2 hall, List.dedup_eq_self.2 hnodup, List.length_map]

end Store
