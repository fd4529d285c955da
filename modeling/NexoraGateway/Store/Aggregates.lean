import Mathlib.Algebra.BigOperators.Group.List.Basic
import Mathlib.Data.List.Dedup
import Mathlib.Data.List.Forall2
import Mathlib.Data.List.Perm.Subperm
import Mathlib.Order.Lattice

/-!
# Aggregates over rows

What `SUM`, `BETWEEN` and `GROUP BY` say about the rows of a table, and when the rows of one list have rows of another
for themselves.

* `total`, `between`, `groups` — the three clauses. The sum over the groups is the sum over the rows (`total_groups`);
  two adjacent periods count what lies on their boundary twice (`total_between_split`).
* `Covers` — a one-to-one matching by key, which is a comparison of counts (`covers_iff_count`).
-/
namespace Store

section
variable {V K M T : Type} [AddCommMonoid M] {f : V → M} {rows : List V}

/-- `SUM(f)`, which `COALESCE` makes 0 for no rows. -/
def total (f : V → M) (rows : List V) : M := (rows.map f).sum

/-- `t BETWEEN lo AND hi`, both ends included. -/
def between [LE T] [DecidableLE T] (lo hi t : T) : Bool := lo ≤ t ∧ t ≤ hi

/-- `GROUP BY key`. -/
def groups [DecidableEq K] (key : V → K) (rows : List V) : List (K × List V) :=
  (rows.map key).dedup.map fun k => (k, rows.filter fun v => key v = k)

theorem mem_groups [DecidableEq K] {key : V → K} {g : K × List V} :
    g ∈ groups key rows ↔ (∃ v ∈ rows, key v = g.1) ∧ g.2 = rows.filter fun v => key v = g.1 := by
  obtain ⟨k, vs⟩ := g
  simp only [groups, List.mem_map, List.mem_dedup, Prod.mk.injEq]
  constructor
  · rintro ⟨_, hk, rfl, rfl⟩
    exact ⟨hk, rfl⟩
  · rintro ⟨hk, hvs⟩
    exact ⟨k, hk, rfl, hvs.symm⟩

@[simp] theorem total_nil : total f ([] : List V) = 0 := rfl
@[simp] theorem total_cons (v : V) (rows : List V) : total f (v :: rows) = f v + total f rows := rfl

theorem total_filter_add_not (p : V → Bool) (rows : List V) :
    total f (rows.filter p) + total f (rows.filter fun v => !p v) = total f rows := by
  have hsplit := List.sum_map_filter_add_sum_map_filter_not (fun v => p v = true) f rows
  simpa [total] using hsplit

/-- The rows of a period, with and without another condition. -/
theorem total_filter_and (p q : V → Bool) (rows : List V) :
    total f (rows.filter p) =
      total f (rows.filter fun v => p v && q v) + total f (rows.filter fun v => p v && !q v) := by
  rw [← total_filter_add_not q, List.filter_filter, List.filter_filter]
  simp only [Bool.and_comm]

theorem total_zero_of_forall (h : ∀ v ∈ rows, f v = 0) : total f rows = 0 :=
  List.sum_eq_zero (by simpa using h)

/-- A condition that leaves out nothing but rows with nothing to add. -/
theorem total_filter_of_zero {p : V → Bool} (h : ∀ v ∈ rows, p v = false → f v = 0) :
    total f (rows.filter p) = total f rows := by
  have hleft : total f (rows.filter fun v => !p v) = 0 := by
    refine total_zero_of_forall fun v hv => ?_
    obtain ⟨hmem, hp⟩ := List.mem_filter.1 hv
    exact h v hmem (by simpa using hp)
  rw [← total_filter_add_not p rows, hleft, add_zero]

theorem total_perm {rows' : List V} (h : rows.Perm rows') : total f rows = total f rows' := (h.map f).sum_eq

/-- The sum over some groups is the sum over their rows. -/
theorem total_groups_of_nodup [DecidableEq K] (key : V → K) {ks : List K} (hks : ks.Nodup) (rows : List V) :
    total (fun k => total f (rows.filter fun v => key v = k)) ks = total f (rows.filter fun v => key v ∈ ks) := by
  induction ks with
  | nil => simp [total]
  | cons k ks ih =>
    obtain ⟨hk, hks⟩ := List.nodup_cons.1 hks
    have hfirst : (rows.filter fun v => decide (key v ∈ k :: ks)).filter (fun v => decide (key v = k)) =
        rows.filter fun v => key v = k := by
      rw [List.filter_filter]
      refine List.filter_congr fun v _ => ?_
      by_cases hv : key v = k <;> simp [hv]
    have hrest : (rows.filter fun v => decide (key v ∈ k :: ks)).filter (fun v => !decide (key v = k)) =
        rows.filter fun v => key v ∈ ks := by
      rw [List.filter_filter]
      refine List.filter_congr fun v _ => ?_
      by_cases hv : key v = k
      · simp [hv, hk]
      · simp [hv]
    have hsplit := total_filter_add_not (f := f) (fun v => decide (key v = k))
      (rows.filter fun v => decide (key v ∈ k :: ks))
    rw [← hsplit, hfirst, hrest, ← ih hks]
    rfl

/-- **The groups make up the whole.** -/
theorem total_groups [DecidableEq K] (key : V → K) (rows : List V) :
    total (fun g => total f g.2) (groups key rows) = total f rows := by
  have hall : (rows.filter fun v => decide (key v ∈ (rows.map key).dedup)) = rows :=
    List.filter_eq_self.2 fun v hv => decide_eq_true (List.mem_dedup.2 (List.mem_map_of_mem hv))
  have hsum := total_groups_of_nodup (f := f) key (List.nodup_dedup (rows.map key)) rows
  rw [hall] at hsum
  rw [← hsum, total, groups, List.map_map]
  rfl

/-- Two adjacent periods make up the whole one and what lies on their boundary. -/
theorem total_between_split [LinearOrder T] (stamp : V → T) {lo mid hi : T} (hlo : lo ≤ mid) (hhi : mid ≤ hi) :
    total f (rows.filter fun v => between lo hi (stamp v)) + total f (rows.filter fun v => stamp v = mid) =
      total f (rows.filter fun v => between lo mid (stamp v)) +
        total f (rows.filter fun v => between mid hi (stamp v)) := by
  induction rows with
  | nil => simp [total]
  | cons v rows ih =>
    have hcons (p : V → Bool) :
        total f ((v :: rows).filter p) = (if p v then f v else 0) + total f (rows.filter p) := by
      by_cases hv : p v = true
      · rw [List.filter_cons_of_pos hv, if_pos hv]
        rfl
      · rw [List.filter_cons_of_neg hv, if_neg hv, zero_add]
    have hv : (if between lo hi (stamp v) then f v else 0) + (if stamp v = mid then f v else 0) =
        (if between lo mid (stamp v) then f v else 0) + (if between mid hi (stamp v) then f v else 0) := by
      simp only [between, decide_eq_true_eq]
      rcases lt_trichotomy (stamp v) mid with hlt | heq | hgt
      · simp [hlt.le, hlt.ne, hlt.not_ge, hlt.le.trans hhi]
      · simp [heq, hlo, hhi]
      · simp [hgt.le, hgt.ne', hgt.not_ge, hlo.trans hgt.le]
    simp only [hcons, decide_eq_true_eq]
    rw [add_add_add_comm, hv, ih, add_add_add_comm]

end

/-- Sums of adjacent periods add up exactly if what lies on the boundary sums up to nothing. -/
theorem total_between_additive_iff {V M T : Type} [AddCommGroup M] [LinearOrder T] {f : V → M} (stamp : V → T)
    (rows : List V) {lo mid hi : T} (hlo : lo ≤ mid) (hhi : mid ≤ hi) :
    total f (rows.filter fun v => between lo hi (stamp v)) =
      total f (rows.filter fun v => between lo mid (stamp v)) +
        total f (rows.filter fun v => between mid hi (stamp v)) ↔
    total f (rows.filter fun v => stamp v = mid) = 0 := by
  rw [← total_between_split stamp hlo hhi, eq_comm, add_eq_left]

/-! ## Rows that have a row for themselves -/

section
variable {X Y K : Type} (key : X → K) (key' : Y → K)

/-- Every one of `xs` has a row of `ys` with its key for itself. -/
def Covers (xs : List X) (ys : List Y) : Prop :=
  ∃ zs, List.Subperm zs ys ∧ List.Forall₂ (fun x z => key x = key' z) xs zs

variable {key key'} {xs : List X} {ys : List Y}

theorem forall₂_key_iff : List.Forall₂ (fun x y => key x = key' y) xs ys ↔ xs.map key = ys.map key' := by
  rw [← List.forall₂_eq_eq_eq, List.forall₂_map_left_iff, List.forall₂_map_right_iff]

/-- A permutation of the keys is one of the rows. -/
theorem exists_map_eq_of_perm {ks : List K} (h : ks.Perm (ys.map key')) :
    ∃ zs : List Y, zs.Perm ys ∧ zs.map key' = ks := by
  induction ks generalizing ys with
  | nil => exact ⟨[], by simpa using h.symm, rfl⟩
  | cons k ks ih =>
    obtain ⟨y, hy, rfl⟩ := List.mem_map.1 (h.subset List.mem_cons_self)
    obtain ⟨before, behind, rfl⟩ := List.append_of_mem hy
    have hmiddle : (before ++ y :: behind).Perm (y :: (before ++ behind)) := List.perm_middle
    obtain ⟨zs, hperm, rfl⟩ := ih ((List.perm_cons _).1 (h.trans (hmiddle.map key')))
    exact ⟨y :: zs, (hperm.cons y).trans hmiddle.symm, rfl⟩

/-- **One for each** is a comparison of counts. -/
theorem covers_iff_count [DecidableEq K] :
    Covers key key' xs ys ↔ ∀ k, (xs.countP fun x => key x = k) ≤ ys.countP fun y => key' y = k := by
  have hcount {V : Type} (f : V → K) (vs : List V) (k : K) : (vs.countP fun v => f v = k) = (vs.map f).count k := by
    rw [List.count_eq_countP, List.countP_map]
    exact List.countP_congr fun v _ => by simp
  simp only [hcount]
  constructor
  · rintro ⟨zs, ⟨ws, hperm, hsub⟩, hzs⟩ k
    have hkeys : List.Subperm (zs.map key') (ys.map key') := ⟨ws.map key', hperm.map key', hsub.map key'⟩
    rw [forall₂_key_iff.1 hzs]
    exact hkeys.count_le k
  · intro h
    obtain ⟨ks, hperm, hsub⟩ := List.subperm_ext_iff.2 fun k _ => h k
    obtain ⟨ws, hws, rfl⟩ := List.sublist_map_iff.1 hsub
    obtain ⟨zs, hzs, hkeys⟩ := exists_map_eq_of_perm hperm.symm
    exact ⟨zs, hzs.subperm.trans hws.subperm, forall₂_key_iff.2 hkeys.symm⟩

end

end Store
