import Mathlib.Data.List.Nodup

/-!
# Tables with a unique key

The rows of a relational table in insertion order, no two of them with the same `key`. `insert?`
refuses a taken key, as a unique index does; `updateWhere` is an `UPDATE … SET … WHERE p` that does
not write the key.
-/
namespace Store

structure Table {K V : Type} (key : V → K) where
  rows : List V
  nodup : (rows.map key).Nodup

/-- The first of those that match passes a test just when everyone that does not stands behind one that does. -/
theorem find?_sound_iff {V : Type} {rows : List V} {p : V → Bool} {q : V → Prop} :
    (∀ v ∈ rows.find? p, q v) ↔ ∀ before v behind, rows = before ++ v :: behind → p v = true → ¬ q v →
      ∃ u ∈ before, p u = true ∧ q u := by
  constructor
  · rintro h before v behind rfl hpv hqv
    rw [List.find?_append, List.find?_cons_of_pos hpv] at h
    cases hfind : before.find? p with
    | none => exact absurd (h v (by simp [hfind])) hqv
    | some u => exact ⟨u, List.mem_of_find?_eq_some hfind, List.find?_some hfind, h u (by simp [hfind])⟩
  · intro h v hv
    obtain ⟨hpv, before, behind, hrows, hbefore⟩ := List.find?_eq_some_iff_append.1 hv
    by_contra hqv
    obtain ⟨u, hu, hpu, -⟩ := h before v behind hrows hpv hqv
    simpa [hpu] using hbefore u hu

namespace Table
variable {K V : Type} {key : V → K}

def empty : Table key := ⟨[], .nil⟩

/-- `UPDATE … SET f WHERE p`. -/
def updateWhere (t : Table key) (p : V → Bool) (f : V → V) (hf : ∀ v, key (f v) = key v) : Table key :=
  ⟨t.rows.map fun v => if p v then f v else v, by
    have hkey : (key ∘ fun v => if p v then f v else v) = key := by
      funext v
      by_cases hp : p v <;> simp [hp, hf]
    rw [List.map_map, hkey]
    exact t.nodup⟩

/-- The rows that `UPDATE … SET f WHERE p RETURNING *` answers. -/
def returning (t : Table key) (p : V → Bool) (f : V → V) : List V := (t.rows.filter p).map f

theorem mem_updateWhere {t : Table key} {p : V → Bool} {f : V → V} {hf : ∀ v, key (f v) = key v}
    {v : V} : v ∈ (t.updateWhere p f hf).rows ↔ ∃ u ∈ t.rows, (if p u then f u else u) = v := by
  simp [updateWhere]

theorem map_updateWhere {W : Type} {t : Table key} {p : V → Bool} {f : V → V} {hf : ∀ v, key (f v) = key v}
    {g : V → W} (hg : ∀ v, g (f v) = g v) : (t.updateWhere p f hf).rows.map g = t.rows.map g := by
  have hsame : (g ∘ fun v => if p v then f v else v) = g := by
    funext v
    by_cases hp : p v <;> simp [hp, hg]
  rw [updateWhere, List.map_map, hsame]

/-- An `UPDATE` that does not write what a `SELECT` looks at changes none of what it answers but the updated rows. -/
theorem filter_updateWhere {t : Table key} {p q : V → Bool} {f : V → V} {hf : ∀ v, key (f v) = key v}
    (hq : ∀ v, q (f v) = q v) :
    (t.updateWhere p f hf).rows.filter q = (t.rows.filter q).map fun v => if p v then f v else v := by
  have hsame : (q ∘ fun v => if p v then f v else v) = q := by
    funext v
    by_cases hp : p v <;> simp [hp, hq]
  rw [updateWhere, List.filter_map, hsame]

theorem filter_updateWhere_of_not {t : Table key} {p q : V → Bool} {f : V → V} {hf : ∀ v, key (f v) = key v}
    (hq : ∀ v, q (f v) = q v) (hp : ∀ v ∈ t.rows, q v = true → p v = false) :
    (t.updateWhere p f hf).rows.filter q = t.rows.filter q := by
  rw [filter_updateWhere hq]
  refine (List.map_congr_left fun v hv => ?_).trans (List.map_id _)
  obtain ⟨hmem, hqv⟩ := List.mem_filter.1 hv
  simp [hp v hmem hqv]

theorem eq_of_key {t : Table key} {u v : V} (hu : u ∈ t.rows) (hv : v ∈ t.rows) (huv : key u = key v) :
    u = v :=
  List.inj_on_of_nodup_map t.nodup hu hv huv

theorem filter_eq_singleton {rows : List V} (hn : (rows.map key).Nodup) {p : V → Bool} {v : V}
    (hv : v ∈ rows) (hp : p v = true) (hk : ∀ u, p u = true → key u = key v) : rows.filter p = [v] := by
  induction rows with
  | nil => cases hv
  | cons x xs ih =>
    simp only [List.map_cons, List.nodup_cons] at hn
    rcases List.mem_cons.1 hv with rfl | hv'
    · rw [List.filter_cons_of_pos hp, List.filter_eq_nil_iff.2]
      exact fun u hu hpu => hn.1 (hk u hpu ▸ List.mem_map_of_mem hu)
    · have hx : ¬ p x = true := fun hpx => hn.1 (hk x hpx ▸ List.mem_map_of_mem hv')
      rw [List.filter_cons_of_neg hx]
      exact ih hn.2 hv'

/-- An `UPDATE` whose condition selects one row by its key answers exactly that row. -/
theorem returning_eq {t : Table key} {p : V → Bool} {f : V → V} {v : V} (hv : v ∈ t.rows)
    (hp : p v = true) (hk : ∀ u, p u = true → key u = key v) : t.returning p f = [f v] := by
  rw [returning, filter_eq_singleton t.nodup hv hp hk]; rfl

variable [DecidableEq K]

def find? (t : Table key) (k : K) : Option V := t.rows.find? fun v => key v = k

/-- `INSERT`, or `none` when the key is taken. -/
def insert? (t : Table key) (v : V) : Option (Table key) :=
  if hv : key v ∈ t.rows.map key then none
  else some ⟨t.rows ++ [v], by simpa [List.nodup_append, t.nodup] using fun u hu e => hv (by
    rw [← e]; exact List.mem_map_of_mem hu)⟩

theorem find?_eq_some {t : Table key} {k : K} {v : V} :
    t.find? k = some v ↔ v ∈ t.rows ∧ key v = k := by
  constructor
  · intro h
    exact ⟨List.mem_of_find?_eq_some h, by simpa using List.find?_some h⟩
  · rintro ⟨hv, rfl⟩
    cases hf : t.find? (key v) with
    | none => simpa using List.find?_eq_none.1 hf v hv
    | some u =>
      have hu := List.find?_some hf
      simp only [decide_eq_true_eq] at hu
      rw [eq_of_key (List.mem_of_find?_eq_some hf) hv hu]

/-- An `UPDATE` of the row with a key answers that row. -/
theorem returning_of_find? {t : Table key} {k : K} {v : V} (h : t.find? k = some v) (f : V → V) :
    t.returning (fun u => decide (key u = k)) f = [f v] := by
  obtain ⟨hv, rfl⟩ := find?_eq_some.1 h
  exact returning_eq hv (decide_eq_true rfl) fun u hu => of_decide_eq_true hu

theorem find?_eq_none {t : Table key} {k : K} : t.find? k = none ↔ ∀ v ∈ t.rows, key v ≠ k := by
  simp [find?]

theorem rows_insert? {t t' : Table key} {v : V} (h : t.insert? v = some t') : t'.rows = t.rows ++ [v] := by
  unfold insert? at h
  split at h
  · cases h
  · cases h; rfl

theorem find?_insert? {t t' : Table key} {v : V} (h : t.insert? v = some t') (k : K) :
    t'.find? k = if key v = k then some v else t.find? k := by
  have hnew : t.find? (key v) = none := by
    unfold insert? at h
    split at h
    · cases h
    · rename_i hv
      exact find?_eq_none.2 fun u hu e => hv (e ▸ List.mem_map_of_mem hu)
  unfold find? at hnew ⊢
  rw [rows_insert? h, List.find?_append]
  by_cases hk : key v = k
  · subst hk; simp [hnew]
  · simp [hk]

theorem insert?_isSome {t : Table key} {v : V} : (t.insert? v).isSome ↔ t.find? (key v) = none := by
  unfold insert?
  split
  · rename_i hv
    obtain ⟨u, hu, e⟩ := List.mem_map.1 hv
    simp [find?_eq_none]
    exact ⟨u, hu, e⟩
  · rename_i hv
    simp only [Option.isSome_some, true_iff]
    exact find?_eq_none.2 fun u hu e => hv (e ▸ List.mem_map_of_mem hu)

theorem insert?_eq_none {t : Table key} {v : V} : t.insert? v = none ↔ key v ∈ t.rows.map key := by
  unfold insert?
  split <;> simp_all

/-- The row that an `INSERT` runs into. -/
theorem find?_of_insert?_eq_none {t : Table key} {v : V} (h : t.insert? v = none) : ∃ u, t.find? (key v) = some u := by
  obtain ⟨u, hu, hkey⟩ := List.mem_map.1 (insert?_eq_none.1 h)
  exact ⟨u, find?_eq_some.2 ⟨hu, hkey⟩⟩

theorem find?_updateWhere {t : Table key} {p : V → Bool} {f : V → V} {hf : ∀ v, key (f v) = key v}
    (k : K) : (t.updateWhere p f hf).find? k = (t.find? k).map fun v => if p v then f v else v := by
  have hkey : ((fun v => decide (key v = k)) ∘ fun v => if p v then f v else v) =
      fun v => decide (key v = k) := by
    funext v
    by_cases hp : p v <;> simp [hp, hf]
  rw [find?, updateWhere, List.find?_map, hkey, find?]

/-! ## Maps -/

/-- A row in place of the one with its key, else at the end: `Map.prototype.set`. -/
def put (t : Table key) (v : V) : Table key :=
  if hv : key v ∈ t.rows.map key then
    ⟨t.rows.map fun u => if key u = key v then v else u, by
      have hkey : (key ∘ fun u => if key u = key v then v else u) = key := by
        funext u
        by_cases hu : key u = key v <;> simp [hu]
      rw [List.map_map, hkey]
      exact t.nodup⟩
  else
    ⟨t.rows ++ [v], by simpa [List.nodup_append, t.nodup] using fun u hu e => hv (by
      rw [← e]; exact List.mem_map_of_mem hu)⟩

/-- `Map.prototype.delete`. -/
def erase (t : Table key) (k : K) : Table key :=
  ⟨t.rows.filter fun u => key u ≠ k, t.nodup.sublist (List.filter_sublist.map key)⟩

theorem mem_put {t : Table key} {u v : V} : u ∈ (t.put v).rows ↔ u = v ∨ u ∈ t.rows ∧ key u ≠ key v := by
  unfold put
  split
  · rename_i hv
    obtain ⟨w, hw, hkey⟩ := List.mem_map.1 hv
    simp only [List.mem_map]
    constructor
    · rintro ⟨x, hx, rfl⟩
      by_cases hxv : key x = key v
      · exact .inl (by simp [hxv])
      · exact .inr (by simpa [hxv] using hx)
    · rintro (rfl | ⟨hu, hne⟩)
      · exact ⟨w, hw, by simp [hkey]⟩
      · exact ⟨u, hu, by simp [hne]⟩
  · rename_i hv
    simp only [List.mem_append, List.mem_singleton]
    constructor
    · rintro (hu | rfl)
      · exact .inr ⟨hu, fun e => hv (e ▸ List.mem_map_of_mem hu)⟩
      · exact .inl rfl
    · rintro (rfl | ⟨hu, -⟩)
      · exact .inr rfl
      · exact .inl hu

theorem mem_erase {t : Table key} {k : K} {u : V} : u ∈ (t.erase k).rows ↔ u ∈ t.rows ∧ key u ≠ k := by
  simp [erase]

theorem find?_put {t : Table key} {v : V} (k : K) :
    (t.put v).find? k = if key v = k then some v else t.find? k := by
  split
  · rename_i hk
    exact find?_eq_some.2 ⟨mem_put.2 (.inl rfl), hk⟩
  · rename_i hk
    cases hf : t.find? k with
    | none =>
      refine find?_eq_none.2 fun u hu => ?_
      rcases mem_put.1 hu with rfl | ⟨hu, -⟩
      · exact hk
      · exact find?_eq_none.1 hf u hu
    | some u =>
      obtain ⟨hu, rfl⟩ := find?_eq_some.1 hf
      exact find?_eq_some.2 ⟨mem_put.2 (.inr ⟨hu, fun e => hk e.symm⟩), rfl⟩

theorem find?_erase {t : Table key} {k : K} (k' : K) :
    (t.erase k).find? k' = if k = k' then none else t.find? k' := by
  split
  · rename_i hk
    subst hk
    exact find?_eq_none.2 fun u hu => (mem_erase.1 hu).2
  · rename_i hk
    cases hf : t.find? k' with
    | none => exact find?_eq_none.2 fun u hu => find?_eq_none.1 hf u (mem_erase.1 hu).1
    | some u =>
      obtain ⟨hu, rfl⟩ := find?_eq_some.1 hf
      exact find?_eq_some.2 ⟨mem_erase.2 ⟨hu, fun e => hk e.symm⟩, rfl⟩

end Table

/-- A `Map`: its entries in the order in which their keys were set. -/
abbrev Dict (K V : Type) : Type := Table (Prod.fst : K × V → K)

/-- `Map.prototype.get`. -/
def Dict.get? {K V : Type} [DecidableEq K] (m : Dict K V) (k : K) : Option V := (m.find? k).map Prod.snd

theorem Dict.get?_eq_some {K V : Type} [DecidableEq K] {m : Dict K V} {k : K} {v : V} :
    m.get? k = some v ↔ (k, v) ∈ m.rows := by
  simp only [Dict.get?, Option.map_eq_some_iff, Table.find?_eq_some]
  constructor
  · rintro ⟨⟨k', v'⟩, ⟨hmem, rfl⟩, rfl⟩
    exact hmem
  · intro hmem
    exact ⟨(k, v), ⟨hmem, rfl⟩, rfl⟩

theorem Dict.get?_put {K V : Type} [DecidableEq K] {m : Dict K V} {k k' : K} {v : V} :
    Dict.get? (m.put (k, v)) k' = if k = k' then some v else m.get? k' := by
  rw [Dict.get?, Table.find?_put]
  split <;> rfl

theorem Dict.get?_erase {K V : Type} [DecidableEq K] {m : Dict K V} {k k' : K} :
    Dict.get? (m.erase k) k' = if k = k' then none else m.get? k' := by
  rw [Dict.get?, Table.find?_erase]
  split <;> rfl

/-! ## Maps that agree on most keys -/

section
variable {K V : Type} [DecidableEq K] {m m' : Dict K V} {E : K → Prop} {k : K} {v : V}

/-- The maps have the same values at all keys but those of `E`. -/
def Dict.AgreeOff (E : K → Prop) (m m' : Dict K V) : Prop := ∀ k, ¬ E k → m.get? k = m'.get? k

theorem Dict.AgreeOff.refl (m : Dict K V) : Dict.AgreeOff E m m := fun _ _ => rfl

theorem Dict.agreeOff_put (hk : E k) : Dict.AgreeOff E (m.put (k, v)) m := by
  intro k' hk'
  rw [Dict.get?_put, if_neg]
  rintro rfl
  exact hk' hk

theorem Dict.agreeOff_erase (hk : E k) : Dict.AgreeOff E (m.erase k) m := by
  intro k' hk'
  rw [Dict.get?_erase, if_neg]
  rintro rfl
  exact hk' hk

theorem Dict.AgreeOff.put (h : Dict.AgreeOff E m m') : Dict.AgreeOff E (m.put (k, v)) (m'.put (k, v)) := by
  intro k' hk'
  rw [Dict.get?_put, Dict.get?_put, h k' hk']

theorem Dict.AgreeOff.erase (h : Dict.AgreeOff E m m') : Dict.AgreeOff E (m.erase k) (m'.erase k) := by
  intro k' hk'
  rw [Dict.get?_erase, Dict.get?_erase, h k' hk']

end

end Store
