import Mathlib.Data.List.Chain
import Mathlib.Data.List.Range

/-!
# Versioned event logs

An entity keeps a row (its current state and a version counter) and an append-only log of events,
each with the version it produced. `Explains M log s v` says that the log accounts for the row: the
versions are `1 … v`, the first event is the initial one, the last one leads to `s`, and every two
consecutive events follow an edge of `M`. `replay` then rebuilds the row from the log.

`gate` is the reachability rule for such logs: if a set of states can only be entered by a `gate`
event, then an event that leads into the set has a gate event at or before it.
-/
namespace Events

structure Machine (σ ε : Type) where
  initial : ε
  target : ε → σ
  edge : σ → σ → Prop

variable {σ ε : Type} {M : Machine σ ε} {log : List (Nat × ε)} {s : σ} {v : Nat}

structure Explains (M : Machine σ ε) (log : List (Nat × ε)) (s : σ) (v : Nat) : Prop where
  versions : log.map Prod.fst = List.range' 1 v
  first : log.head?.map Prod.snd = some M.initial
  last : log.getLast?.map (fun x => M.target x.2) = some s
  path : log.IsChain fun a b => M.edge (M.target a.2) (M.target b.2)

theorem Explains.create : Explains M [(1, M.initial)] (M.target M.initial) 1 :=
  ⟨rfl, rfl, rfl, .singleton _⟩

theorem Explains.append (h : Explains M log s v) {e : ε} (he : M.edge s (M.target e)) :
    Explains M (log ++ [(v + 1, e)]) (M.target e) (v + 1) where
  versions := by rw [List.map_append, h.versions, List.range'_concat]; simp [Nat.add_comm]
  first := by
    have hf := h.first
    cases log with
    | nil => simp at hf
    | cons x xs => simpa using hf
  last := by simp
  path := by
    refine List.isChain_append.2 ⟨h.path, .singleton _, fun x hx y hy => ?_⟩
    have hlast := h.last
    rw [hx] at hlast
    simp only [List.head?_cons, Option.mem_def, Option.some.injEq] at hy
    subst hy
    simp only [Option.map_some, Option.some.injEq] at hlast
    exact hlast ▸ he

/-- The row that a log, read oldest first, leads to: its state and its version. -/
def replay (M : Machine σ ε) (log : List (Nat × ε)) : Option (σ × Nat) :=
  log.foldl (fun _ x => some (M.target x.2, x.1)) none

theorem replay_append (M : Machine σ ε) (log : List (Nat × ε)) (x : Nat × ε) :
    replay M (log ++ [x]) = some (M.target x.2, x.1) := by simp [replay]

/-- **Replaying the log reconstructs the row.** -/
theorem Explains.replay_eq (h : Explains M log s v) : replay M log = some (s, v) := by
  obtain ⟨hv, _, hl, _⟩ := h
  rcases List.eq_nil_or_concat log with rfl | ⟨init, x, rfl⟩
  · simp at hl
  · simp only [List.concat_eq_append] at hv hl ⊢
    rw [replay_append]
    have hlen : v = init.length + 1 := by simpa using (congrArg List.length hv).symm
    subst hlen
    rw [List.map_append, List.range'_concat] at hv
    have hx := (List.append_inj' hv rfl).2
    simp only [List.map_cons, List.map_nil, List.cons.injEq, and_true] at hx
    simp only [List.getLast?_append, List.getLast?_singleton, Option.map_some, Option.some.injEq,
      Option.some_or] at hl
    rw [hx, hl]
    congr 2
    omega

/-! ## Neighbours -/

variable {pre post : List (Nat × ε)} {x y : Nat × ε}

/-- Two consecutive events follow an edge. -/
theorem Explains.edge (h : Explains M log s v) (hlog : log = pre ++ x :: y :: post) :
    M.edge (M.target x.2) (M.target y.2) := by
  have hpath := h.path
  rw [hlog] at hpath
  exact (List.isChain_append_cons_cons.1 hpath).2.1

/-- An event that leads to a state without edges is the last one. -/
theorem Explains.final (h : Explains M log s v) (hlog : log = pre ++ x :: post)
    (hx : ∀ t, ¬ M.edge (M.target x.2) t) : post = [] := by
  cases post with
  | nil => rfl
  | cons y post => exact absurd (h.edge hlog) (hx _)

/-- An event that does not lead where the initial one does has a predecessor. -/
theorem Explains.previous (h : Explains M log s v) (hlog : log = pre ++ x :: post) (hx : x.2 ≠ M.initial) :
    ∃ pre' y, pre = pre' ++ [y] ∧ M.edge (M.target y.2) (M.target x.2) := by
  rcases List.eq_nil_or_concat pre with rfl | ⟨pre', y, rfl⟩
  · have hfirst := h.first
    rw [hlog] at hfirst
    simp only [List.nil_append, List.head?_cons, Option.map_some, Option.some.injEq] at hfirst
    exact absurd hfirst hx
  · rw [List.concat_eq_append, List.append_assoc] at hlog
    exact ⟨pre', y, List.concat_eq_append, h.edge hlog⟩

/-- The row's state is the initial one, or an edge leads there. -/
theorem Explains.reached (h : Explains M log s v) : s = M.target M.initial ∨ ∃ a, M.edge a s := by
  have hlast := h.last
  rcases List.eq_nil_or_concat log with hnil | ⟨init, x, hlog⟩
  · simp [hnil] at hlast
  · rw [List.concat_eq_append] at hlog
    simp only [hlog, List.getLast?_append, List.getLast?_singleton, Option.some_or, Option.map_some,
      Option.some.injEq] at hlast
    by_cases hx : x.2 = M.initial
    · exact .inl (hx ▸ hlast.symm)
    · obtain ⟨_, y, -, hedge⟩ := h.previous hlog hx
      exact .inr ⟨_, hlast ▸ hedge⟩

/-! ## Precedence -/

/-- Every event satisfying `q` has an earlier one satisfying `p`. -/
def Precedes (p q : ε → Prop) (log : List ε) : Prop :=
  ∀ pre e post, log = pre ++ e :: post → q e → ∃ e' ∈ pre, p e'

/-- A set of states that is left alone by the initial event and entered only by `gate` events has a
gate event at or before every event leading into it. -/
theorem Explains.gate (h : Explains M log s v) (behind : σ → Prop) {gate : ε → Prop}
    (h0 : ¬ behind (M.target M.initial))
    (henter : ∀ a e, M.edge a (M.target e) → ¬ behind a → behind (M.target e) → gate e)
    {pre post : List (Nat × ε)} {x : Nat × ε} (hlog : log = pre ++ x :: post)
    (hx : behind (M.target x.2)) : (∃ y ∈ pre, gate y.2) ∨ gate x.2 := by
  have hfirst := h.first
  have hpath := h.path
  clear h
  subst hlog
  -- induction on the events before `x`, newest first
  induction pre using List.reverseRecOn generalizing x post with
  | nil =>
    simp only [List.nil_append, List.head?_cons, Option.map_some, Option.some.injEq] at hfirst
    rw [hfirst] at hx
    exact absurd hx h0
  | append_singleton pre y ih =>
    rw [List.append_assoc, List.singleton_append] at hfirst hpath
    by_cases hy : behind (M.target y.2)
    · rcases ih hy hfirst hpath with ⟨z, hz, hg⟩ | hg
      · exact .inl ⟨z, List.mem_append_left _ hz, hg⟩
      · exact .inl ⟨y, List.mem_append_right _ (List.mem_singleton_self y), hg⟩
    · have hedge : M.edge (M.target y.2) (M.target x.2) :=
        (List.isChain_append_cons_cons.1 hpath).2.1
      exact .inr (henter _ _ hedge hy hx)

/-- The gate rule as precedence: an event that leads behind the gate, and is no gate event itself,
is preceded by one. -/
theorem Explains.precedes (h : Explains M log s v) (behind : σ → Prop) {gate q : ε → Prop}
    (h0 : ¬ behind (M.target M.initial))
    (henter : ∀ a e, M.edge a (M.target e) → ¬ behind a → behind (M.target e) → gate e)
    (hq : ∀ e, q e → behind (M.target e) ∧ ¬ gate e) : Precedes gate q (log.map Prod.snd) := by
  intro pre e post hlog he
  obtain ⟨pre', tail, hsplit, rfl, htail⟩ := List.map_eq_append_iff.1 hlog
  obtain ⟨x, post', rfl, rfl, rfl⟩ := List.map_eq_cons_iff.1 htail
  rcases h.gate behind h0 henter hsplit (hq _ he).1 with ⟨y, hy, hg⟩ | hg
  · exact ⟨y.2, List.mem_map_of_mem hy, hg⟩
  · exact absurd hg (hq _ he).2

end Events
