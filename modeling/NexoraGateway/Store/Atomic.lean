/-!
# All-or-nothing statements

A statement, or a whole transaction, either succeeds with a result and a new store or fails and
leaves the store as it was. `atomically` runs such a body: what it throws is answered after a
`ROLLBACK`.

A `request` to a store behind a connection is atomic there, but its caller may be told that it failed
when only the answer was lost.
-/
namespace Store

variable {S ε α β : Type}

def atomically (body : S → Except ε (α × S)) (s : S) : Except ε α × S :=
  match body s with
  | .ok (x, t) => (.ok x, t)
  | .error e => (.error e, s)

variable {body : S → Except ε (α × S)} {s : S}

theorem atomically_ok {x : α} (h : (atomically body s).1 = .ok x) :
    ∃ t, (atomically body s).2 = t ∧ body s = .ok (x, t) := by
  unfold atomically at h ⊢
  split at h
  · rename_i y t hb
    simp only [Except.ok.injEq] at h
    exact ⟨t, rfl, h ▸ hb⟩
  · cases h

/-- A statement that fails has no effect. -/
theorem atomically_error {e : ε} (h : (atomically body s).1 = .error e) :
    (atomically body s).2 = s := by
  unfold atomically at h ⊢
  split at h
  · cases h
  · rfl

theorem error_of_atomically {e : ε} (h : (atomically body s).1 = .error e) : body s = .error e := by
  unfold atomically at h
  split at h
  · cases h
  · rename_i hb
    cases h
    exact hb

/-- The store after a statement is the old one, or the one the body produced. -/
theorem atomically_cases (r : S → Prop) (hs : r s) (hb : ∀ x t, body s = .ok (x, t) → r t) :
    r (atomically body s).2 := by
  cases h : (atomically body s).1 with
  | ok x =>
    obtain ⟨t, rfl, ht⟩ := atomically_ok h
    exact hb _ _ ht
  | error e => rw [atomically_error h]; exact hs

theorem bind_eq_ok {p : Except ε α} {f : α → Except ε β} {y : β} :
    p >>= f = .ok y ↔ ∃ x, p = .ok x ∧ f x = .ok y := by
  cases p with
  | ok x => simp [bind, Except.bind]
  | error e => simp [bind, Except.bind]

theorem bind_eq_error {p : Except ε α} {f : α → Except ε β} {e : ε} :
    p >>= f = .error e ↔ p = .error e ∨ ∃ x, p = .ok x ∧ f x = .error e := by
  cases p with
  | ok x => simp [bind, Except.bind]
  | error e => simp [bind, Except.bind]

/-- A request that ends in `result`: answered, or rejected with or without having been executed. -/
def request (rejects : Option ε) (lost : Bool) (result : α × S) (s : S) : Except ε α × S :=
  match rejects with
  | none => (.ok result.1, result.2)
  | some e => (.error e, if lost then result.2 else s)

variable {rejects : Option ε} {lost : Bool} {result : α × S}

/-- What holds with and without the request's execution holds after it. -/
theorem request_rule {P : S → Prop} (hdone : P result.2) (hnot : P s) :
    P (request rejects lost result s).2 := by
  unfold request
  split
  · exact hdone
  · dsimp only
    split
    · exact hdone
    · exact hnot

/-- A request that is answered was executed. -/
theorem request_ok {x : α} (h : (request rejects lost result s).1 = .ok x) :
    (request rejects lost result s).2 = result.2 ∧ result.1 = x := by
  unfold request at h ⊢
  split at h
  · exact ⟨rfl, Except.ok.inj h⟩
  · cases h

theorem request_eq_ok {x : α} {t : S} (h : request rejects lost result s = (.ok x, t)) :
    t = result.2 ∧ result.1 = x := by
  obtain ⟨hdone, hx⟩ := request_ok (congrArg Prod.fst h)
  exact ⟨(congrArg Prod.snd h).symm.trans hdone, hx⟩

/-- A request that is not rejected, or of which only the answer is lost, is executed. -/
theorem request_executed (h : rejects = none ∨ lost = true) : (request rejects lost result s).2 = result.2 := by
  cases rejects with
  | none => rfl
  | some e => exact if_pos (h.resolve_left nofun)

theorem request_not_executed (h : ¬ (rejects = none ∨ lost = true)) : (request rejects lost result s).2 = s := by
  obtain ⟨hrejects, hlost⟩ := not_or.1 h
  cases rejects with
  | none => exact absurd rfl hrejects
  | some e => exact if_neg hlost

end Store
