import NexoraGateway.Async.Amid

/-!
# Loops that go on

What it takes for a loop to go on for ever, and what then becomes of what waits for it.

* `Strict.ok_iff` — a program that handles no failure of its critical calls fails just when one of them does.
* `Brittle.error` — a program that handles no failure fails when a call does.
* `exists_exhausted` — a rank that never grows and drops again and again runs out.
-/
namespace Async

variable {A Ω S ε α β : Type} {Ans : A → Type}

namespace Prog
variable {critical : A → Prop}

/-- The program fails just when a critical call does, and then at once. -/
def Strict (critical : A → Prop) : Prog A (fun a => Except ε (Ans a)) ε α → Prop
  | ret _ => True
  | throw _ => False
  | call a k => (∀ x, Strict critical (k (.ok x))) ∧
      ∀ e, critical a ∧ (∃ e', k (.error e) = throw e') ∨ ¬ critical a ∧ Strict critical (k (.error e))

theorem Strict.await {a : A} (ha : critical a) :
    (await a : Prog A (fun a => Except ε (Ans a)) ε (Ans a)).Strict critical :=
  ⟨fun _ => trivial, fun e => .inl ⟨ha, e, rfl⟩⟩

theorem Strict.bind {p : Prog A (fun a => Except ε (Ans a)) ε α} {f : α → Prog A (fun a => Except ε (Ans a)) ε β}
    (hp : p.Strict critical) (hf : ∀ x, (f x).Strict critical) : (p.bind f).Strict critical := by
  induction p with
  | ret x => exact hf x
  | throw e => exact hp.elim
  | call a k ih =>
    refine ⟨fun x => ih _ (hp.1 x), fun e => ?_⟩
    rcases hp.2 e with ⟨ha, e', he'⟩ | ⟨ha, hk⟩
    · refine .inl ⟨ha, e', ?_⟩
      change (k (.error e)).bind f = throw e'
      rw [he']
      rfl
    · exact .inr ⟨ha, ih _ hk⟩

/-- What is tried may fail as it likes, with calls that are not critical. -/
theorem Strict.tryCatch {p : Prog A (fun a => Except ε (Ans a)) ε α}
    {c : ε → Prog A (fun a => Except ε (Ans a)) ε α} (hp : p.Only (fun a => ¬ critical a) fun _ => True)
    (hc : ∀ e, (c e).Strict critical) : (p.tryCatch c).Strict critical := by
  induction p with
  | ret x => trivial
  | throw e => exact hc e
  | call a k ih =>
    have hrest (r : Except ε (Ans a)) : ((k r).tryCatch c).Strict critical := ih r (hp.2 r fun _ _ => trivial)
    exact ⟨fun x => hrest (.ok x), fun e => .inr ⟨hp.1, hrest (.error e)⟩⟩

theorem Strict.forM {f : β → Prog A (fun a => Except ε (Ans a)) ε Unit} (hf : ∀ x, (f x).Strict critical)
    (xs : List β) : (xs.forM f).Strict critical := by
  induction xs with
  | nil => trivial
  | cons x xs ih => exact Strict.bind (hf x) fun _ => ih

variable {h : Handler A (fun a => Except ε (Ans a)) Ω S} {ω : Nat → Ω}

/-- **It resolves just when** all its critical calls are answered. -/
theorem Strict.ok_iff {p : Prog A (fun a => Except ε (Ans a)) ε α} (hp : p.Strict critical) (n : Nat) (s : S) :
    (∃ x, (p.run h ω n s).1 = .ok x) ↔
      ∀ c ∈ p.calls h ω n s, critical c.call → ∃ x, (h c.call c.oracle c.store).1 = .ok x := by
  induction p generalizing n s with
  | ret x => exact iff_of_true ⟨x, rfl⟩ fun c hc => absurd hc List.not_mem_nil
  | throw e => exact hp.elim
  | call a k ih =>
    rw [run_call, calls, List.forall_mem_cons]
    dsimp only
    cases hr : (h a (ω n) s).1 with
    | ok x =>
      rw [ih _ (hp.1 x)]
      exact ⟨fun hrest => ⟨fun _ => ⟨x, rfl⟩, hrest⟩, fun hall => hall.2⟩
    | error e =>
      rcases hp.2 e with ⟨ha, e', he'⟩ | ⟨ha, hk⟩
      · rw [he']
        refine iff_of_false (fun ⟨x, hx⟩ => by cases hx) fun hall => ?_
        obtain ⟨x, hx⟩ := hall.1 ha
        cases hx
      · rw [ih _ hk]
        exact ⟨fun hrest => ⟨fun hcritical => absurd hcritical ha, hrest⟩, fun hall => hall.2⟩

/-- The program makes allowed calls only, and rejects as soon as one of them does. -/
def Brittle (ok : A → Prop) : Prog A (fun a => Except ε (Ans a)) ε α → Prop
  | ret _ => True
  | throw _ => True
  | call a k => ok a ∧ (∀ x, Brittle ok (k (.ok x))) ∧ ∀ e, ∃ e', k (.error e) = throw e'

section
variable {ok : A → Prop} {p : Prog A (fun a => Except ε (Ans a)) ε α}

theorem Brittle.await {a : A} (ha : ok a) : (await a : Prog A (fun a => Except ε (Ans a)) ε (Ans a)).Brittle ok :=
  ⟨ha, fun _ => trivial, fun e => ⟨e, rfl⟩⟩

theorem Brittle.bind {f : α → Prog A (fun a => Except ε (Ans a)) ε β} (hp : p.Brittle ok)
    (hf : ∀ x, (f x).Brittle ok) : (p.bind f).Brittle ok := by
  induction p with
  | ret x => exact hf x
  | throw e => trivial
  | call a k ih =>
    refine ⟨hp.1, fun x => ih _ (hp.2.1 x), fun e => ?_⟩
    obtain ⟨e', he'⟩ := hp.2.2 e
    exact ⟨e', congrArg (Prog.bind · f) he'⟩

theorem Brittle.only (hp : p.Brittle ok) : p.Only ok fun _ => True := by
  induction p with
  | ret x => exact Only.ret x
  | throw e => exact Only.throw trivial
  | call a k ih =>
    refine ⟨hp.1, fun r _ => ?_⟩
    cases r with
    | ok x => exact ih _ (hp.2.1 x)
    | error e =>
      obtain ⟨e', he'⟩ := hp.2.2 e
      exact he' ▸ Only.throw trivial

/-- **One rejected call** rejects the program. -/
theorem Brittle.error (hp : p.Brittle ok) {n : Nat} {s : S}
    (hfailed : ∃ c ∈ p.calls h ω n s, ∃ e, (h c.call c.oracle c.store).1 = .error e) :
    ∃ e, (p.run h ω n s).1 = .error e := by
  obtain ⟨c, hc, e, he⟩ := hfailed
  induction p generalizing n s with
  | ret x => cases hc
  | throw e => cases hc
  | call a k ih =>
    rw [run_call]
    rcases List.mem_cons.1 hc with rfl | hc
    · obtain ⟨e', he'⟩ := hp.2.2 e
      exact ⟨e', by rw [he, he', run_throw]⟩
    · cases hr : (h a (ω n) s).1 with
      | ok x => exact ih _ (hp.2.1 x) (hr ▸ hc)
      | error e' =>
        obtain ⟨e'', he''⟩ := hp.2.2 e'
        exact ⟨e'', by rw [he'', run_throw]⟩

end

/-- The calls of a run are counted on. -/
theorem le_run {R : A → Type} {h : Handler A R Ω S} (p : Prog A R ε α) (n : Nat) (s : S) : n ≤ (p.run h ω n s).2.1 := by
  induction p generalizing n s with
  | ret x => exact Nat.le_refl n
  | throw e => exact Nat.le_refl n
  | call a k ih => exact Nat.le_trans (Nat.le_succ n) (ih _ _ _)

theorem Only.forM_mem {ok : A → Prop} {E : ε → Prop} {f : β → Prog A (fun a => Except ε (Ans a)) ε Unit} {xs : List β}
    (hf : ∀ x ∈ xs, (f x).Only ok E) : (xs.forM f).Only ok E := by
  induction xs with
  | nil => exact Only.ret _
  | cons x xs ih =>
    exact Only.bind (hf x List.mem_cons_self) fun _ => ih fun y hy => hf y (List.mem_cons_of_mem x hy)

/-- A call meets what the run met there. -/
theorem calls_oracle {R : A → Type} {h : Handler A R Ω S} {p : Prog A R ε α} {n : Nat} {s : S} {c : CallAt A Ω S}
    (hc : c ∈ p.calls h ω n s) : ∃ m, c.oracle = ω m := by
  induction p generalizing n s with
  | ret x => exact absurd hc List.not_mem_nil
  | throw e => exact absurd hc List.not_mem_nil
  | call a k ih =>
    rcases List.mem_cons.1 hc with rfl | hc
    · exact ⟨n, rfl⟩
    · exact ih _ hc

/-- What the allowed calls keep, as they are answered from `n` on, the run keeps. -/
theorem Only.run_inv_from {ok : A → Prop} {p : Prog A (fun a => Except ε (Ans a)) ε α}
    (hp : p.Only ok fun _ => True) {I : S → Prop} {n : Nat}
    (hcall : ∀ a m s, n ≤ m → ok a → I s → I (h a (ω m) s).2) {m : Nat} (hm : n ≤ m) {s : S} (hs : I s) :
    I (p.run h ω m s).2.2 := by
  induction p generalizing m s with
  | ret x => exact hs
  | throw e => exact hs
  | call a k ih => exact ih _ (hp.2 _ fun _ _ => trivial) (Nat.le_trans hm (Nat.le_succ m)) (hcall a m s hm hp.1 hs)

end Prog

/-- What the call keeps, and those of the others after it, holds after the turn. -/
theorem amid_keeps {R : A → Type} {h : Handler A R Ω S} {I : S → Prop} {a : A} {turn : Turn A Ω} {s : S}
    (hown : I (h a turn.own s).2) (hothers : ∀ c ∈ turn.others, ∀ s, I s → I (h c.1 c.2 s).2) :
    I (amid h a turn s).2 := by
  have hfold (cs : List (A × Ω)) (hcs : ∀ c ∈ cs, ∀ s, I s → I (h c.1 c.2 s).2) (s : S) (hs : I s) :
      I (cs.foldl (fun s c => (h c.1 c.2 s).2) s) := by
    induction cs generalizing s with
    | nil => exact hs
    | cons c cs ih =>
      exact ih (fun c' hc' => hcs c' (List.mem_cons_of_mem c hc')) _ (hcs c List.mem_cons_self s hs)
  exact hfold turn.others hothers _ hown

/-- **A rank that is kept, and drops again and again,** runs out. -/
theorem exists_exhausted {waits : Nat → Nat → Prop} {served : Nat → Prop} (hserved : ∀ k, ∃ j, k ≤ j ∧ served j)
    (hkeep : ∀ n j, waits n j → waits n (j + 1)) (hdrop : ∀ n j, served j → waits (n + 1) j → waits n (j + 1))
    (n k : Nat) (h : waits n k) : ∃ j, k ≤ j ∧ waits 0 j := by
  have hlater (n k d : Nat) (h : waits n k) : waits n (k + d) := by
    induction d with
    | zero => exact h
    | succ d ih => exact hkeep n _ ih
  induction n generalizing k with
  | zero => exact ⟨k, Nat.le_refl k, h⟩
  | succ n ih =>
    obtain ⟨j, hj, hjserved⟩ := hserved k
    obtain ⟨d, rfl⟩ := Nat.exists_eq_add_of_le hj
    obtain ⟨j', hj', hzero⟩ := ih _ (hdrop n _ hjserved (hlater _ _ d h))
    exact ⟨j', by omega, hzero⟩

end Async
