import NexoraGateway.Async.Prog

/-!
# A program amid others

`amid h` runs a program on a store that it shares: after each of its calls, the others make the calls that the
oracle lists. `calls` are the calls that a run makes, each with what it met and the store that it was made in.
-/
namespace Async

variable {A : Type} {R : A → Type} {ε α β Ω S : Type}

/-- What one call of a program meets, and what the others call after it. -/
structure Turn (A Ω : Type) where
  own : Ω
  others : List (A × Ω) := []

def amid (h : Handler A R Ω S) : Handler A R (Turn A Ω) S := fun a turn s =>
  ((h a turn.own s).1, turn.others.foldl (fun s c => (h c.1 c.2 s).2) (h a turn.own s).2)

/-- What holds after a call, and every call keeps, holds after those of the others too. -/
theorem amid_of_own {h : Handler A R Ω S} {I : S → Prop} (hcall : ∀ a o s, I s → I (h a o s).2) {a : A}
    {turn : Turn A Ω} {s : S} (hown : I (h a turn.own s).2) : I (amid h a turn s).2 := by
  have hothers : ∀ (cs : List (A × Ω)) (s : S), I s → I (cs.foldl (fun s c => (h c.1 c.2 s).2) s) := by
    intro cs
    induction cs with
    | nil => exact fun _ hs => hs
    | cons c cs ih => exact fun s hs => ih _ (hcall c.1 c.2 s hs)
  exact hothers turn.others _ hown

/-- What every call keeps is kept by a call and those of the others after it. -/
theorem amid_inv {h : Handler A R Ω S} {I : S → Prop} (hcall : ∀ a o s, I s → I (h a o s).2) (a : A)
    (turn : Turn A Ω) (s : S) (hs : I s) : I (amid h a turn s).2 := amid_of_own hcall (hcall a turn.own s hs)

/-- A call of a run. -/
structure CallAt (A Ω S : Type) where
  call : A
  oracle : Ω
  store : S

namespace Prog
variable (h : Handler A R Ω S) (ω : Nat → Ω)

def calls : Prog A R ε α → Nat → S → List (CallAt A Ω S)
  | ret _, _, _ => []
  | throw _, _, _ => []
  | call a k, n, s => ⟨a, ω n, s⟩ :: calls (k (h a (ω n) s).1) (n + 1) (h a (ω n) s).2

@[simp] theorem calls_ret (x : α) (n : Nat) (s : S) : (ret x : Prog A R ε α).calls h ω n s = [] := rfl

theorem calls_bind (p : Prog A R ε α) (f : α → Prog A R ε β) (n : Nat) (s : S) :
    (p.bind f).calls h ω n s = p.calls h ω n s ++
      match p.run h ω n s with
      | (.ok x, m, t) => (f x).calls h ω m t
      | (.error _, _, _) => [] := by
  induction p generalizing n s with
  | ret x => rfl
  | throw e => rfl
  | call a k ih => exact congrArg (_ :: ·) (ih _ _ _)

theorem calls_bind_of_ok {p : Prog A R ε α} (f : α → Prog A R ε β) {n m : Nat} {s t : S} {x : α}
    (hp : p.run h ω n s = (.ok x, m, t)) :
    (p.bind f).calls h ω n s = p.calls h ω n s ++ (f x).calls h ω m t := by
  rw [calls_bind, hp]

/-- A program whose errors are dropped resolves, with the calls of the program. -/
theorem calls_ignoring (p : Prog A R ε Unit) (n : Nat) (s : S) :
    ((p.tryCatch fun _ => ret ()).run h ω n s).1 = .ok () ∧
      (p.tryCatch fun _ => ret ()).calls h ω n s = p.calls h ω n s := by
  induction p generalizing n s with
  | ret x => exact ⟨rfl, rfl⟩
  | throw e => exact ⟨rfl, rfl⟩
  | call a k ih =>
    obtain ⟨hout, hcalls⟩ := ih (h a (ω n) s).1 (n + 1) (h a (ω n) s).2
    exact ⟨hout, congrArg (_ :: ·) hcalls⟩

variable {h ω}

/-- What every call keeps holds in each store that a call is made in. -/
theorem calls_inv {I : S → Prop} (hcall : ∀ a o s, I s → I (h a o s).2) (p : Prog A R ε α) (n : Nat) {s : S}
    (hs : I s) : ∀ c ∈ p.calls h ω n s, I c.store := by
  induction p generalizing n s with
  | ret x => exact fun _ hc => absurd hc List.not_mem_nil
  | throw e => exact fun _ hc => absurd hc List.not_mem_nil
  | call a k ih =>
    intro c hc
    rcases List.mem_cons.1 hc with rfl | hc
    · exact hs
    · exact ih _ (n + 1) (hcall a (ω n) s hs) c hc

theorem Only.calls {Ans : A → Type} {h : Handler A (fun a => Except ε (Ans a)) Ω S} {ok : A → Prop}
    {p : Prog A (fun a => Except ε (Ans a)) ε α} (hp : p.Only ok fun _ => True) (n : Nat) (s : S) :
    ∀ c ∈ p.calls h ω n s, ok c.call := by
  induction p generalizing n s with
  | ret x => exact fun _ hc => absurd hc List.not_mem_nil
  | throw e => exact fun _ hc => absurd hc List.not_mem_nil
  | call a k ih =>
    intro c hc
    rcases List.mem_cons.1 hc with rfl | hc
    · exact hp.1
    · exact ih _ (hp.2 _ fun _ _ => trivial) (n + 1) _ c hc

/-- A program that keeps to a protocol, on a store whose invariant every allowed call keeps and makes its answers
reliable, ends as promised and makes allowed calls only. -/
theorem Obeys.amid {G : Type} {P : Protocol A R G} {Q : G → Except ε α → Prop} {I : S → Prop}
    (hcall : ∀ g a o s, I s → P.ok g a → P.rely a (h a o s).1 ∧ I (h a o s).2) {p : Prog A R ε α} {g : G}
    (hp : p.Obeys P Q g) (ω : Nat → Ω) (n : Nat) {s : S} (hs : I s) :
    (∃ g', Q g' (p.run h ω n s).1) ∧ ∀ c ∈ p.calls h ω n s, ∃ g', P.ok g' c.call := by
  induction p generalizing g n s with
  | ret x => exact ⟨⟨g, hp⟩, fun _ hc => absurd hc List.not_mem_nil⟩
  | throw e => exact ⟨⟨g, hp⟩, fun _ hc => absurd hc List.not_mem_nil⟩
  | call a k ih =>
    obtain ⟨hrely, hI⟩ := hcall g a (ω n) s hs hp.1
    obtain ⟨hout, hcalls⟩ := ih _ (hp.2 _ hrely) (n + 1) hI
    refine ⟨hout, fun c hc => ?_⟩
    rcases List.mem_cons.1 hc with rfl | hc
    · exact ⟨g, hp.1⟩
    · exact hcalls c hc

/-- A loop whose rounds all resolve does so, with what each round's calls show of its item, one after another. -/
theorem forM_calls {ι : Type} {f : β → Prog A R ε Unit} {shown : CallAt A Ω S → Option ι} {item : β → ι}
    (hround : ∀ x n s, ((f x).run h ω n s).1 = .ok () ∧ ((f x).calls h ω n s).filterMap shown = [item x])
    (xs : List β) (n : Nat) (s : S) :
    ((xs.forM f).run h ω n s).1 = .ok () ∧ ((xs.forM f).calls h ω n s).filterMap shown = xs.map item := by
  induction xs generalizing n s with
  | nil => exact ⟨rfl, rfl⟩
  | cons x xs ih =>
    obtain ⟨hout, hshown⟩ := hround x n s
    rcases hrun : (f x).run h ω n s with ⟨out, m, t⟩
    obtain rfl : out = .ok () := by rw [hrun] at hout; exact hout
    obtain ⟨hrest, hmap⟩ := ih m t
    change (((f x).bind fun _ => xs.forM f).run h ω n s).1 = _ ∧
      (((f x).bind fun _ => xs.forM f).calls h ω n s).filterMap shown = _
    rw [run_bind_of_ok h ω _ hrun, calls_bind_of_ok h ω _ hrun, List.filterMap_append, hshown, hmap]
    exact ⟨hrest, rfl⟩

end Prog

end Async
