/-!
# Asynchronous programs

An `async` function is modelled as the tree of the calls it awaits: `Prog A R ε α` resolves with an
`α` (`ret`), rejects with an `ε` (`throw`), or awaits a call `a : A` and goes on with the answer it
gets (`R a` is the type of the answers to `a`). Everything between two awaits is pure, so a node of
the tree is exactly a point at which another task can run.

A `Handler` says what one awaited call does to the shared store; what the program does not determine
(the clock, a rejected query, a remote answer) is an argument `o : Ω`. `run` executes one program
alone, call number `n` being answered with `ω n`; `Async.Pool` interleaves many.

`Obeys` is the program logic: a protocol with ghost states `G` says which calls are allowed in a
ghost state, what may be relied on about their answers, and how an answer moves the ghost state;
`Obeys P Q g p` says that `p`, started in `g`, keeps to `P` whatever such answers it gets and ends in
a ghost state and outcome satisfying `Q`.
-/
namespace Async

inductive Prog (A : Type) (R : A → Type) (ε α : Type) : Type where
  | ret (x : α)
  | throw (e : ε)
  | call (a : A) (k : R a → Prog A R ε α)

variable {A : Type} {R : A → Type} {ε ε' α β γ Ω S G : Type}

namespace Prog

def bind : Prog A R ε α → (α → Prog A R ε β) → Prog A R ε β
  | ret x, f => f x
  | throw e, _ => throw e
  | call a k, f => call a fun r => (k r).bind f

/-- `try p catch (e) h(e)`. -/
def tryCatch : Prog A R ε α → (ε → Prog A R ε α) → Prog A R ε α
  | ret x, _ => ret x
  | throw e, h => h e
  | call a k, h => call a fun r => (k r).tryCatch h

instance : Monad (Prog A R ε) where
  pure := ret
  bind := bind

instance : MonadExceptOf ε (Prog A R ε) where
  throw := throw
  tryCatch := tryCatch

def ofExcept : Except ε α → Prog A R ε α
  | .ok x => ret x
  | .error e => throw e

/-- `await a`, for calls answered with a result or with an error, which is rethrown. -/
def await {Ans : A → Type} (a : A) : Prog A (fun a => Except ε (Ans a)) ε (Ans a) := call a ofExcept

@[simp] theorem pure_def (x : α) : (pure x : Prog A R ε α) = ret x := rfl
@[simp] theorem bind_def (p : Prog A R ε α) (f : α → Prog A R ε β) : p >>= f = p.bind f := rfl
@[simp] theorem throw_def (e : ε) : (MonadExcept.throw e : Prog A R ε α) = throw e := rfl

@[simp] theorem ret_bind (x : α) (f : α → Prog A R ε β) : (ret x).bind f = f x := rfl
@[simp] theorem ofExcept_ok (x : α) : (ofExcept (.ok x) : Prog A R ε α) = ret x := rfl

@[simp] theorem bind_ret (p : Prog A R ε α) : p.bind ret = p := by
  induction p with
  | ret x => rfl
  | throw e => rfl
  | call a k ih => simp [bind, ih]

theorem bind_assoc (p : Prog A R ε α) (f : α → Prog A R ε β) (g : β → Prog A R ε γ) :
    (p.bind f).bind g = p.bind fun x => (f x).bind g := by
  induction p with
  | ret x => rfl
  | throw e => rfl
  | call a k ih => simp [bind, ih]

/-- The program has come to its end. -/
def ended : Prog A R ε α → Bool
  | call .. => false
  | _ => true

end Prog

/-! ## Running one program alone -/

/-- What one awaited call answers and does to the store, given the oracle's choice. -/
abbrev Handler (A : Type) (R : A → Type) (Ω S : Type) := (a : A) → Ω → S → R a × S

namespace Prog
variable (h : Handler A R Ω S) (ω : Nat → Ω)

/-- Run from call number `n`: the outcome, the number of the next call, and the store. -/
def run : Prog A R ε α → Nat → S → Except ε α × Nat × S
  | ret x, n, s => (.ok x, n, s)
  | throw e, n, s => (.error e, n, s)
  | call a k, n, s => run (k (h a (ω n) s).1) (n + 1) (h a (ω n) s).2

@[simp] theorem run_ret (x : α) (n : Nat) (s : S) :
    (ret x : Prog A R ε α).run h ω n s = (.ok x, n, s) := rfl
@[simp] theorem run_throw (e : ε) (n : Nat) (s : S) :
    (throw e : Prog A R ε α).run h ω n s = (.error e, n, s) := rfl
theorem run_call (a : A) (k : R a → Prog A R ε α) (n : Nat) (s : S) :
    (call a k).run h ω n s = (k (h a (ω n) s).1).run h ω (n + 1) (h a (ω n) s).2 := rfl

/-- The store when the run is cut short after `k` calls, or ends before. -/
def upTo : Prog A R ε α → Nat → Nat → S → S
  | call a k, j + 1, n, s => upTo (k (h a (ω n) s).1) j (n + 1) (h a (ω n) s).2
  | _, _, _, s => s

@[simp] theorem upTo_zero (p : Prog A R ε α) (n : Nat) (s : S) : p.upTo h ω 0 n s = s := by cases p <;> rfl

theorem upTo_call (a : A) (c : R a → Prog A R ε α) (k n : Nat) (s : S) :
    (call a c).upTo h ω (k + 1) n s = (c (h a (ω n) s).1).upTo h ω k (n + 1) (h a (ω n) s).2 := rfl

theorem upTo_run (p : Prog A R ε α) (n : Nat) (s : S) : ∃ k, p.upTo h ω k n s = (p.run h ω n s).2.2 := by
  induction p generalizing n s with
  | ret x => exact ⟨0, rfl⟩
  | throw e => exact ⟨0, rfl⟩
  | call a c ih =>
    obtain ⟨k, hk⟩ := ih (h a (ω n) s).1 (n + 1) (h a (ω n) s).2
    exact ⟨k + 1, hk⟩

theorem run_bind (p : Prog A R ε α) (f : α → Prog A R ε β) (n : Nat) (s : S) :
    (p.bind f).run h ω n s =
      match p.run h ω n s with
      | (.ok x, m, t) => (f x).run h ω m t
      | (.error e, m, t) => (.error e, m, t) := by
  induction p generalizing n s with
  | ret x => rfl
  | throw e => rfl
  | call a k ih => exact ih _ _ _

theorem run_bind_of_ok {p : Prog A R ε α} (f : α → Prog A R ε β) {n m : Nat} {s t : S} {x : α}
    (hp : p.run h ω n s = (.ok x, m, t)) : (p.bind f).run h ω n s = (f x).run h ω m t := by
  rw [run_bind, hp]

theorem run_bind_of_error {p : Prog A R ε α} (f : α → Prog A R ε β) {n m : Nat} {s t : S} {e : ε}
    (hp : p.run h ω n s = (.error e, m, t)) : (p.bind f).run h ω n s = (.error e, m, t) := by
  rw [run_bind, hp]

theorem ok_of_run_bind {p : Prog A R ε α} {f : α → Prog A R ε β} {n m : Nat} {s t : S} {y : β}
    (h' : (p.bind f).run h ω n s = (.ok y, m, t)) :
    ∃ x m' t', p.run h ω n s = (.ok x, m', t') ∧ (f x).run h ω m' t' = (.ok y, m, t) := by
  rcases hp : p.run h ω n s with ⟨out, m', t'⟩
  cases out with
  | error e =>
    rw [run_bind_of_error h ω f hp] at h'
    cases h'
  | ok x => exact ⟨x, m', t', rfl, run_bind_of_ok h ω f hp ▸ h'⟩

theorem run_tryCatch (p : Prog A R ε α) (c : ε → Prog A R ε α) (n : Nat) (s : S) :
    (p.tryCatch c).run h ω n s =
      match p.run h ω n s with
      | (.ok x, m, t) => (.ok x, m, t)
      | (.error e, m, t) => (c e).run h ω m t := by
  induction p generalizing n s with
  | ret x => rfl
  | throw e => rfl
  | call a k ih => exact ih _ _ _

@[simp] theorem run_ofExcept (r : Except ε α) (n : Nat) (s : S) :
    (ofExcept r : Prog A R ε α).run h ω n s = (r, n, s) := by
  cases r <;> rfl

/-- Awaiting one call: the handler's answer is the outcome. -/
@[simp] theorem run_await {Ans : A → Type} (h : Handler A (fun a => Except ε (Ans a)) Ω S) (a : A)
    (n : Nat) (s : S) : (await a).run h ω n s = ((h a (ω n) s).1, n + 1, (h a (ω n) s).2) := by
  rw [await, run_call, run_ofExcept]

theorem ok_of_run_await {Ans : A → Type} {h : Handler A (fun a => Except ε (Ans a)) Ω S} {a : A} {n m : Nat} {s t : S}
    {x : Ans a} (hp : (await a).run h ω n s = (.ok x, m, t)) : h a (ω n) s = (.ok x, t) := by
  rw [run_await] at hp
  obtain ⟨hanswer, hrest⟩ := Prod.mk.inj hp
  exact Prod.ext hanswer (Prod.mk.inj hrest).2

/-- One call and the rest, when its answer is known. -/
theorem run_await_bind_of_ok {Ans : A → Type} {h : Handler A (fun a => Except ε (Ans a)) Ω S} {a : A} {n : Nat}
    {s t : S} {x : Ans a} (hcall : h a (ω n) s = (.ok x, t))
    (f : Ans a → Prog A (fun a => Except ε (Ans a)) ε β) :
    ((await a).bind f).run h ω n s = (f x).run h ω (n + 1) t := by
  rw [run_bind, run_await, hcall]

theorem run_await_bind_of_error {Ans : A → Type} {h : Handler A (fun a => Except ε (Ans a)) Ω S} {a : A} {n : Nat}
    {s t : S} {e : ε} (hcall : h a (ω n) s = (.error e, t))
    (f : Ans a → Prog A (fun a => Except ε (Ans a)) ε β) :
    ((await a).bind f).run h ω n s = (.error e, n + 1, t) := by
  rw [run_bind, run_await, hcall]

theorem run_tryCatch_of_ok {p : Prog A R ε α} (c : ε → Prog A R ε α) {n m : Nat} {s t : S} {x : α}
    (hp : p.run h ω n s = (.ok x, m, t)) : (p.tryCatch c).run h ω n s = (.ok x, m, t) := by
  rw [run_tryCatch, hp]

theorem run_tryCatch_of_error {p : Prog A R ε α} (c : ε → Prog A R ε α) {n m : Nat} {s t : S} {e : ε}
    (hp : p.run h ω n s = (.error e, m, t)) : (p.tryCatch c).run h ω n s = (c e).run h ω m t := by
  rw [run_tryCatch, hp]

/-- The run resolves, with an answer and in a store as `Q` says. -/
def Returns (Q : α → S → Prop) (p : Prog A R ε α) (n : Nat) (s : S) : Prop :=
  ∃ x m t, p.run h ω n s = (.ok x, m, t) ∧ Q x t

section
variable {h ω} {Q : α → S → Prop} {Q' : β → S → Prop} {n : Nat} {s : S}

/-- A run that can be evaluated shows whether it resolves. -/
theorem returns_of_toBool {p : Prog A R ε α} (hp : (p.run h ω n s).1.toBool = true) :
    ∃ x m t, p.run h ω n s = (.ok x, m, t) := by
  rcases hrun : p.run h ω n s with ⟨e | x, m, t⟩
  · rw [hrun] at hp
    cases hp
  · exact ⟨x, m, t, rfl⟩

/-- Where the result does not matter. -/
theorem Returns.exists_run {p : Prog A R ε α} (hp : p.Returns h ω Q n s) : ∃ x m t, p.run h ω n s = (.ok x, m, t) := by
  obtain ⟨x, m, t, hrun, -⟩ := hp
  exact ⟨x, m, t, hrun⟩

theorem Returns.ret {x : α} (hx : Q x s) : (Prog.ret x : Prog A R ε α).Returns h ω Q n s := ⟨x, n, s, rfl, hx⟩

theorem Returns.bind {p : Prog A R ε α} {f : α → Prog A R ε β} (hp : p.Returns h ω Q n s)
    (hf : ∀ x m t, Q x t → (f x).Returns h ω Q' m t) : (p.bind f).Returns h ω Q' n s := by
  obtain ⟨x, m, t, hrun, hx⟩ := hp
  obtain ⟨y, m', t', hrest, hy⟩ := hf x m t hx
  exact ⟨y, m', t', (run_bind_of_ok h ω f hrun).trans hrest, hy⟩

theorem Returns.await {Ans : A → Type} {h : Handler A (fun a => Except ε (Ans a)) Ω S} {a : A}
    {Q : Ans a → S → Prop} {x : Ans a} {t : S} (hcall : h a (ω n) s = (.ok x, t)) (hx : Q x t) :
    (Prog.await a).Returns h ω Q n s := by
  refine ⟨x, n + 1, t, ?_, hx⟩
  rw [run_await, hcall]

theorem Returns.await_bind {Ans : A → Type} {h : Handler A (fun a => Except ε (Ans a)) Ω S} {a : A} {x : Ans a} {t : S}
    {f : Ans a → Prog A (fun a => Except ε (Ans a)) ε β} (hcall : h a (ω n) s = (.ok x, t))
    (hf : (f x).Returns h ω Q' (n + 1) t) : ((Prog.await a).bind f).Returns h ω Q' n s := by
  obtain ⟨y, m, t', hrest, hy⟩ := hf
  exact ⟨y, m, t', (run_await_bind_of_ok ω hcall f).trans hrest, hy⟩

end

/-- What both parts of a run keep, the whole run keeps. -/
theorem run_bind_inv {I : S → Prop} {p : Prog A R ε α} {f : α → Prog A R ε β}
    (hp : ∀ n s, I s → I (p.run h ω n s).2.2) (hf : ∀ x n s, I s → I ((f x).run h ω n s).2.2) (n : Nat) (s : S)
    (hs : I s) : I ((p.bind f).run h ω n s).2.2 := by
  have hmid := hp n s hs
  rcases hrun : p.run h ω n s with ⟨e | x, m, t⟩
  · rw [run_bind_of_error h ω f hrun]
    rwa [hrun] at hmid
  · rw [run_bind_of_ok h ω f hrun]
    rw [hrun] at hmid
    exact hf x m t hmid

theorem run_forM_inv {I : S → Prop} {f : β → Prog A R ε Unit} {xs : List β}
    (hf : ∀ x ∈ xs, ∀ n s, I s → I ((f x).run h ω n s).2.2) (n : Nat) (s : S) (hs : I s) :
    I ((xs.forM f).run h ω n s).2.2 := by
  induction xs generalizing n s with
  | nil => exact hs
  | cons x xs ih =>
    exact run_bind_inv h ω (hf x List.mem_cons_self)
      (fun _ => ih fun y hy => hf y (List.mem_cons_of_mem x hy)) n s hs

/-- The stores in which the calls are made. -/
def trace : Prog A R ε α → Nat → S → List S
  | ret _, _, _ => []
  | throw _, _, _ => []
  | call a k, n, s => s :: trace (k (h a (ω n) s).1) (n + 1) (h a (ω n) s).2

theorem trace_bind (p : Prog A R ε α) (f : α → Prog A R ε β) (n : Nat) (s : S) :
    (p.bind f).trace h ω n s = p.trace h ω n s ++
      match p.run h ω n s with
      | (.ok x, m, t) => (f x).trace h ω m t
      | (.error _, _, _) => [] := by
  induction p generalizing n s with
  | ret x => rfl
  | throw e => rfl
  | call a k ih => exact congrArg (s :: ·) (ih _ _ _)

@[simp] theorem trace_await {Ans : A → Type} (h : Handler A (fun a => Except ε (Ans a)) Ω S) (a : A)
    (n : Nat) (s : S) : (await a).trace h ω n s = [s] := by
  unfold await trace
  cases (h a (ω n) s).1 <;> rfl

/-- Every store that the run passes through, oldest first. -/
def history (p : Prog A R ε α) (n : Nat) (s : S) : List S := p.trace h ω n s ++ [(p.run h ω n s).2.2]

@[simp] theorem history_ret (x : α) (n : Nat) (s : S) :
    (ret x : Prog A R ε α).history h ω n s = [s] := rfl
@[simp] theorem history_throw (e : ε) (n : Nat) (s : S) :
    (throw e : Prog A R ε α).history h ω n s = [s] := rfl
theorem history_call (a : A) (k : R a → Prog A R ε α) (n : Nat) (s : S) :
    (call a k).history h ω n s = s :: (k (h a (ω n) s).1).history h ω (n + 1) (h a (ω n) s).2 := rfl

/-- The last store of the first part is the first one of the second. -/
theorem history_bind (p : Prog A R ε α) (f : α → Prog A R ε β) (n : Nat) (s : S) :
    (p.bind f).history h ω n s =
      match p.run h ω n s with
      | (.ok x, m, t) => p.trace h ω n s ++ (f x).history h ω m t
      | (.error _, _, _) => p.history h ω n s := by
  rw [history, history, run_bind, trace_bind]
  rcases p.run h ω n s with ⟨x | e, m, t⟩
  · rw [List.append_nil]
  · exact List.append_assoc ..

theorem history_tryCatch (p : Prog A R ε α) (c : ε → Prog A R ε α) (n : Nat) (s : S) :
    (p.tryCatch c).history h ω n s =
      match p.run h ω n s with
      | (.ok _, _, _) => p.history h ω n s
      | (.error e, m, t) => p.trace h ω n s ++ (c e).history h ω m t := by
  induction p generalizing n s with
  | ret x => rfl
  | throw e => rfl
  | call a k ih =>
    rw [tryCatch, history_call, ih, run_call]
    split <;> rfl

theorem history_bind_of_ok {p : Prog A R ε α} (f : α → Prog A R ε β) {n m : Nat} {s t : S} {x : α}
    (hp : p.run h ω n s = (.ok x, m, t)) :
    (p.bind f).history h ω n s = p.trace h ω n s ++ (f x).history h ω m t := by
  rw [history_bind, hp]

theorem history_tryCatch_of_ok {p : Prog A R ε α} (c : ε → Prog A R ε α) {n m : Nat} {s t : S} {x : α}
    (hp : p.run h ω n s = (.ok x, m, t)) : (p.tryCatch c).history h ω n s = p.history h ω n s := by
  rw [history_tryCatch, hp]

section
variable {h ω}

theorem start_mem_history (p : Prog A R ε α) (n : Nat) (s : S) : s ∈ p.history h ω n s := by
  cases p <;> simp [history_call]

theorem mem_history_of_run {p : Prog A R ε α} {n m : Nat} {s t : S} {out : Except ε α}
    (hp : p.run h ω n s = (out, m, t)) : t ∈ p.history h ω n s := by
  rw [history, hp]
  exact List.mem_append_right _ (List.mem_singleton_self t)

theorem trace_subset_history (p : Prog A R ε α) (n : Nat) (s : S) : p.trace h ω n s ⊆ p.history h ω n s :=
  List.subset_append_left _ _

theorem mem_history_bind {p : Prog A R ε α} {f : α → Prog A R ε β} {n : Nat} {s t : S} :
    t ∈ (p.bind f).history h ω n s ↔
      t ∈ p.history h ω n s ∨ ∃ x m u, p.run h ω n s = (.ok x, m, u) ∧ t ∈ (f x).history h ω m u := by
  rw [history_bind]
  rcases hrun : p.run h ω n s with ⟨out, m, u⟩
  cases out with
  | error e => simp
  | ok x =>
    have hu : t = u → t ∈ (f x).history h ω m u := fun hu => hu ▸ start_mem_history _ _ _
    simp only [history, hrun, List.mem_append, List.mem_singleton, Prod.mk.injEq, Except.ok.injEq]
    constructor
    · rintro (ht | ht)
      · exact .inl (.inl ht)
      · exact .inr ⟨x, m, u, ⟨rfl, rfl, rfl⟩, ht⟩
    · rintro ((ht | ht) | ⟨_, _, _, ⟨rfl, rfl, rfl⟩, ht⟩)
      · exact .inl ht
      · exact .inr (by simpa [history] using hu ht)
      · exact .inr ht

theorem mem_history_tryCatch {p : Prog A R ε α} {c : ε → Prog A R ε α} {n : Nat} {s t : S} :
    t ∈ (p.tryCatch c).history h ω n s ↔
      t ∈ p.history h ω n s ∨ ∃ e m u, p.run h ω n s = (.error e, m, u) ∧ t ∈ (c e).history h ω m u := by
  rw [history_tryCatch]
  rcases hrun : p.run h ω n s with ⟨out, m, u⟩
  cases out with
  | ok x => simp
  | error e =>
    have hu : t = u → t ∈ (c e).history h ω m u := fun hu => hu ▸ start_mem_history _ _ _
    simp only [history, hrun, List.mem_append, List.mem_singleton, Prod.mk.injEq, Except.error.injEq]
    constructor
    · rintro (ht | ht)
      · exact .inl (.inl ht)
      · exact .inr ⟨e, m, u, ⟨rfl, rfl, rfl⟩, ht⟩
    · rintro ((ht | ht) | ⟨_, _, _, ⟨rfl, rfl, rfl⟩, ht⟩)
      · exact .inl ht
      · exact .inr (by simpa [history] using hu ht)
      · exact .inr ht

end

end Prog

/-! ## The program logic -/

/-- A discipline on calls: which ones a program in ghost state `g` may make, what their answers
satisfy, and where an answer takes the ghost state. -/
structure Protocol (A : Type) (R : A → Type) (G : Type) where
  ok : G → A → Prop
  rely : (a : A) → R a → Prop
  next : G → (a : A) → R a → G

namespace Prog

def Obeys (P : Protocol A R G) (Q : G → Except ε α → Prop) : G → Prog A R ε α → Prop
  | g, ret x => Q g (.ok x)
  | g, throw e => Q g (.error e)
  | g, call a k => P.ok g a ∧ ∀ r, P.rely a r → Obeys P Q (P.next g a r) (k r)

variable {P : Protocol A R G} {Q Q' : G → Except ε α → Prop} {g : G}

theorem Obeys.mono {p : Prog A R ε α} (hp : p.Obeys P Q g) (hQ : ∀ g out, Q g out → Q' g out) :
    p.Obeys P Q' g := by
  induction p generalizing g with
  | ret x => exact hQ _ _ hp
  | throw e => exact hQ _ _ hp
  | call a k ih => exact ⟨hp.1, fun r hr => ih r (hp.2 r hr)⟩

/-- What `p` must establish for `p.bind f` to end in `Q`. -/
def BindPost (P : Protocol A R G) (Q : G → Except ε β → Prop) (f : α → Prog A R ε β) :
    G → Except ε α → Prop
  | g, .ok x => (f x).Obeys P Q g
  | g, .error e => Q g (.error e)

theorem Obeys.bind {Q : G → Except ε β → Prop} {p : Prog A R ε α} {f : α → Prog A R ε β}
    (hp : p.Obeys P (BindPost P Q f) g) : (p.bind f).Obeys P Q g := by
  induction p generalizing g with
  | ret x => exact hp
  | throw e => exact hp
  | call a k ih => exact ⟨hp.1, fun r hr => ih r (hp.2 r hr)⟩

/-- What `p` must establish for `p.tryCatch c` to end in `Q`. -/
def CatchPost (P : Protocol A R G) (Q : G → Except ε α → Prop) (c : ε → Prog A R ε α) :
    G → Except ε α → Prop
  | g, .ok x => Q g (.ok x)
  | g, .error e => (c e).Obeys P Q g

theorem Obeys.tryCatch {p : Prog A R ε α} {c : ε → Prog A R ε α}
    (hp : p.Obeys P (CatchPost P Q c) g) : (p.tryCatch c).Obeys P Q g := by
  induction p generalizing g with
  | ret x => exact hp
  | throw e => exact hp
  | call a k ih => exact ⟨hp.1, fun r hr => ih r (hp.2 r hr)⟩

theorem obeys_await {Ans : A → Type} {P : Protocol A (fun a => Except ε (Ans a)) G} {a : A}
    {Q : G → Except ε (Ans a) → Prop} {g : G} :
    (await a).Obeys P Q g ↔ P.ok g a ∧ ∀ r, P.rely a r → Q (P.next g a r) r := by
  refine and_congr_right fun _ => forall_congr' fun r => imp_congr_right fun _ => ?_
  cases r <;> rfl

/-- Alone, against a handler that gives such answers and relates the store before each call to the
store after it by a preorder, `p` ends as promised and relates the stores as a whole. Frame conditions
and invariants are instances. -/
theorem Obeys.run {h : Handler A R Ω S} {ω : Nat → Ω} {r : S → S → Prop} (hrefl : ∀ s, r s s)
    (htrans : ∀ s t u, r s t → r t u → r s u)
    (hcall : ∀ g a o s, P.ok g a → P.rely a (h a o s).1 ∧ r s (h a o s).2)
    {p : Prog A R ε α} (hp : p.Obeys P Q g) (n : Nat) (s : S) :
    (∃ g', Q g' (p.run h ω n s).1) ∧ r s (p.run h ω n s).2.2 := by
  induction p generalizing g n s with
  | ret x => exact ⟨⟨g, hp⟩, hrefl s⟩
  | throw e => exact ⟨⟨g, hp⟩, hrefl s⟩
  | call a k ih =>
    obtain ⟨hrely, hrel⟩ := hcall g a (ω n) s hp.1
    obtain ⟨hout, hrest⟩ := ih _ (hp.2 _ hrely) (n + 1) (h a (ω n) s).2
    exact ⟨hout, htrans _ _ _ hrel hrest⟩

/-- The same for every store that the run passes through. -/
theorem Obeys.history {h : Handler A R Ω S} {ω : Nat → Ω} {r : S → S → Prop} (hrefl : ∀ s, r s s)
    (htrans : ∀ s t u, r s t → r t u → r s u)
    (hcall : ∀ g a o s, P.ok g a → P.rely a (h a o s).1 ∧ r s (h a o s).2)
    {p : Prog A R ε α} (hp : p.Obeys P Q g) (n : Nat) (s : S) : ∀ t ∈ p.history h ω n s, r s t := by
  induction p generalizing g n s with
  | ret x => simpa using hrefl s
  | throw e => simpa using hrefl s
  | call a k ih =>
    obtain ⟨hrely, hrel⟩ := hcall g a (ω n) s hp.1
    intro t ht
    rw [history_call] at ht
    rcases List.mem_cons.1 ht with rfl | ht
    · exact hrefl _
    · exact htrans _ _ _ hrel (ih _ (hp.2 _ hrely) (n + 1) _ t ht)

end Prog

/-! ### Disciplines without ghost state

`p.Only ok E`: every call `p` can make satisfies `ok`, and if calls fail only with errors in `E` then
so does `p`. -/

section Only
variable {Ans : A → Type}

def only (ok : A → Prop) (E : ε → Prop) : Protocol A (fun a => Except ε (Ans a)) Unit :=
  ⟨fun _ => ok, fun _ r => ∀ e, r = .error e → E e, fun g _ _ => g⟩

abbrev Prog.Only (ok : A → Prop) (E : ε → Prop) (p : Prog A (fun a => Except ε (Ans a)) ε α) : Prop :=
  p.Obeys (only ok E) (fun _ out => ∀ e, out = .error e → E e) ()

namespace Prog
variable {ok : A → Prop} {E : ε → Prop}

theorem Only.ret (x : α) : (ret x : Prog A (fun a => Except ε (Ans a)) ε α).Only ok E := nofun

theorem Only.throw {e : ε} (he : E e) : (throw e : Prog A (fun a => Except ε (Ans a)) ε α).Only ok E :=
  fun _ h => Except.error.inj h ▸ he

theorem Only.bind {p : Prog A (fun a => Except ε (Ans a)) ε α}
    {f : α → Prog A (fun a => Except ε (Ans a)) ε β} (hp : p.Only ok E) (hf : ∀ x, (f x).Only ok E) :
    (p.bind f).Only ok E :=
  Obeys.bind (hp.mono fun _ out hout => match out with
    | .ok x => hf x
    | .error _ => fun e' he' => hout e' (congrArg _ (Except.error.inj he')))

theorem Only.tryCatch {p : Prog A (fun a => Except ε (Ans a)) ε α}
    {c : ε → Prog A (fun a => Except ε (Ans a)) ε α} (hp : p.Only ok E) (hc : ∀ e, E e → (c e).Only ok E) :
    (p.tryCatch c).Only ok E :=
  Obeys.tryCatch (hp.mono fun _ out hout => match out with
    | .ok _ => nofun
    | .error e => hc e (hout e rfl))

theorem Only.await {a : A} (ha : ok a) :
    (await a : Prog A (fun a => Except ε (Ans a)) ε (Ans a)).Only ok E :=
  obeys_await.2 ⟨ha, fun _ hr => hr⟩

theorem Only.forM {f : β → Prog A (fun a => Except ε (Ans a)) ε Unit} (hf : ∀ x, (f x).Only ok E)
    (xs : List β) : (xs.forM f).Only ok E := by
  induction xs with
  | nil => exact Only.ret _
  | cons x xs ih => exact Only.bind (hf x) fun _ => ih

/-- What every call keeps that the program may make, its run keeps. -/
theorem Only.run_inv {p : Prog A (fun a => Except ε (Ans a)) ε α} (hp : p.Only ok fun _ => True)
    {h : Handler A (fun a => Except ε (Ans a)) Ω S} (ω : Nat → Ω) {I : S → Prop}
    (hcall : ∀ a o s, ok a → I s → I (h a o s).2) (n : Nat) (s : S) (hs : I s) : I (p.run h ω n s).2.2 := by
  have hrun : _ ∧ (I s → I (p.run h ω n s).2.2) := Obeys.run (r := fun s t => I s → I t) (fun _ => id)
    (fun _ _ _ hst htu => htu ∘ hst) (fun _ a o s ha => ⟨fun _ _ => trivial, hcall a o s ha⟩) hp n s
  exact hrun.2 hs

theorem only_true (p : Prog A (fun a => Except ε (Ans a)) ε α) : p.Only (fun _ => True) fun _ => True := by
  induction p with
  | ret x => exact Only.ret x
  | throw e => exact Only.throw trivial
  | call a k ih => exact ⟨trivial, fun r _ => ih r⟩

/-- A program that makes only calls that `P` allows in every ghost state keeps to `P`. -/
theorem Only.obeys {p : Prog A (fun a => Except ε (Ans a)) ε α} (hp : p.Only ok fun _ => True)
    {P : Protocol A (fun a => Except ε (Ans a)) G} (hok : ∀ g a, ok a → P.ok g a) (g : G) :
    p.Obeys P (fun _ _ => True) g := by
  induction p generalizing g with
  | ret x => trivial
  | throw e => trivial
  | call a k ih => exact ⟨hok g a hp.1, fun r _ => ih r (hp.2 r fun _ _ => trivial) _⟩

/-- The same where its calls leave the ghost state as it is. -/
theorem Only.obeys_still {p : Prog A (fun a => Except ε (Ans a)) ε α} (hp : p.Only ok fun _ => True)
    {P : Protocol A (fun a => Except ε (Ans a)) G} {g : G}
    (hok : ∀ a, ok a → P.ok g a ∧ ∀ r, P.next g a r = g) :
    p.Obeys P (fun g' _ => g' = g) g := by
  induction p with
  | ret x => rfl
  | throw e => rfl
  | call a k ih =>
    obtain ⟨ha, hnext⟩ := hok a hp.1
    refine ⟨ha, fun r _ => ?_⟩
    rw [hnext r]
    exact ih r (hp.2 r fun _ _ => trivial)

/-- The same where they move it along a preorder. -/
theorem Only.obeys_along {p : Prog A (fun a => Except ε (Ans a)) ε α} (hp : p.Only ok fun _ => True)
    {P : Protocol A (fun a => Except ε (Ans a)) G} {r : G → G → Prop} (hrefl : ∀ g, r g g)
    (htrans : ∀ g g' g'', r g g' → r g' g'' → r g g'')
    (hok : ∀ g a, ok a → P.ok g a ∧ ∀ ans, r g (P.next g a ans)) (g : G) :
    p.Obeys P (fun g' _ => r g g') g := by
  induction p generalizing g with
  | ret x => exact hrefl g
  | throw e => exact hrefl g
  | call a k ih =>
    obtain ⟨ha, hnext⟩ := hok g a hp.1
    refine ⟨ha, fun ans _ => ?_⟩
    exact (ih ans (hp.2 ans fun _ _ => trivial) _).mono fun g' _ hg' => htrans _ _ _ (hnext ans) hg'

theorem Only.weaken {ok' : A → Prop} {p : Prog A (fun a => Except ε (Ans a)) ε α} (hp : p.Only ok fun _ => True)
    (hok : ∀ a, ok a → ok' a) : p.Only ok' fun _ => True :=
  (hp.obeys (fun _ => hok) ()).mono fun _ _ _ _ _ => trivial

end Prog

end Only

end Async
