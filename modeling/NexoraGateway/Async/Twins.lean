import NexoraGateway.Async.Prog
import NexoraGateway.Store.Atomic

/-!
# Two runs side by side

The same program runs on two stores that are related. When each call that it makes is answered the same in both and
leaves them related, so does the whole run: `Prog.Only.twins`. For a call that is one atomic statement, `Twin` compares
its bodies, one bind at a time.
-/
namespace Async

open Store

variable {S ε α β : Type}

/-- Two bodies fail alike, or answer the same in related stores. -/
def Twin (rel : S → S → Prop) : Except ε (α × S) → Except ε (α × S) → Prop
  | .ok r, .ok r' => r.1 = r'.1 ∧ rel r.2 r'.2
  | .error e, .error e' => e = e'
  | _, _ => False

variable {rel : S → S → Prop}

theorem twin_error (e : ε) : Twin rel (.error e : Except ε (α × S)) (.error e) := rfl

theorem twin_ok {s s' : S} (x : α) (h : rel s s') : Twin rel (.ok (x, s) : Except ε (α × S)) (.ok (x, s')) := ⟨rfl, h⟩

/-- First the same step. -/
theorem twin_bind (p : Except ε β) {f f' : β → Except ε (α × S)} (h : ∀ x, p = .ok x → Twin rel (f x) (f' x)) :
    Twin rel (p >>= f) (p >>= f') := by
  cases p with
  | error e => exact twin_error e
  | ok x => exact h x rfl

/-- First two bodies that are twins, and then the same. -/
theorem Twin.bind {p p' : Except ε (β × S)} (hp : Twin rel p p') {f : β × S → Except ε (α × S)}
    (hf : ∀ x s s', rel s s' → Twin rel (f (x, s)) (f (x, s'))) : Twin rel (p >>= f) (p' >>= f) := by
  rcases p with e | ⟨x, s⟩
  · rcases p' with e' | r'
    · obtain rfl : e = e' := hp
      exact twin_error e
    · exact hp.elim
  · rcases p' with e' | ⟨x', s'⟩
    · exact hp.elim
    · obtain ⟨rfl, hrel⟩ : x = x' ∧ rel s s' := hp
      exact hf x s s' hrel

/-- Two answers are the same, and the stores are related. -/
def Agree (rel : S → S → Prop) (r r' : α × S) : Prop := r.1 = r'.1 ∧ rel r.2 r'.2

theorem Twin.atomically {s s' : S} (hrel : rel s s') {body body' : S → Except ε (α × S)}
    (h : Twin rel (body s) (body' s')) : Agree rel (atomically body s) (Store.atomically body' s') := by
  unfold Store.atomically
  rcases hbody : body s with e | ⟨x, t⟩
  · rcases hbody' : body' s' with e' | r'
    · rw [hbody, hbody'] at h
      obtain rfl : e = e' := h
      exact ⟨rfl, hrel⟩
    · rw [hbody, hbody'] at h
      exact h.elim
  · rcases hbody' : body' s' with e' | ⟨x', t'⟩
    · rw [hbody, hbody'] at h
      exact h.elim
    · rw [hbody, hbody'] at h
      obtain ⟨rfl, ht⟩ : x = x' ∧ rel t t' := h
      exact ⟨rfl, ht⟩

/-- **The rule of two runs.** -/
theorem Prog.Only.twins {A Ω : Type} {Ans : A → Type} {h : Handler A (fun a => Except ε (Ans a)) Ω S} {ω : Nat → Ω}
    {ok : A → Prop} (hcall : ∀ a n s s', ok a → rel s s' → Agree rel (h a (ω n) s) (h a (ω n) s'))
    {p : Prog A (fun a => Except ε (Ans a)) ε α} (hp : p.Only ok fun _ => True) (n : Nat) {s s' : S} (hs : rel s s') :
    Agree (fun r r' => r.1 = r'.1 ∧ rel r.2 r'.2) (p.run h ω n s) (p.run h ω n s') := by
  induction p generalizing n s s' with
  | ret x => exact ⟨rfl, rfl, hs⟩
  | throw e => exact ⟨rfl, rfl, hs⟩
  | call a k ih =>
    obtain ⟨hsame, hrel⟩ := hcall a n s s' hp.1 hs
    rw [run_call, run_call, ← hsame]
    exact ih _ (hp.2 _ fun _ _ => trivial) (n + 1) hrel

end Async
