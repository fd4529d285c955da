import NexoraGateway.Async.Pool
import NexoraGateway.Async.Runs

/-!
# Watching a pool

`observe h note i` is the step of a pool beside which somebody notes the calls of task `i` and their answers. When these
notes are the ghost states of a protocol that the task keeps to, they say how far it has got: `observe_keeps`.
-/
namespace Async.Pool

variable {A : Type} {R : A → Type} {ε α Ω S G : Type}

section
variable (h : Handler A R Ω S) (note : G → (a : A) → R a → G) (i : Nat)

def observe : Pool A R ε α S × G → Choice A R ε α Ω → Pool A R ε α S × G :=
  noted h fun g j a r => if j = i then note g a r else g

end

variable {h : Handler A R Ω S} {note : G → (a : A) → R a → G} {i : Nat} {P : Protocol A R G}
  {Q : G → Except ε α → Prop} {s : Pool A R ε α S × G}

/-- A choice is a call of the task, or it leaves the task and the notes as they are. -/
theorem observe_cases (c : Choice A R ε α Ω) {p : Prog A R ε α} (hp : s.1.tasks[i]? = some p) :
    (∃ o a k, c = .step i o ∧ p = .call a k ∧
      observe h note i s c =
        (⟨(h a o s.1.store).2, s.1.tasks.set i (k (h a o s.1.store).1)⟩, note s.2 a (h a o s.1.store).1)) ∨
    (observe h note i s c).2 = s.2 ∧ (observe h note i s c).1.tasks[i]? = some p := by
  have hlt : i < s.1.tasks.length := (List.getElem?_eq_some_iff.1 hp).1
  rcases noted_cases h (fun g j a r => if j = i then note g a r else g) s c with
    ⟨q, rfl, hnext⟩ | ⟨j, o, a, k, rfl, hj, hnext⟩ | hnext
  · refine .inr ⟨by rw [observe, hnext], ?_⟩
    rw [observe, hnext, List.getElem?_append_left hlt, hp]
  · by_cases hji : j = i
    · subst hji
      obtain rfl : p = .call a k := Option.some.inj (hp.symm.trans hj)
      exact .inl ⟨o, a, k, rfl, rfl, by rw [observe, hnext, if_pos rfl]⟩
    · refine .inr ⟨by rw [observe, hnext, if_neg hji], ?_⟩
      rw [observe, hnext, List.getElem?_set_ne hji, hp]
  · refine .inr ⟨by rw [observe, hnext], ?_⟩
    rw [observe, hnext, hp]

/-- Task `i` keeps to `P` from what has been noted. -/
def Keeps (P : Protocol A R G) (Q : G → Except ε α → Prop) (i : Nat) (s : Pool A R ε α S × G) : Prop :=
  ∃ p, s.1.tasks[i]? = some p ∧ p.Obeys P Q s.2

theorem observe_keeps (hs : Keeps P Q i s) (hrely : ∀ a o t, P.rely a (h a o t).1) (c : Choice A R ε α Ω) :
    Keeps P Q i (observe h P.next i s c) := by
  obtain ⟨p, hp, hobeys⟩ := hs
  have hlt : i < s.1.tasks.length := (List.getElem?_eq_some_iff.1 hp).1
  rcases @observe_cases _ _ _ _ _ _ _ h P.next i s c p hp with ⟨o, a, k, rfl, rfl, hnext⟩ | ⟨hnote, htask⟩
  · rw [hnext]
    exact ⟨_, List.getElem?_set_self hlt, hobeys.2 _ (hrely a o _)⟩
  · exact ⟨p, htask, hnote ▸ hobeys⟩

/-- A task that has ended has done so as it must. -/
theorem Keeps.ended (hs : Keeps P Q i s) (hend : s.1.returned i = true ∨ s.1.threw i = true) : ∃ out, Q s.2 out := by
  obtain ⟨p, hp, hobeys⟩ := hs
  cases p with
  | ret x => exact ⟨_, hobeys⟩
  | throw e => exact ⟨_, hobeys⟩
  | call a k => simp [returned, threw, hp] at hend

end Async.Pool
