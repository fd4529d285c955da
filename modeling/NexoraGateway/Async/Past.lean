import NexoraGateway.Async.Pool

/-!
# What was so before

`remembering h` answers as `h` does and keeps the stores that there were, the latest first. It changes nothing in
what the tasks do (`exec_remembering`), so an invariant may speak of the past: what was true when a task read it may
have ceased to be when the task acts on it, but it `Was` so.
-/
namespace Async

variable {A : Type} {R : A → Type} {ε α Ω S : Type}

/-- A store with those before it. -/
structure Past (S : Type) where
  current : S
  earlier : List S

namespace Past

/-- `P` holds now, or it once held. -/
def Was (P : S → Prop) (t : Past S) : Prop := P t.current ∨ ∃ s ∈ t.earlier, P s

def push (t : Past S) (s : S) : Past S := ⟨s, t.current :: t.earlier⟩

variable {P Q : S → Prop} {t : Past S}

theorem was_now (h : P t.current) : t.Was P := .inl h

@[simp] theorem push_current (t : Past S) (s : S) : (t.push s).current = s := rfl

theorem was_push {s : S} : (t.push s).Was P ↔ P s ∨ t.Was P := by
  simp [Was, push]

/-- **What was so will have been so.** -/
theorem Was.push (h : t.Was P) (s : S) : (t.push s).Was P := was_push.2 (.inr h)

theorem Was.mono (h : t.Was P) (hPQ : ∀ s, P s → Q s) : t.Was Q := by
  rcases h with h | ⟨s, hs, h⟩
  · exact .inl (hPQ _ h)
  · exact .inr ⟨s, hs, hPQ s h⟩

end Past

def remembering (h : Handler A R Ω S) : Handler A R Ω (Past S) := fun a o t =>
  ((h a o t.current).1, t.push (h a o t.current).2)

namespace Pool
variable {h : Handler A R Ω S}

/-- The pool without its memory. -/
def forget (w : Pool A R ε α (Past S)) : Pool A R ε α S := ⟨w.store.current, w.tasks⟩

theorem next_remembering (w : Pool A R ε α (Past S)) (c : Choice A R ε α Ω) :
    (w.next (remembering h) c).forget = w.forget.next h c := by
  cases c with
  | spawn p => rfl
  | step i o =>
    simp only [next, forget]
    split <;> rfl

/-- The tasks run as they do without memory. -/
theorem exec_remembering (w : Pool A R ε α (Past S)) (cs : List (Choice A R ε α Ω)) :
    (w.exec (remembering h) cs).forget = w.forget.exec h cs := by
  induction cs generalizing w with
  | nil => rfl
  | cons c cs ih => rw [exec_cons, exec_cons, ih, next_remembering]

/-- What a choice has made so is so afterwards, or was so before. -/
theorem was_next {P : S → Prop} {w : Pool A R ε α (Past S)} {c : Choice A R ε α Ω}
    (hwas : (w.next (remembering h) c).store.Was P) : P (w.forget.next h c).store ∨ w.store.Was P := by
  rcases next_cases (remembering h) w c with ⟨p, rfl, hnext⟩ | ⟨i, o, a, k, rfl, hi, hnext⟩ | hnext
  · rw [hnext] at hwas
    exact .inr hwas
  · rw [hnext] at hwas
    rcases Past.was_push.1 hwas with hnow | hbefore
    · rw [← next_remembering, forget, hnext]
      exact .inl hnow
    · exact .inr hbefore
  · rw [hnext] at hwas
    exact .inr hwas

/-- **What is remembered was so after some beginning of the schedule.** -/
theorem was_exec {P : S → Prop} {w : Pool A R ε α (Past S)} {cs : List (Choice A R ε α Ω)}
    (hwas : (w.exec (remembering h) cs).store.Was P) :
    (∃ before, before <+: cs ∧ P (w.forget.exec h before).store) ∨ w.store.Was P := by
  induction cs generalizing w with
  | nil => exact .inr hwas
  | cons c cs ih =>
    rcases ih hwas with ⟨before, hbefore, hP⟩ | hP
    · rw [next_remembering] at hP
      exact .inl ⟨c :: before, List.cons_prefix_cons.2 ⟨rfl, hbefore⟩, hP⟩
    · rcases was_next hP with hnow | hwas
      · exact .inl ⟨[c], List.cons_prefix_cons.2 ⟨rfl, List.nil_prefix⟩, hnow⟩
      · exact .inr hwas

/-- The same of a run that starts without a past. -/
theorem was_exec_start {P : S → Prop} {s : S} {tasks : List (Prog A R ε α)} {cs : List (Choice A R ε α Ω)}
    (hwas : (exec (remembering h) (⟨⟨s, []⟩, tasks⟩ : Pool A R ε α (Past S)) cs).store.Was P) :
    ∃ before, before <+: cs ∧ P (exec h (⟨s, tasks⟩ : Pool A R ε α S) before).store := by
  rcases was_exec hwas with hsome | hnow | ⟨t, ht, -⟩
  · exact hsome
  · exact ⟨[], List.nil_prefix, hnow⟩
  · exact absurd ht List.not_mem_nil

end Pool

end Async
