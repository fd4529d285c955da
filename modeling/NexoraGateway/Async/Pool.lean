import Mathlib.Data.List.Forall2
import NexoraGateway.Async.Prog
import NexoraGateway.Async.Runs

/-!
# Interleaving asynchronous programs

A `Pool` is a store shared by any number of tasks, each the rest of a program. A schedule is a list
of `Choice`s: a new task starts, or task `i` makes the call it is waiting on, the oracle answering
`o`. A task that is never chosen again has stalled or died; every interleaving, every crash point
and every answer is some schedule, so a property of `exec w cs` for all `cs` holds in every state
the system can reach.

`exec_inv` is the rule for such properties: when every program that may be started `Obeys` a
protocol, an invariant on the store and the ghost states of the tasks needs checking for one call of
one task at a time. It is `exec_track`, which also says what the calls of each task have done, with
nothing to say about them.

A condition on the order of the calls is one on notes: `noted h note` is the step of a pool beside which somebody notes
the calls and their answers, and in `noted_track` a call may depend on what has been noted before it.
-/
namespace Async

variable {A : Type} {R : A → Type} {ε α Ω S G : Type}

inductive Choice (A : Type) (R : A → Type) (ε α Ω : Type) : Type where
  | spawn (p : Prog A R ε α)
  | step (i : Nat) (o : Ω)

structure Pool (A : Type) (R : A → Type) (ε α S : Type) where
  store : S
  tasks : List (Prog A R ε α)

namespace Pool
variable (h : Handler A R Ω S)

def next (w : Pool A R ε α S) : Choice A R ε α Ω → Pool A R ε α S
  | .spawn p => ⟨w.store, w.tasks ++ [p]⟩
  | .step i o => match w.tasks[i]? with
    | some (.call a k) => ⟨(h a o w.store).2, w.tasks.set i (k (h a o w.store).1)⟩
    | _ => w

def exec (w : Pool A R ε α S) (cs : List (Choice A R ε α Ω)) : Pool A R ε α S :=
  cs.foldl (next h) w

@[simp] theorem exec_nil (w : Pool A R ε α S) : w.exec h [] = w := rfl
@[simp] theorem exec_cons (w : Pool A R ε α S) (c : Choice A R ε α Ω) (cs : List (Choice A R ε α Ω)) :
    w.exec h (c :: cs) = (w.next h c).exec h cs := rfl
theorem exec_append (w : Pool A R ε α S) (cs ds : List (Choice A R ε α Ω)) :
    w.exec h (cs ++ ds) = (w.exec h cs).exec h ds := List.foldl_append

/-- What a choice does: a task starts, or one makes its next call, or nothing. -/
theorem next_cases (w : Pool A R ε α S) (c : Choice A R ε α Ω) :
    (∃ p, c = .spawn p ∧ w.next h c = ⟨w.store, w.tasks ++ [p]⟩) ∨
    (∃ i o a k, c = .step i o ∧ w.tasks[i]? = some (.call a k) ∧
      w.next h c = ⟨(h a o w.store).2, w.tasks.set i (k (h a o w.store).1)⟩) ∨ w.next h c = w := by
  cases c with
  | spawn p => exact .inl ⟨p, rfl, rfl⟩
  | step i o =>
    simp only [next]
    split
    · rename_i a k hi
      exact .inr (.inl ⟨i, o, a, k, rfl, hi, rfl⟩)
    · exact .inr (.inr rfl)

variable (guard : S → A → Prop)

/-- The call that task `i` is waiting to make. -/
def pending (w : Pool A R ε α S) (i : Nat) : Option A :=
  match w.tasks[i]? with
  | some (.call a _) => some a
  | _ => none

variable {h} in
theorem next_store {w : Pool A R ε α S} {i : Nat} {a : A} (ha : w.pending i = some a) (o : Ω) :
    (w.next h (.step i o)).store = (h a o w.store).2 := by
  unfold pending at ha
  split at ha
  · rename_i a' k hi
    obtain rfl : a' = a := Option.some.inj ha
    simp only [next, hi]
  · cases ha

/-- The call of the only task is answered. -/
theorem next_answered {Ans : A → Type} {h : Handler A (fun a => Except ε (Ans a)) Ω S} {a : A} {o : Ω} {s t : S}
    {x : Ans a} (hcall : h a o s = (.ok x, t)) (f : Ans a → Prog A (fun a => Except ε (Ans a)) ε α) :
    (⟨s, [(Prog.await a).bind f]⟩ : Pool A (fun a => Except ε (Ans a)) ε α S).next h (.step 0 o) = ⟨t, [f x]⟩ := by
  change (⟨(h a o s).2, [(Prog.ofExcept (h a o s).1).bind f]⟩ : Pool A (fun a => Except ε (Ans a)) ε α S) = _
  rw [hcall]
  rfl

/-- Task `i` has run to its end. -/
def returned (w : Pool A R ε α S) (i : Nat) : Bool :=
  match w.tasks[i]? with
  | some (.ret _) => true
  | _ => false

/-- Task `i` has come to its end with this outcome. -/
def Ended (w : Pool A R ε α S) (i : Nat) (out : Except ε α) : Prop := w.tasks[i]? = some (Prog.ofExcept out)

/-- The call that a choice makes, if any, is made in a store that `guard` accepts. -/
def Allows (w : Pool A R ε α S) : Choice A R ε α Ω → Prop
  | .spawn _ => True
  | .step i _ => ∀ a ∈ w.pending i, guard w.store a

instance [∀ s a, Decidable (guard s a)] (w : Pool A R ε α S) :
    (c : Choice A R ε α Ω) → Decidable (w.Allows guard c)
  | .spawn _ => inferInstanceAs (Decidable True)
  | .step i _ => inferInstanceAs (Decidable (∀ a ∈ w.pending i, guard w.store a))

/-- Every call of the schedule is made in a store that `guard` accepts. -/
def Guarded : Pool A R ε α S → List (Choice A R ε α Ω) → Prop
  | _, [] => True
  | w, c :: cs => w.Allows guard c ∧ (w.next h c).Guarded cs

instance instDecidableGuarded [∀ s a, Decidable (guard s a)] :
    (cs : List (Choice A R ε α Ω)) → (w : Pool A R ε α S) → Decidable (w.Guarded h guard cs)
  | [], _ => inferInstanceAs (Decidable True)
  | c :: cs, w =>
    have := instDecidableGuarded cs (w.next h c)
    inferInstanceAs (Decidable (_ ∧ _))

variable {h guard}

theorem guarded_append {cs ds : List (Choice A R ε α Ω)} {w : Pool A R ε α S} :
    w.Guarded h guard (cs ++ ds) ↔ w.Guarded h guard cs ∧ (w.exec h cs).Guarded h guard ds := by
  induction cs generalizing w with
  | nil => simp [Guarded]
  | cons c cs ih => simp [Guarded, ih, and_assoc]

theorem guarded_of_forall (hg : ∀ s a, guard s a) (w : Pool A R ε α S) (cs : List (Choice A R ε α Ω)) :
    w.Guarded h guard cs := by
  induction cs generalizing w with
  | nil => trivial
  | cons c cs ih =>
    refine ⟨?_, ih _⟩
    cases c with
    | spawn p => trivial
    | step i o => exact fun a _ => hg _ a

/-- A task that is scheduled alone runs to its end as `Prog.run` says. -/
theorem exec_run (ω : Nat → Ω) (p : Prog A R ε α) {w : Pool A R ε α S} {i : Nat} (hi : w.tasks[i]? = some p)
    (n : Nat) : ∃ cs : List (Choice A R ε α Ω), (∀ c ∈ cs, ∃ o, c = .step i o) ∧
      (w.exec h cs).store = (p.run h ω n w.store).2.2 := by
  induction p generalizing w n with
  | ret x => exact ⟨[], fun _ hc => absurd hc List.not_mem_nil, rfl⟩
  | throw e => exact ⟨[], fun _ hc => absurd hc List.not_mem_nil, rfl⟩
  | call a k ih =>
    have hnext : w.next h (.step i (ω n)) =
        ⟨(h a (ω n) w.store).2, w.tasks.set i (k (h a (ω n) w.store).1)⟩ := by simp only [next, hi]
    have hlt : i < w.tasks.length := (List.getElem?_eq_some_iff.1 hi).1
    obtain ⟨cs, hcs, hstore⟩ := ih (h a (ω n) w.store).1 (w := w.next h (.step i (ω n)))
      (by rw [hnext]; simp [hlt]) (n + 1)
    refine ⟨.step i (ω n) :: cs, fun c hc => ?_, ?_⟩
    · rcases List.mem_cons.1 hc with rfl | hc
      · exact ⟨_, rfl⟩
      · exact hcs c hc
    · rw [exec_cons, hstore, hnext, Prog.run_call]

theorem forall₂_focus {X Y : Type} {r : X → Y → Prop} {xs : List X} {ys : List Y}
    (hr : List.Forall₂ r xs ys) {i : Nat} {y : Y} (hy : ys[i]? = some y) :
    ∃ xs₁ x xs₂, xs = xs₁ ++ x :: xs₂ ∧ xs₁.length = i ∧ r x y ∧
      ∀ x' y', r x' y' → List.Forall₂ r (xs₁ ++ x' :: xs₂) (ys.set i y') := by
  induction hr generalizing i with
  | nil => simp at hy
  | @cons x z xs ys hxz hrest ih =>
    cases i with
    | zero =>
      simp only [List.getElem?_cons_zero, Option.some.injEq] at hy
      subst hy
      exact ⟨[], x, xs, rfl, rfl, hxz, fun _ _ h' => .cons h' hrest⟩
    | succ i =>
      obtain ⟨xs₁, x', xs₂, rfl, hlen, hx', hset⟩ := ih (by simpa using hy)
      exact ⟨x :: xs₁, x', xs₂, rfl, congrArg (· + 1) hlen, hx', fun _ _ h' => .cons hxz (hset _ _ h')⟩

/-! ## What a task has done -/

variable (h) (cond : S → A → Ω → Prop)

/-- The call that a choice makes, if any, satisfies `cond` with the store and the answering oracle. -/
def Meets (w : Pool A R ε α S) : Choice A R ε α Ω → Prop
  | .spawn _ => True
  | .step i o => ∀ a ∈ w.pending i, cond w.store a o

instance [∀ s a o, Decidable (cond s a o)] (w : Pool A R ε α S) :
    (c : Choice A R ε α Ω) → Decidable (w.Meets cond c)
  | .spawn _ => inferInstanceAs (Decidable True)
  | .step i o => inferInstanceAs (Decidable (∀ a ∈ w.pending i, cond w.store a o))

/-- Every call of the schedule satisfies `cond`. -/
def Careful : Pool A R ε α S → List (Choice A R ε α Ω) → Prop
  | _, [] => True
  | w, c :: cs => w.Meets cond c ∧ (w.next h c).Careful cs

instance instDecidableCareful [∀ s a o, Decidable (cond s a o)] :
    (cs : List (Choice A R ε α Ω)) → (w : Pool A R ε α S) → Decidable (w.Careful h cond cs)
  | [], _ => inferInstanceAs (Decidable True)
  | c :: cs, w =>
    have := instDecidableCareful cs (w.next h c)
    inferInstanceAs (Decidable (_ ∧ _))

/-- Task `i` has ended in an error. -/
def threw (w : Pool A R ε α S) (i : Nat) : Bool :=
  match w.tasks[i]? with
  | some (.throw _) => true
  | _ => false

/-- Some call of task `i` changes what `f` reads. -/
def ChangedBy {X : Type} (f : S → X) : Pool A R ε α S → List (Choice A R ε α Ω) → Nat → Prop
  | _, [], _ => False
  | w, c :: cs, i => (∃ o, c = .step i o ∧ f (w.next h c).store ≠ f w.store) ∨ (w.next h c).ChangedBy f cs i

section
variable {N : Type} (note : N → Nat → (a : A) → R a → N) (cond : S → N → Nat → A → Ω → Prop)

def noted (s : Pool A R ε α S × N) (c : Choice A R ε α Ω) : Pool A R ε α S × N :=
  (s.1.next h c,
    match c with
    | .spawn _ => s.2
    | .step i o =>
      match s.1.tasks[i]? with
      | some (.call a _) => note s.2 i a (h a o s.1.store).1
      | _ => s.2)

/-- `next_cases` with the notes. -/
theorem noted_cases (s : Pool A R ε α S × N) (c : Choice A R ε α Ω) :
    (∃ p, c = .spawn p ∧ noted h note s c = (⟨s.1.store, s.1.tasks ++ [p]⟩, s.2)) ∨
    (∃ i o a k, c = .step i o ∧ s.1.tasks[i]? = some (.call a k) ∧
      noted h note s c = (⟨(h a o s.1.store).2, s.1.tasks.set i (k (h a o s.1.store).1)⟩,
        note s.2 i a (h a o s.1.store).1)) ∨
    noted h note s c = s := by
  cases c with
  | spawn p => exact .inl ⟨p, rfl, rfl⟩
  | step i o =>
    cases hi : s.1.tasks[i]? with
    | none => exact .inr (.inr (by simp only [noted, next, hi]))
    | some p =>
      cases p with
      | call a k => exact .inr (.inl ⟨i, o, a, k, rfl, hi, by simp only [noted, next, hi]⟩)
      | ret x => exact .inr (.inr (by simp only [noted, next, hi]))
      | throw e => exact .inr (.inr (by simp only [noted, next, hi]))

/-- The notes change nothing. -/
theorem exec_noted (s : Pool A R ε α S × N) (cs : List (Choice A R ε α Ω)) :
    (Runs.exec (noted h note) s cs).1 = s.1.exec h cs := by
  induction cs generalizing s with
  | nil => rfl
  | cons c cs ih => exact ih _

/-- The call that a choice makes, if any, satisfies `cond` with the store, the notes, the task and the answering
oracle. -/
def MeetsNoted (s : Pool A R ε α S × N) : Choice A R ε α Ω → Prop
  | .spawn _ => True
  | .step i o => ∀ a ∈ s.1.pending i, cond s.1.store s.2 i a o

instance [∀ s n i a o, Decidable (cond s n i a o)] (s : Pool A R ε α S × N) :
    (c : Choice A R ε α Ω) → Decidable (MeetsNoted cond s c)
  | .spawn _ => inferInstanceAs (Decidable True)
  | .step i o => inferInstanceAs (Decidable (∀ a ∈ s.1.pending i, cond s.1.store s.2 i a o))

end

variable {h cond} in
/-- A condition that does not look at the notes. -/
theorem Careful.along {N : Type} {note : N → Nat → (a : A) → R a → N} {s : Pool A R ε α S × N}
    {cs : List (Choice A R ε α Ω)} (hcs : s.1.Careful h cond cs) :
    Runs.Along (noted h note) (MeetsNoted fun t _ _ a o => cond t a o) s cs := by
  induction cs generalizing s with
  | nil => trivial
  | cons c cs ih =>
    refine ⟨?_, ih hcs.2⟩
    cases c with
    | spawn p => trivial
    | step i o => exact hcs.1

variable {h} in
/-- Two conditions on the same calls. -/
theorem along_and {N : Type} {note : N → Nat → (a : A) → R a → N} {cond cond' : S → N → Nat → A → Ω → Prop}
    {s : Pool A R ε α S × N} {cs : List (Choice A R ε α Ω)} (hcs : Runs.Along (noted h note) (MeetsNoted cond) s cs)
    (hcs' : Runs.Along (noted h note) (MeetsNoted cond') s cs) :
    Runs.Along (noted h note) (MeetsNoted fun t n i a o => cond t n i a o ∧ cond' t n i a o) s cs := by
  refine (hcs.and hcs').of_inv (I := fun _ => True) (fun s c _ hc => ⟨trivial, ?_⟩) trivial
  cases c with
  | spawn p => trivial
  | step i o => exact fun a ha => ⟨hc.1 a ha, hc.2 a ha⟩

/-- The tasks keep to `P` and end in `Q`, and those in `changed` are in marked ghost states. -/
def TrackInv (P : Protocol A R G) (Q : G → Except ε α → Prop) (I : S → List G → Prop) (marked : G → Prop)
    (changed : Nat → Prop) (w : Pool A R ε α S) : Prop :=
  ∃ gs, List.Forall₂ (fun g p => p.Obeys P Q g) gs w.tasks ∧ I w.store gs ∧
    ∀ i, changed i → ∃ g, gs[i]? = some g ∧ marked g

section
variable {h} {N : Type} (note : N → Nat → (a : A) → R a → N) {cond : S → N → Nat → A → Ω → Prop} {X : Type} {f : S → X}
  {P : Protocol A R G} {I : N → S → List G → Prop} {start : Prog A R ε α → Prop} {Q : G → Except ε α → Prop}
  {marked : G → Prop} {s : Pool A R ε α S × N}

/-- One choice: a call that changes what `f` reads marks its task. -/
theorem noted_next_track
    (hspawn : ∀ p, start p → ∃ g, p.Obeys P Q g ∧ ∀ n s gs, I n s gs → I n s (gs ++ [g]))
    (hcall : ∀ n s gs₁ g gs₂ a o, I n s (gs₁ ++ g :: gs₂) → P.ok g a → cond s n gs₁.length a o →
      P.rely a (h a o s).1 ∧
        I (note n gs₁.length a (h a o s).1) (h a o s).2 (gs₁ ++ P.next g a (h a o s).1 :: gs₂) ∧
        (marked g ∨ f (h a o s).2 ≠ f s → marked (P.next g a (h a o s).1)))
    {changed : Nat → Prop} (hs : s.1.TrackInv P Q (I s.2) marked changed)
    {c : Choice A R ε α Ω} (hstart : ∀ p, c = .spawn p → start p) (hc : MeetsNoted cond s c) :
    (s.1.next h c).TrackInv P Q (I (noted h note s c).2) marked fun i =>
      changed i ∨ ∃ o, c = .step i o ∧ f (s.1.next h c).store ≠ f s.1.store := by
  obtain ⟨gs, hobey, hI, hmarked⟩ := hs
  cases c with
  | spawn p =>
    obtain ⟨g, hp, hgrow⟩ := hspawn p (hstart p rfl)
    refine ⟨gs ++ [g], List.rel_append hobey (.cons hp .nil), hgrow _ _ _ hI, ?_⟩
    rintro i (hi | ⟨o, hi, -⟩)
    · obtain ⟨g', hg', hm⟩ := hmarked i hi
      have hlt : i < gs.length := (List.getElem?_eq_some_iff.1 hg').1
      exact ⟨g', by rwa [List.getElem?_append_left hlt], hm⟩
    · cases hi
  | step j o =>
    simp only [noted, next]
    split
    · rename_i a k hj
      obtain ⟨gs₁, g, gs₂, rfl, hlen, ⟨hok, hk⟩, hset⟩ := forall₂_focus hobey hj
      have hmeets : cond s.1.store s.2 gs₁.length a o := hlen ▸ hc a (by simp [pending, hj])
      obtain ⟨hrely, hI', hmark⟩ := hcall _ _ _ _ _ _ o hI hok hmeets
      refine ⟨_, hset _ _ (hk _ hrely), by simpa only [hlen, hj] using hI', fun i hi => ?_⟩
      have hupdate (g' : G) : gs₁ ++ g' :: gs₂ = (gs₁ ++ g :: gs₂).set j g' := by simp [← hlen]
      have hfocus : (gs₁ ++ g :: gs₂)[j]? = some g := by simp [← hlen]
      have hlt : j < (gs₁ ++ g :: gs₂).length := (List.getElem?_eq_some_iff.1 hfocus).1
      rw [hupdate]
      by_cases hji : j = i
      · subst hji
        refine ⟨_, List.getElem?_set_self hlt, hmark ?_⟩
        rcases hi with hold | ⟨_, -, hne⟩
        · obtain ⟨g', hg', hm⟩ := hmarked j hold
          obtain rfl : g = g' := Option.some.inj (hfocus.symm.trans hg')
          exact .inl hm
        · exact .inr hne
      · rcases hi with hold | ⟨_, hstep, -⟩
        · obtain ⟨g', hg', hm⟩ := hmarked i hold
          exact ⟨g', by rwa [List.getElem?_set_ne hji], hm⟩
        · cases hstep
          exact absurd rfl hji
    · refine ⟨gs, hobey, hI, ?_⟩
      rintro i (hi | ⟨_, -, hne⟩)
      · exact hmarked i hi
      · exact absurd rfl hne

/-- **The rule for what a task has done**: calls that change what `f` reads mark their task for good. -/
theorem noted_track
    (hspawn : ∀ p, start p → ∃ g, p.Obeys P Q g ∧ ∀ n s gs, I n s gs → I n s (gs ++ [g]))
    (hcall : ∀ n s gs₁ g gs₂ a o, I n s (gs₁ ++ g :: gs₂) → P.ok g a → cond s n gs₁.length a o →
      P.rely a (h a o s).1 ∧
        I (note n gs₁.length a (h a o s).1) (h a o s).2 (gs₁ ++ P.next g a (h a o s).1 :: gs₂) ∧
        (marked g ∨ f (h a o s).2 ≠ f s → marked (P.next g a (h a o s).1)))
    {changed : Nat → Prop} (hs : s.1.TrackInv P Q (I s.2) marked changed)
    {cs : List (Choice A R ε α Ω)} (hstart : ∀ p, .spawn p ∈ cs → start p)
    (hcs : Runs.Along (noted h note) (MeetsNoted cond) s cs) :
    (s.1.exec h cs).TrackInv P Q (I (Runs.exec (noted h note) s cs).2) marked fun i =>
      changed i ∨ s.1.ChangedBy h f cs i := by
  induction cs generalizing s changed with
  | nil =>
    obtain ⟨gs, hobey, hI, hmarked⟩ := hs
    exact ⟨gs, hobey, hI, fun i hi => hmarked i (hi.resolve_right id)⟩
  | cons c cs ih =>
    have hfirst : ∀ p, c = .spawn p → start p := fun p hp => hstart p (hp ▸ List.mem_cons_self)
    have hlater : ∀ p, .spawn p ∈ cs → start p := fun p hp => hstart p (List.mem_cons_of_mem _ hp)
    obtain ⟨gs, hobey, hI, hmarked⟩ :=
      ih (s := noted h note s c) (noted_next_track note hspawn hcall hs hfirst hcs.1) hlater hcs.2
    refine ⟨gs, hobey, hI, ?_⟩
    rintro i (hi | hi | hi)
    · exact hmarked i (.inl (.inl hi))
    · exact hmarked i (.inl (.inr hi))
    · exact hmarked i (.inr hi)

end

variable {h cond} {X : Type} {f : S → X} {P : Protocol A R G} {I : S → List G → Prop}
  {start : Prog A R ε α → Prop}
  {Q : G → Except ε α → Prop} {marked : G → Prop}

/-- One choice, without notes. -/
theorem next_track
    (hspawn : ∀ p, start p → ∃ g, p.Obeys P Q g ∧ ∀ s gs, I s gs → I s (gs ++ [g]))
    (hcall : ∀ s gs₁ g gs₂ a o, I s (gs₁ ++ g :: gs₂) → P.ok g a → cond s a o →
      P.rely a (h a o s).1 ∧ I (h a o s).2 (gs₁ ++ P.next g a (h a o s).1 :: gs₂) ∧
        (marked g ∨ f (h a o s).2 ≠ f s → marked (P.next g a (h a o s).1)))
    {changed : Nat → Prop} {w : Pool A R ε α S} (hw : w.TrackInv P Q I marked changed)
    {c : Choice A R ε α Ω} (hstart : ∀ p, c = .spawn p → start p) (hc : w.Meets cond c) :
    (w.next h c).TrackInv P Q I marked fun i =>
      changed i ∨ ∃ o, c = .step i o ∧ f (w.next h c).store ≠ f w.store := by
  have hmeets : MeetsNoted (fun t _ _ a o => cond t a o) (w, ()) c := by
    cases c with
    | spawn p => trivial
    | step i o => exact hc
  refine noted_next_track (fun _ _ _ _ => ()) (s := (w, ())) (I := fun _ => I) (fun p hp => ?_) (fun _ => hcall) hw
    hstart hmeets
  obtain ⟨g, hobeys, hgrow⟩ := hspawn p hp
  exact ⟨g, hobeys, fun _ => hgrow⟩

/-- **The rule for what a task has done**, without notes. -/
theorem exec_track
    (hspawn : ∀ p, start p → ∃ g, p.Obeys P Q g ∧ ∀ s gs, I s gs → I s (gs ++ [g]))
    (hcall : ∀ s gs₁ g gs₂ a o, I s (gs₁ ++ g :: gs₂) → P.ok g a → cond s a o →
      P.rely a (h a o s).1 ∧ I (h a o s).2 (gs₁ ++ P.next g a (h a o s).1 :: gs₂) ∧
        (marked g ∨ f (h a o s).2 ≠ f s → marked (P.next g a (h a o s).1)))
    {changed : Nat → Prop} {w : Pool A R ε α S} (hw : w.TrackInv P Q I marked changed)
    {cs : List (Choice A R ε α Ω)} (hstart : ∀ p, .spawn p ∈ cs → start p) (hcs : w.Careful h cond cs) :
    (w.exec h cs).TrackInv P Q I marked fun i => changed i ∨ w.ChangedBy h f cs i := by
  refine noted_track (fun _ _ _ _ => ()) (s := (w, ())) (I := fun _ => I) (fun p hp => ?_) (fun _ => hcall) hw hstart
    hcs.along
  obtain ⟨g, hobeys, hgrow⟩ := hspawn p hp
  exact ⟨g, hobeys, fun _ => hgrow⟩

/-- A task in a marked ghost state that rules errors out has not ended in one. -/
theorem TrackInv.not_threw {changed : Nat → Prop} {w : Pool A R ε α S} (hw : w.TrackInv P Q I marked changed)
    (hmarked : ∀ g e, marked g → ¬ Q g (.error e)) {i : Nat} (hi : changed i) : w.threw i = false := by
  obtain ⟨gs, hobey, -, hchanged⟩ := hw
  obtain ⟨g, hg, hm⟩ := hchanged i hi
  unfold threw
  split
  · rename_i e htask
    obtain ⟨hlen, hall⟩ := List.forall₂_iff_get.1 hobey
    obtain ⟨hlt, hget⟩ := List.getElem?_eq_some_iff.1 htask
    obtain ⟨hlt', hget'⟩ := List.getElem?_eq_some_iff.1 hg
    have hends := hall i hlt' hlt
    simp only [List.get_eq_getElem, hget, hget'] at hends
    exact absurd hends (hmarked g e hm)
  · rfl

theorem careful_append {cs ds : List (Choice A R ε α Ω)} {w : Pool A R ε α S} :
    w.Careful h cond (cs ++ ds) ↔ w.Careful h cond cs ∧ (w.exec h cs).Careful h cond ds := by
  induction cs generalizing w with
  | nil => simp [Careful]
  | cons c cs ih => simp [Careful, ih, and_assoc]

/-- What holds of every store of a schedule may be added to what its calls satisfy. -/
theorem Careful.and {K : S → Prop} {w : Pool A R ε α S} {cs : List (Choice A R ε α Ω)} (hcs : w.Careful h cond cs)
    (hK : ∀ before after, cs = before ++ after → K (w.exec h before).store) :
    w.Careful h (fun s a o => cond s a o ∧ K s) cs := by
  induction cs generalizing w with
  | nil => trivial
  | cons c cs ih =>
    refine ⟨?_, ih hcs.2 fun before after hsplit => hK (c :: before) after (by rw [hsplit, List.cons_append])⟩
    cases c with
    | spawn p => trivial
    | step i o => exact fun a ha => ⟨hcs.1 a ha, hK [] _ rfl⟩

/-! ## One task among others -/

/-- Answered in stores that `cond` accepts, the program makes only calls that are `ok`. -/
def Safe (h : Handler A R Ω S) (cond : S → A → Ω → Prop) (ok : A → Prop) : Prog A R ε α → Prop
  | .ret _ => True
  | .throw _ => True
  | .call a k => ok a ∧ ∀ s o, cond s a o → Safe h cond ok (k (h a o s).1)

theorem Safe.await_bind {Ans : A → Type} {h : Handler A (fun a => Except ε (Ans a)) Ω S} {ok : A → Prop} {a : A}
    {f : Ans a → Prog A (fun a => Except ε (Ans a)) ε α} (hok : ok a)
    (hf : ∀ s o x, cond s a o → (h a o s).1 = .ok x → Safe h cond ok (f x)) :
    Safe h cond ok ((Prog.await a).bind f) := by
  refine ⟨hok, fun s o hc => ?_⟩
  cases hout : (h a o s).1 with
  | error e => trivial
  | ok x => exact hf s o x hc hout

theorem Safe.await {Ans : A → Type} {h : Handler A (fun a => Except ε (Ans a)) Ω S} {ok : A → Prop} {a : A}
    (hok : ok a) : Safe h cond ok (Prog.await a) := by
  rw [← Prog.bind_ret (Prog.await a)]
  exact Safe.await_bind hok fun _ _ _ _ _ => trivial

/-- A safe task stays safe, whatever the others do. -/
theorem exec_safe {ok : A → Prop} {p : Prog A R ε α} (hp : Safe h cond ok p) {w : Pool A R ε α S} {i : Nat}
    (hi : w.tasks[i]? = some p) {cs : List (Choice A R ε α Ω)} (hcs : w.Careful h cond cs) :
    ∀ a, (w.exec h cs).pending i = some a → ok a := by
  induction cs generalizing w p with
  | nil =>
    intro a ha
    rw [exec_nil, pending, hi] at ha
    cases p with
    | call b k =>
      obtain rfl : b = a := Option.some.inj ha
      exact hp.1
    | ret x => cases ha
    | throw e => cases ha
  | cons c cs ih =>
    have hlt : i < w.tasks.length := (List.getElem?_eq_some_iff.1 hi).1
    rcases next_cases h w c with ⟨q, rfl, hnext⟩ | ⟨j, o, a, k, rfl, hj, hnext⟩ | hnext
    · refine ih hp ?_ hcs.2
      rw [hnext, List.getElem?_append_left hlt, hi]
    · by_cases hji : j = i
      · subst hji
        obtain rfl : p = .call a k := Option.some.inj (hi.symm.trans hj)
        refine ih (hp.2 _ o (hcs.1 a (by simp [pending, hj]))) ?_ hcs.2
        rw [hnext, List.getElem?_set_self hlt]
      · refine ih hp ?_ hcs.2
        rw [hnext, List.getElem?_set_ne hji, hi]
    · refine ih hp ?_ hcs.2
      rw [hnext, hi]

/-- **The rule for one task among any others**: it keeps to `P`, while an invariant of the store and its ghost state is
kept by its own calls and by every call of the others. -/
theorem exec_one {J : S → G → Prop} (hothers : ∀ s g a o, J s g → J (h a o s).2 g)
    (hown : ∀ s g a o, J s g → P.ok g a → P.rely a (h a o s).1 ∧ J (h a o s).2 (P.next g a (h a o s).1))
    {w : Pool A R ε α S} {i : Nat} {p : Prog A R ε α} {g : G} (hi : w.tasks[i]? = some p) (hp : p.Obeys P Q g)
    (hJ : J w.store g) (cs : List (Choice A R ε α Ω)) :
    ∃ q g', (w.exec h cs).tasks[i]? = some q ∧ q.Obeys P Q g' ∧ J (w.exec h cs).store g' := by
  induction cs generalizing w p g with
  | nil => exact ⟨p, g, hi, hp, hJ⟩
  | cons c cs ih =>
    have hlt : i < w.tasks.length := (List.getElem?_eq_some_iff.1 hi).1
    rw [exec_cons]
    rcases next_cases h w c with ⟨q, rfl, hnext⟩ | ⟨j, o, a, k, rfl, hj, hnext⟩ | hnext
    · rw [hnext]
      exact ih (by rwa [List.getElem?_append_left hlt]) hp hJ
    · rw [hnext]
      by_cases hji : j = i
      · subst hji
        obtain rfl : p = .call a k := Option.some.inj (hi.symm.trans hj)
        obtain ⟨hrely, hJ'⟩ := hown w.store g a o hJ hp.1
        exact ih (List.getElem?_set_self hlt) (hp.2 _ hrely) hJ'
      · exact ih (by rwa [List.getElem?_set_ne hji]) hp (hothers w.store g a o hJ)
    · rw [hnext]
      exact ih hi hp hJ

/-- What no longer holds ceased to hold in some step. -/
theorem exec_ceased {H : Pool A R ε α S → Prop} {w : Pool A R ε α S} {cs : List (Choice A R ε α Ω)} (hw : H w)
    (hnot : ¬ H (w.exec h cs)) : ∃ before c after, cs = before ++ c :: after ∧ H (w.exec h before) ∧
      ¬ H ((w.exec h before).next h c) := by
  induction cs generalizing w with
  | nil => exact absurd hw hnot
  | cons c cs ih =>
    by_cases hc : H (w.next h c)
    · obtain ⟨before, c', after, rfl, hbefore, hafter⟩ := ih hc hnot
      exact ⟨c :: before, c', after, rfl, hbefore, hafter⟩
    · exact ⟨[], c, cs, rfl, hw, hc⟩

/-- A task was there, or some choice has started it. -/
theorem exec_spawned {w : Pool A R ε α S} {cs : List (Choice A R ε α Ω)} {i : Nat}
    (hi : i < (w.exec h cs).tasks.length) : i < w.tasks.length ∨ ∃ started p rest,
      cs = started ++ .spawn p :: rest ∧ (w.exec h started).tasks.length = i := by
  induction cs generalizing w with
  | nil => exact .inl hi
  | cons c cs ih =>
    rcases ih hi with hlt | ⟨started, p, rest, rfl, hlen⟩
    · rcases next_cases h w c with ⟨p, rfl, hnext⟩ | ⟨j, o, a, k, rfl, hj, hnext⟩ | hnext
      · rw [hnext, List.length_append, List.length_singleton] at hlt
        rcases Nat.lt_succ_iff_lt_or_eq.1 hlt with hlt | heq
        · exact .inl hlt
        · exact .inr ⟨[], p, cs, rfl, heq.symm⟩
      · exact .inl (by simpa [hnext] using hlt)
      · exact .inl (by rwa [hnext] at hlt)
    · exact .inr ⟨c :: started, p, rest, rfl, hlen⟩

/-! ## The invariant rule -/

/-- Each task keeps to `P` from its own ghost state, and the store and the ghost states are related
by `I`. -/
def GhostInv (P : Protocol A R G) (I : S → List G → Prop) (w : Pool A R ε α S) : Prop :=
  ∃ gs, List.Forall₂ (fun g p => p.Obeys P (fun _ _ => True) g) gs w.tasks ∧ I w.store gs

/-- The calls that the tasks are waiting to make are allowed by their ghost states. -/
theorem GhostInv.pending {w : Pool A R ε α S} (hw : w.GhostInv P I) :
    ∃ gs, I w.store gs ∧ ∀ i a, w.pending i = some a → ∃ g, gs[i]? = some g ∧ P.ok g a := by
  obtain ⟨gs, hobey, hI⟩ := hw
  refine ⟨gs, hI, fun i a ha => ?_⟩
  unfold Pool.pending at ha
  split at ha
  · rename_i b k hi
    cases ha
    obtain ⟨hlen, hall⟩ := List.forall₂_iff_get.1 hobey
    obtain ⟨hlt, hget⟩ := List.getElem?_eq_some_iff.1 hi
    refine ⟨_, List.getElem?_eq_getElem (hlen ▸ hlt), ?_⟩
    have hi' := hall i (hlen ▸ hlt) hlt
    simp only [List.get_eq_getElem, hget] at hi'
    exact hi'.1
  · cases ha

theorem careful_of_guarded {w : Pool A R ε α S} {cs : List (Choice A R ε α Ω)} (hcs : w.Guarded h guard cs) :
    w.Careful h (fun s a _ => guard s a) cs := by
  induction cs generalizing w with
  | nil => trivial
  | cons c cs ih =>
    refine ⟨?_, ih hcs.2⟩
    cases c with
    | spawn p => trivial
    | step i o => exact hcs.1

/-- Each task keeps to `P` from its ghost state and ends in `Q`, and the store and the ghost states are related. -/
def EndsInv (P : Protocol A R G) (Q : G → Except ε α → Prop) (I : S → List G → Prop) (w : Pool A R ε α S) : Prop :=
  ∃ gs, List.Forall₂ (fun g p => p.Obeys P Q g) gs w.tasks ∧ I w.store gs

theorem EndsInv.ended {w : Pool A R ε α S} (hw : w.EndsInv P Q I) :
    ∃ gs, I w.store gs ∧ ∀ i out, w.Ended i out → ∃ g, gs[i]? = some g ∧ Q g out := by
  obtain ⟨gs, hobey, hI⟩ := hw
  refine ⟨gs, hI, fun i out hout => ?_⟩
  obtain ⟨gs₁, g, gs₂, rfl, hlen, hends, -⟩ := forall₂_focus hobey hout
  refine ⟨g, by simp [← hlen], ?_⟩
  cases out <;> exact hends

/-- **The rule for how tasks end.** -/
theorem exec_ends_inv
    (hspawn : ∀ p, start p → ∃ g, p.Obeys P Q g ∧ ∀ s gs, I s gs → I s (gs ++ [g]))
    (hcall : ∀ s gs₁ g gs₂ a o, I s (gs₁ ++ g :: gs₂) → P.ok g a → cond s a o →
      P.rely a (h a o s).1 ∧ I (h a o s).2 (gs₁ ++ P.next g a (h a o s).1 :: gs₂))
    {w : Pool A R ε α S} (hw : w.EndsInv P Q I) {cs : List (Choice A R ε α Ω)}
    (hstart : ∀ p, .spawn p ∈ cs → start p) (hcs : w.Careful h cond cs) : (w.exec h cs).EndsInv P Q I := by
  obtain ⟨gs, hobey, hI⟩ := hw
  -- the rule for what tasks have done, with nothing to mark
  have hinit : w.TrackInv P Q I (fun _ => True) fun _ => False := ⟨gs, hobey, hI, nofun⟩
  have hmark (s gs₁ g gs₂ a o) (hI : I s (gs₁ ++ g :: gs₂)) (hok : P.ok g a) (hc : cond s a o) :
      P.rely a (h a o s).1 ∧ I (h a o s).2 (gs₁ ++ P.next g a (h a o s).1 :: gs₂) ∧
        (True ∨ () ≠ () → True) := by
    obtain ⟨hrely, hI'⟩ := hcall s gs₁ g gs₂ a o hI hok hc
    exact ⟨hrely, hI', fun _ => trivial⟩
  obtain ⟨gs, hobey, hI, -⟩ := exec_track (f := fun _ => ()) hspawn hmark hinit hstart hcs
  exact ⟨gs, hobey, hI⟩

/-- **The invariant rule**, for calls that satisfy `cond` with the store, the notes, the task and the answering
oracle. -/
theorem noted_inv {N : Type} {note : N → Nat → (a : A) → R a → N} {cond : S → N → Nat → A → Ω → Prop}
    {I : N → S → List G → Prop} {s : Pool A R ε α S × N}
    (hspawn : ∀ p, start p → ∃ g, p.Obeys P (fun _ _ => True) g ∧ ∀ n s gs, I n s gs → I n s (gs ++ [g]))
    (hcall : ∀ n s gs₁ g gs₂ a o, I n s (gs₁ ++ g :: gs₂) → P.ok g a → cond s n gs₁.length a o →
      P.rely a (h a o s).1 ∧
        I (note n gs₁.length a (h a o s).1) (h a o s).2 (gs₁ ++ P.next g a (h a o s).1 :: gs₂))
    (hs : s.1.GhostInv P (I s.2)) {cs : List (Choice A R ε α Ω)} (hstart : ∀ p, .spawn p ∈ cs → start p)
    (hcs : Runs.Along (noted h note) (MeetsNoted cond) s cs) :
    (s.1.exec h cs).GhostInv P (I (Runs.exec (noted h note) s cs).2) := by
  obtain ⟨gs, hobey, hI⟩ := hs
  have hinit : s.1.TrackInv P (fun _ _ => True) (I s.2) (fun _ => True) fun _ => False := ⟨gs, hobey, hI, nofun⟩
  have hmark (n s gs₁ g gs₂ a o) (hI : I n s (gs₁ ++ g :: gs₂)) (hok : P.ok g a) (hc : cond s n gs₁.length a o) :
      P.rely a (h a o s).1 ∧
        I (note n gs₁.length a (h a o s).1) (h a o s).2 (gs₁ ++ P.next g a (h a o s).1 :: gs₂) ∧
        (True ∨ () ≠ () → True) := by
    obtain ⟨hrely, hI'⟩ := hcall n s gs₁ g gs₂ a o hI hok hc
    exact ⟨hrely, hI', fun _ => trivial⟩
  obtain ⟨gs, hobey, hI, -⟩ := noted_track note (f := fun _ => ()) hspawn hmark hinit hstart hcs
  exact ⟨gs, hobey, hI⟩

/-- **The invariant rule**, for calls that satisfy `cond` with the store and the answering oracle. -/
theorem exec_careful_inv
    (hspawn : ∀ p, start p → ∃ g, p.Obeys P (fun _ _ => True) g ∧ ∀ s gs, I s gs → I s (gs ++ [g]))
    (hcall : ∀ s gs₁ g gs₂ a o, I s (gs₁ ++ g :: gs₂) → P.ok g a → cond s a o →
      P.rely a (h a o s).1 ∧ I (h a o s).2 (gs₁ ++ P.next g a (h a o s).1 :: gs₂))
    {w : Pool A R ε α S} (hw : w.GhostInv P I) {cs : List (Choice A R ε α Ω)}
    (hstart : ∀ p, .spawn p ∈ cs → start p) (hcs : w.Careful h cond cs) : (w.exec h cs).GhostInv P I :=
  exec_ends_inv hspawn hcall hw hstart hcs

/-- **The invariant rule.** -/
theorem exec_inv
    (hspawn : ∀ p, start p → ∃ g, p.Obeys P (fun _ _ => True) g ∧ ∀ s gs, I s gs → I s (gs ++ [g]))
    (hcall : ∀ s gs₁ g gs₂ a o, I s (gs₁ ++ g :: gs₂) → P.ok g a → guard s a →
      P.rely a (h a o s).1 ∧ I (h a o s).2 (gs₁ ++ P.next g a (h a o s).1 :: gs₂))
    {w : Pool A R ε α S} (hw : w.GhostInv P I) {cs : List (Choice A R ε α Ω)}
    (hstart : ∀ p, .spawn p ∈ cs → start p) (hcs : w.Guarded h guard cs) : (w.exec h cs).GhostInv P I :=
  exec_careful_inv hspawn hcall hw hstart (careful_of_guarded hcs)

/-- The rule for an invariant of the store alone, kept by every allowed call of any program. -/
theorem exec_store_inv {I : S → Prop} (hcall : ∀ s a o, I s → guard s a → I (h a o s).2)
    {w : Pool A R ε α S} (hI : I w.store) {cs : List (Choice A R ε α Ω)} (hcs : w.Guarded h guard cs) :
    I (w.exec h cs).store := by
  induction cs generalizing w with
  | nil => exact hI
  | cons c cs ih =>
    refine ih ?_ hcs.2
    cases c with
    | spawn p => exact hI
    | step i o =>
      simp only [next]
      split
      · rename_i a k hi
        exact hcall _ _ _ hI (hcs.1 a (by simp [pending, hi]))
      · exact hI

/-- The same for an invariant that every call keeps. -/
theorem exec_store_inv' {I : S → Prop} (hcall : ∀ s a o, I s → I (h a o s).2) {w : Pool A R ε α S}
    (hI : I w.store) (cs : List (Choice A R ε α Ω)) : I (w.exec h cs).store := by
  have hcs : w.Guarded h (fun _ _ => True) cs := guarded_of_forall (fun _ _ => trivial) w cs
  exact exec_store_inv (fun s a o hs _ => hcall s a o hs) hI hcs

end Pool

end Async
