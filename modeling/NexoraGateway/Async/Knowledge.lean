import NexoraGateway.Async.Pool

/-!
# What tasks know

A task learns facts about the shared store from the answers to its calls. When no call ever makes a fact
false, whatever a task has learned still holds when it acts on it, however many other tasks have run in
between: `exec_knows`. The ghost state of a task is what it has learned so far; `ok` says which calls it may
make with that.
-/
namespace Async

variable {A : Type} {R : A → Type} {ε α β Ω S F : Type}

structure Knowledge (A : Type) (R : A → Type) (S F : Type) where
  Holds : S → F → Prop
  ok : List F → A → Prop
  rely : (a : A) → R a → Prop
  learns : (a : A) → R a → List F

namespace Knowledge

variable (K : Knowledge A R S F)

/-- The discipline of learning: nothing is forgotten. -/
def protocol : Protocol A R (List F) := ⟨K.ok, K.rely, fun facts a r => facts ++ K.learns a r⟩

/-- `p` acts on what it knows. -/
abbrev Justifies (facts : List F) (p : Prog A R ε α) : Prop := p.Obeys K.protocol (fun _ _ => True) facts

/-- What the tasks know holds, and so does `I`. -/
def Sound (I : S → Prop) (s : S) (gs : List (List F)) : Prop := I s ∧ ∀ facts ∈ gs, ∀ f ∈ facts, K.Holds s f

variable {K}

theorem obeys_grows {Q : List F → Except ε α → Prop} {p : Prog A R ε α} {facts : List F}
    (hp : p.Obeys K.protocol Q facts) :
    p.Obeys K.protocol (fun facts' out => facts ⊆ facts' ∧ Q facts' out) facts := by
  induction p generalizing facts with
  | ret x => exact ⟨List.Subset.refl _, hp⟩
  | throw e => exact ⟨List.Subset.refl _, hp⟩
  | call a k ih =>
    refine ⟨hp.1, fun r hr => (ih r (hp.2 r hr)).mono fun facts' out h => ⟨?_, h.2⟩⟩
    exact List.Subset.trans (List.subset_append_left _ _) h.1

/-- One step after another, each with all that was known before the first. -/
theorem justifies_bind {p : Prog A R ε α} {f : α → Prog A R ε β} {facts : List F} (hp : K.Justifies facts p)
    (hf : ∀ x facts', facts ⊆ facts' → K.Justifies facts' (f x)) : K.Justifies facts (p.bind f) := by
  refine Prog.Obeys.bind ((obeys_grows hp).mono fun facts' out h => ?_)
  cases out with
  | error e => trivial
  | ok x => exact hf x facts' h.1

theorem justifies_tryCatch {p : Prog A R ε α} {c : ε → Prog A R ε α} {facts : List F} (hp : K.Justifies facts p)
    (hc : ∀ e facts', facts ⊆ facts' → K.Justifies facts' (c e)) : K.Justifies facts (p.tryCatch c) := by
  refine Prog.Obeys.tryCatch ((obeys_grows hp).mono fun facts' out h => ?_)
  cases out with
  | error e => exact hc e facts' h.1
  | ok x => trivial

theorem justifies_forM {f : β → Prog A R ε Unit} {xs : List β} {facts : List F}
    (hf : ∀ x ∈ xs, ∀ facts', facts ⊆ facts' → K.Justifies facts' (f x)) : K.Justifies facts (xs.forM f) := by
  induction xs generalizing facts with
  | nil => trivial
  | cons x xs ih =>
    refine justifies_bind (hf x List.mem_cons_self facts (List.Subset.refl _)) fun _ facts' hsub => ?_
    refine ih fun y hy facts'' hsub' => ?_
    exact hf y (List.mem_cons_of_mem _ hy) facts'' (List.Subset.trans hsub hsub')

theorem justifies_await {Ans : A → Type} {K : Knowledge A (fun a => Except ε (Ans a)) S F}
    {facts : List F} {a : A} (hok : K.ok facts a) : K.Justifies facts (Prog.await a) :=
  Prog.obeys_await.2 ⟨hok, fun _ _ => trivial⟩

/-- A call, and the rest with what its answer teaches. -/
theorem justifies_await_bind {Ans : A → Type} {K : Knowledge A (fun a => Except ε (Ans a)) S F} {facts : List F} {a : A}
    {f : Ans a → Prog A (fun a => Except ε (Ans a)) ε β} (hok : K.ok facts a)
    (hf : ∀ x, K.rely a (.ok x) → K.Justifies (facts ++ K.learns a (.ok x)) (f x)) :
    K.Justifies facts ((Prog.await a).bind f) := by
  refine ⟨hok, fun r hr => ?_⟩
  cases r with
  | error e => trivial
  | ok x => exact hf x hr

variable {h : Handler A R Ω S} {I : S → Prop} {start : Prog A R ε α → Prop}

/-- A task that knows nothing yet starts. -/
theorem Sound.spawn {s : S} {gs : List (List F)} (hI : K.Sound I s gs) : K.Sound I s (gs ++ [[]]) := by
  refine ⟨hI.1, fun facts hfacts => ?_⟩
  rcases List.mem_append.1 hfacts with hmem | hmem
  · exact hI.2 facts hmem
  · rw [List.mem_singleton.1 hmem]
    exact fun f hf => absurd hf List.not_mem_nil

/-- One task learns from the answer to its call. -/
theorem Sound.call {s t : S} {gs₁ gs₂ : List (List F)} {facts learned : List F} (hI : K.Sound I s (gs₁ ++ facts :: gs₂))
    (hkeep : I t) (hmono : ∀ f, K.Holds s f → K.Holds t f) (hlearn : ∀ f ∈ learned, K.Holds t f) :
    K.Sound I t (gs₁ ++ (facts ++ learned) :: gs₂) := by
  refine ⟨hkeep, fun facts' hfacts' f hf => ?_⟩
  simp only [List.mem_append, List.mem_cons] at hfacts'
  rcases hfacts' with hmem | rfl | hmem
  · exact hmono f (hI.2 facts' (List.mem_append_left _ hmem) f hf)
  · rcases List.mem_append.1 hf with hold | hnew
    · exact hmono f (hI.2 facts (List.mem_append_right _ List.mem_cons_self) f hold)
    · exact hlearn f hnew
  · exact hmono f (hI.2 facts' (List.mem_append_right _ (List.mem_cons_of_mem _ hmem)) f hf)

/-- What tasks know goes on holding, when calls that satisfy `cond` make no fact false, what is learned from an
answer is true, and calls that are justified by true facts keep `I`. -/
theorem knows_careful {cond : S → A → Ω → Prop} (hspawn : ∀ p, start p → K.Justifies [] p)
    (hcall : ∀ s facts a o, I s → (∀ f ∈ facts, K.Holds s f) → K.ok facts a → cond s a o →
      K.rely a (h a o s).1 ∧ I (h a o s).2 ∧ (∀ f, K.Holds s f → K.Holds (h a o s).2 f) ∧
        ∀ f ∈ K.learns a (h a o s).1, K.Holds (h a o s).2 f)
    {w : Pool A R ε α S} (hw : w.GhostInv K.protocol (K.Sound I)) {cs : List (Choice A R ε α Ω)}
    (hstart : ∀ p, .spawn p ∈ cs → start p) (hcs : w.Careful h cond cs) :
    (w.exec h cs).GhostInv K.protocol (K.Sound I) := by
  refine Pool.exec_careful_inv (fun p hp => ⟨[], hspawn p hp, fun _ _ hI => hI.spawn⟩) ?_ hw hstart hcs
  intro s gs₁ facts gs₂ a o hI hok hc
  have hmid : facts ∈ gs₁ ++ facts :: gs₂ := List.mem_append_right _ List.mem_cons_self
  obtain ⟨hrely, hkeep, hmono, hlearn⟩ := hcall s facts a o hI.1 (hI.2 facts hmid) hok hc
  exact ⟨hrely, hI.call hkeep hmono hlearn⟩

/-- The same for calls that need satisfy nothing. -/
theorem knows_exec (hspawn : ∀ p, start p → K.Justifies [] p)
    (hcall : ∀ s facts a o, I s → (∀ f ∈ facts, K.Holds s f) → K.ok facts a →
      K.rely a (h a o s).1 ∧ I (h a o s).2 ∧ (∀ f, K.Holds s f → K.Holds (h a o s).2 f) ∧
        ∀ f ∈ K.learns a (h a o s).1, K.Holds (h a o s).2 f)
    {w : Pool A R ε α S} (hw : w.GhostInv K.protocol (K.Sound I)) {cs : List (Choice A R ε α Ω)}
    (hstart : ∀ p, .spawn p ∈ cs → start p) : (w.exec h cs).GhostInv K.protocol (K.Sound I) := by
  have hall : w.Guarded h (fun _ _ => True) cs := Pool.guarded_of_forall (fun _ _ => trivial) _ cs
  exact knows_careful hspawn (fun s facts a o hI hfacts hok _ => hcall s facts a o hI hfacts hok) hw hstart
    (Pool.careful_of_guarded hall)

theorem knows_nil {s : S} (hs : I s) : (⟨s, []⟩ : Pool A R ε α S).GhostInv K.protocol (K.Sound I) :=
  ⟨[], .nil, hs, fun _ hfacts => absurd hfacts List.not_mem_nil⟩

/-- **What tasks know holds in every reachable store.** -/
theorem exec_knows (hspawn : ∀ p, start p → K.Justifies [] p)
    (hcall : ∀ s facts a o, I s → (∀ f ∈ facts, K.Holds s f) → K.ok facts a →
      K.rely a (h a o s).1 ∧ I (h a o s).2 ∧ (∀ f, K.Holds s f → K.Holds (h a o s).2 f) ∧
        ∀ f ∈ K.learns a (h a o s).1, K.Holds (h a o s).2 f)
    {s : S} (hs : I s) {cs : List (Choice A R ε α Ω)} (hstart : ∀ p, .spawn p ∈ cs → start p) :
    (Pool.exec h ⟨s, []⟩ cs).GhostInv K.protocol (K.Sound I) :=
  knows_exec hspawn hcall (knows_nil hs) hstart

/-- **A task has ended with what it knew**, which holds. -/
theorem exec_ends {Q : List F → Except ε α → Prop} (hspawn : ∀ p, start p → p.Obeys K.protocol Q [])
    (hcall : ∀ s facts a o, I s → (∀ f ∈ facts, K.Holds s f) → K.ok facts a →
      K.rely a (h a o s).1 ∧ I (h a o s).2 ∧ (∀ f, K.Holds s f → K.Holds (h a o s).2 f) ∧
        ∀ f ∈ K.learns a (h a o s).1, K.Holds (h a o s).2 f)
    {s : S} (hs : I s) {cs : List (Choice A R ε α Ω)} (hstart : ∀ p, .spawn p ∈ cs → start p) :
    I (Pool.exec h ⟨s, []⟩ cs).store ∧ ∀ i out, (Pool.exec h ⟨s, []⟩ cs).Ended i out →
      ∃ facts, Q facts out ∧ ∀ f ∈ facts, K.Holds (Pool.exec h ⟨s, []⟩ cs).store f := by
  have hidle : (⟨s, []⟩ : Pool A R ε α S).EndsInv K.protocol Q (K.Sound I) :=
    ⟨[], .nil, hs, fun _ hfacts => absurd hfacts List.not_mem_nil⟩
  have hcareful : (⟨s, []⟩ : Pool A R ε α S).Careful h (fun _ _ _ => True) cs :=
    Pool.careful_of_guarded (Pool.guarded_of_forall (fun _ _ => trivial) _ cs)
  have hends : (Pool.exec h ⟨s, []⟩ cs).EndsInv K.protocol Q (K.Sound I) := by
    refine Pool.exec_ends_inv (fun p hp => ⟨[], hspawn p hp, fun _ _ hI => hI.spawn⟩) ?_ hidle hstart hcareful
    intro s gs₁ facts gs₂ a o hI hok _
    have hmid : facts ∈ gs₁ ++ facts :: gs₂ := List.mem_append_right _ List.mem_cons_self
    obtain ⟨hrely, hkeep, hmono, hlearn⟩ := hcall s facts a o hI.1 (hI.2 facts hmid) hok
    exact ⟨hrely, hI.call hkeep hmono hlearn⟩
  obtain ⟨gs, hI, hended⟩ := hends.ended
  refine ⟨hI.1, fun i out hout => ?_⟩
  obtain ⟨facts, hget, hQ⟩ := hended i out hout
  exact ⟨facts, hQ, hI.2 facts (List.mem_of_getElem? hget)⟩

/-- A call that is about to be made is justified by facts that hold. -/
theorem pending_justified {w : Pool A R ε α S} (hw : w.GhostInv K.protocol (K.Sound I)) {i : Nat} {a : A}
    (ha : w.pending i = some a) : ∃ facts, K.ok facts a ∧ ∀ f ∈ facts, K.Holds w.store f := by
  obtain ⟨gs, hI, hok⟩ := hw.pending
  obtain ⟨facts, hget, hfacts⟩ := hok i a ha
  exact ⟨facts, hfacts, hI.2 facts (List.mem_of_getElem? hget)⟩

end Knowledge

end Async
