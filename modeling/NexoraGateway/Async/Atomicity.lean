import NexoraGateway.Async.Pool

/-!
# Calls that are carried out in several steps

Tasks that treat a call as one step may in fact run a program of smaller calls for it, between which other tasks
run. `Prog.refine` puts such programs in the place of the calls. `refines` is the rule that the difference cannot be
seen: each run of the refined tasks ends as some run of the tasks themselves.

While a call is carried out it is at a `Stage`. It takes effect in one of its steps, which settles its answer. A
refusal has no effect but may depend on the store of that moment, and the answer that tells of it can still be
replaced by another error when the cleaning up fails too; until then the task counts as refused and as not yet
answered, so the rule follows every way in which such tasks may end.
-/
namespace Async

variable {A B : Type} {Ans : A → Type} {R' : B → Type} {ε α β Ω Ω' S S' G : Type}

namespace Prog

/-- Go on with the outcome, whichever it is. -/
def andThen : Prog B R' ε α → (Except ε α → Prog B R' ε β) → Prog B R' ε β
  | ret x, f => f (.ok x)
  | throw e, f => f (.error e)
  | call b k, f => call b fun r => (k r).andThen f

/-- `try p finally q`. -/
def tryFinally (p : Prog B R' ε α) (q : Prog B R' ε Unit) : Prog B R' ε α :=
  p.andThen fun out => q.bind fun _ => ofExcept out

/-- Each call is carried out by its implementation. -/
def refine (impl : (a : A) → Prog B R' ε (Ans a)) : Prog A (fun a => Except ε (Ans a)) ε α → Prog B R' ε α
  | ret x => ret x
  | throw e => throw e
  | call a k => (impl a).andThen fun r => (k r).refine impl

end Prog

/-- How far a call has come: it has had no effect, it is being refused, or its answer is settled. -/
inductive Stage (ε X : Type) where
  | waiting
  | refused (e : ε)
  | settled (r : Except ε X)

/-- What a change of stage stands for in the store in which a call is one step. -/
inductive Explained (h : Handler A (fun a => Except ε (Ans a)) Ω S) (a : A) (s s' : S) :
    Stage ε (Ans a) → Stage ε (Ans a) → Prop
  | silent (st : Stage ε (Ans a)) (hs : s' = s) : Explained h a s s' st st
  | settles {r : Except ε (Ans a)} (o : Ω) (hcall : h a o s = (r, s')) : Explained h a s s' .waiting (.settled r)
  | refuses {e : ε} (o : Ω) (hcall : h a o s = (.error e, s)) (hs : s' = s) : Explained h a s s' .waiting (.refused e)
  | confirms (e : ε) (hs : s' = s) : Explained h a s s' (.refused e) (.settled (.error e))
  | overrules {e : ε} {r : Except ε (Ans a)} (o : Ω) (hcall : h a o s = (r, s)) (hs : s' = s) :
    Explained h a s s' (.refused e) (.settled r)

/-- The discipline of carrying out calls, with a ghost state for each task that is `rest` between calls. -/
structure Conduct (A : Type) (Ans : A → Type) (B : Type) (R' : B → Type) (ε G : Type) where
  rest : G
  ok : G → B → Prop
  rely : G → (b : B) → R' b → Prop
  next : G → (b : B) → R' b → G
  moves : (a : A) → G → (b : B) → R' b → Stage ε (Ans a) → Stage ε (Ans a) → Prop

namespace Conduct

variable (c : Conduct A Ans B R' ε G)

/-- The program carries out a part of `a`, and ends as `Q` says. -/
def Part (a : A) (Q : G → Stage ε (Ans a) → Except ε β → Prop) : G → Stage ε (Ans a) → Prog B R' ε β → Prop
  | g, st, .ret x => Q g st (.ok x)
  | g, st, .throw e => Q g st (.error e)
  | g, st, .call b k => c.ok g b ∧
      ∀ r, c.rely g b r → ∃ st', c.moves a g b r st st' ∧ Part a Q (c.next g b r) st' (k r)

/-- The program is what is left of carrying out `a`. -/
abbrev Carries (a : A) : G → Stage ε (Ans a) → Prog B R' ε (Ans a) → Prop :=
  c.Part a fun g st out => g = c.rest ∧ st = .settled out

/-- A task, as it is written and as it is carried out. -/
inductive Link (A : Type) (Ans : A → Type) (B : Type) (R' : B → Type) (ε G α : Type) : Type where
  | between (p : Prog A (fun a => Except ε (Ans a)) ε α)
  | amid (a : A) (k : Except ε (Ans a) → Prog A (fun a => Except ε (Ans a)) ε α) (g : G) (st : Stage ε (Ans a))
      (q : Prog B R' ε (Ans a))

section
variable {c} {a : A} {Q : G → Stage ε (Ans a) → Except ε β → Prop} {g : G} {st : Stage ε (Ans a)}

theorem Part.andThen {p : Prog B R' ε α} {f : Except ε α → Prog B R' ε β}
    (hp : c.Part a (fun g st out => c.Part a Q g st (f out)) g st p) : c.Part a Q g st (p.andThen f) := by
  induction p generalizing g st with
  | ret x => exact hp
  | throw e => exact hp
  | call b k ih =>
    refine ⟨hp.1, fun r hr => ?_⟩
    obtain ⟨st', hmoves, hrest⟩ := hp.2 r hr
    exact ⟨st', hmoves, ih r hrest⟩

theorem Part.mono {Q' : G → Stage ε (Ans a) → Except ε β → Prop} {p : Prog B R' ε β} (hp : c.Part a Q' g st p)
    (hQ : ∀ g st out, Q' g st out → Q g st out) : c.Part a Q g st p := by
  induction p generalizing g st with
  | ret x => exact hQ _ _ _ hp
  | throw e => exact hQ _ _ _ hp
  | call b k ih =>
    refine ⟨hp.1, fun r hr => ?_⟩
    obtain ⟨st', hmoves, hrest⟩ := hp.2 r hr
    exact ⟨st', hmoves, ih r hrest⟩

theorem bind_eq_andThen (p : Prog B R' ε α) (f : α → Prog B R' ε β) :
    p.bind f = p.andThen fun out => match out with
      | .ok x => f x
      | .error e => .throw e := by
  induction p with
  | ret x => rfl
  | throw e => rfl
  | call b k ih => exact congrArg (Prog.call b) (funext ih)

theorem tryCatch_eq_andThen (p : Prog B R' ε β) (f : ε → Prog B R' ε β) :
    p.tryCatch f = p.andThen fun out => match out with
      | .ok x => .ret x
      | .error e => f e := by
  induction p with
  | ret x => rfl
  | throw e => rfl
  | call b k ih => exact congrArg (Prog.call b) (funext ih)

/-- One call, and the rest with each answer. -/
theorem Part.await_bind {Rep : B → Type} {c : Conduct A Ans B (fun b => Except ε (Rep b)) ε G}
    {Q : G → Stage ε (Ans a) → Except ε β → Prop} {b : B}
    {f : Rep b → Prog B (fun b => Except ε (Rep b)) ε β} (hok : c.ok g b)
    (hf : ∀ x, c.rely g b (.ok x) → ∃ st', c.moves a g b (.ok x) st st' ∧ c.Part a Q (c.next g b (.ok x)) st' (f x))
    (he : ∀ e, c.rely g b (.error e) →
      ∃ st', c.moves a g b (.error e) st st' ∧ Q (c.next g b (.error e)) st' (.error e)) :
    c.Part a Q g st ((Prog.await b).bind f) := by
  refine ⟨hok, fun r hr => ?_⟩
  cases r with
  | ok x => exact hf x hr
  | error e => exact he e hr

end

variable (impl : (a : A) → Prog B R' ε (Ans a))

namespace Link

/-- What is left to run. -/
def task : Link A Ans B R' ε G α → Prog B R' ε α
  | between p => p.refine impl
  | amid _ k _ _ q => q.andThen fun r => (k r).refine impl

def ghost : Link A Ans B R' ε G α → G
  | between _ => c.rest
  | amid _ _ g _ _ => g

def Sound : Link A Ans B R' ε G α → Prop
  | between _ => True
  | amid a _ g st q => c.Carries a g st q

/-- What the task may be where calls are one step. -/
def Means : Link A Ans B R' ε G α → Prog A (fun a => Except ε (Ans a)) ε α → Prop
  | between p, p' => p' = p
  | amid a k _ .waiting _, p' => p' = .call a k
  | amid a k _ (.refused e) _, p' => p' = .call a k ∨ p' = k (.error e)
  | amid _ k _ (.settled r) _, p' => p' = k r

theorem exists_means (l : Link A Ans B R' ε G α) : ∃ p, l.Means p := by
  cases l with
  | between p => exact ⟨p, rfl⟩
  | amid a k g st q =>
    cases st with
    | waiting => exact ⟨_, rfl⟩
    | refused e => exact ⟨_, .inl rfl⟩
    | settled r => exact ⟨_, rfl⟩

variable {c}

/-- A link whose call is over is one between calls. -/
theorem exists_normal {l : Link A Ans B R' ε G α} (hl : l.Sound c) :
    (∃ p, l.task impl = p.refine impl ∧ l.ghost c = c.rest ∧ ∀ p', l.Means p' ↔ p' = p) ∨
      ∃ a k g st b q, l = .amid a k g st (.call b q) := by
  cases l with
  | between p => exact .inl ⟨p, rfl, rfl, fun p' => Iff.rfl⟩
  | amid a k g st q =>
    cases q with
    | ret x =>
      obtain ⟨rfl, rfl⟩ := hl
      exact .inl ⟨k (.ok x), rfl, rfl, fun p' => Iff.rfl⟩
    | throw e =>
      obtain ⟨rfl, rfl⟩ := hl
      exact .inl ⟨k (.error e), rfl, rfl, fun p' => Iff.rfl⟩
    | call b q => exact .inr ⟨a, k, g, st, b, q, rfl⟩

variable {impl}

/-- An implementation makes at least one call. -/
theorem impl_call (himpl : ∀ a, c.Carries a c.rest .waiting (impl a)) (a : A) : ∃ b q, impl a = .call b q := by
  have ha := himpl a
  cases himp : impl a with
  | ret x =>
    rw [himp] at ha
    cases ha.2
  | throw e =>
    rw [himp] at ha
    cases ha.2
  | call b q => exact ⟨b, q, rfl⟩

theorem outcome_of_refine (himpl : ∀ a, c.Carries a c.rest .waiting (impl a))
    {p : Prog A (fun a => Except ε (Ans a)) ε α} {out : Except ε α} (h : p.refine impl = Prog.ofExcept out) :
    p = Prog.ofExcept out := by
  cases p with
  | ret x =>
    cases out with
    | ok y =>
      cases h
      rfl
    | error e => cases h
  | throw e =>
    cases out with
    | ok y => cases h
    | error e' =>
      cases h
      rfl
  | call a k =>
    obtain ⟨b, q, hq⟩ := impl_call himpl a
    rw [Prog.refine, hq] at h
    cases out <;> cases h

/-- A task that has come to its end has come to it where calls are one step, and is at rest. -/
theorem outcome_of_task (himpl : ∀ a, c.Carries a c.rest .waiting (impl a)) {l : Link A Ans B R' ε G α}
    (hl : l.Sound c) {out : Except ε α} (h : l.task impl = Prog.ofExcept out)
    {p : Prog A (fun a => Except ε (Ans a)) ε α} (hp : l.Means p) : p = Prog.ofExcept out ∧ l.ghost c = c.rest := by
  rcases exists_normal impl hl with ⟨p', htask, hrest, hmeans⟩ | ⟨a, k, g, st, b, q, rfl⟩
  · rw [(hmeans p).1 hp]
    exact ⟨outcome_of_refine himpl (htask ▸ h), hrest⟩
  · cases out <;> cases h

/-- A task that is about to make a call is amid carrying out another. -/
theorem amid_of_task (himpl : ∀ a, c.Carries a c.rest .waiting (impl a)) {l : Link A Ans B R' ε G α}
    (hl : l.Sound c) {b : B} {f : R' b → Prog B R' ε α} (h : l.task impl = .call b f) :
    ∃ a k st q, (∀ p, Means (.amid a k (l.ghost c) st (.call b q)) p ↔ l.Means p) ∧
      c.Carries a (l.ghost c) st (.call b q) ∧ f = fun r => (q r).andThen fun r => (k r).refine impl := by
  rcases exists_normal impl hl with ⟨p, htask, hrest, hmeans⟩ | ⟨a, k, g, st, b', q, rfl⟩
  · rw [htask] at h
    cases p with
    | ret x => cases h
    | throw e => cases h
    | call a k =>
      obtain ⟨b', q, hq⟩ := impl_call himpl a
      rw [Prog.refine, hq] at h
      injection h with hb hf
      subst hb
      refine ⟨a, k, .waiting, q, fun p => (hmeans p).symm, ?_, (eq_of_heq hf).symm⟩
      rw [hrest, ← hq]
      exact himpl a
  · injection h with hb hf
    subst hb
    exact ⟨a, k, st, q, fun p => Iff.rfl, hl, (eq_of_heq hf).symm⟩

end Link

/-! ## Runs -/

/-- Each call is carried out as `c` says, which keeps `I`, and each change of stage is what it stands for. -/
structure Simulates (h : Handler A (fun a => Except ε (Ans a)) Ω S) (h' : Handler B R' Ω' S')
    (cond : S' → B → Ω' → Prop) (abs : S' → S) (I : S' → List G → Prop) : Prop where
  carries : ∀ a, c.Carries a c.rest .waiting (impl a)
  spawn : ∀ s gs, I s gs → I s (gs ++ [c.rest])
  call : ∀ s gs₁ g gs₂ b o, I s (gs₁ ++ g :: gs₂) → c.ok g b → cond s b o →
    c.rely g b (h' b o s).1 ∧ I (h' b o s).2 (gs₁ ++ c.next g b (h' b o s).1 :: gs₂) ∧
      ∀ a st st', c.moves a g b (h' b o s).1 st st' → Explained h a (abs s) (abs (h' b o s).2) st st'

section
variable (h : Handler A (fun a => Except ε (Ans a)) Ω S) (start : Prog A (fun a => Except ε (Ans a)) ε α → Prop)
  (s₀ : S) (abs : S' → S) (I : S' → List G → Prop)

/-- Some run of the tasks as they are written ends in `w`. -/
def Reaches (w : Pool A (fun a => Except ε (Ans a)) ε α S) : Prop :=
  ∃ ds, (∀ p, .spawn p ∈ ds → start p) ∧ Pool.exec h ⟨s₀, []⟩ ds = w

/-- The tasks carry out calls, and whatever they may be where calls are one step is reached there. -/
def Tracked (w : Pool B R' ε α S') : Prop :=
  ∃ ls : List (Link A Ans B R' ε G α), w.tasks = ls.map (Link.task impl) ∧ (∀ l ∈ ls, l.Sound c) ∧
    I w.store (ls.map (Link.ghost c)) ∧ ∀ ps, List.Forall₂ Link.Means ls ps → Reaches h start s₀ ⟨abs w.store, ps⟩

end

variable {c impl} {h : Handler A (fun a => Except ε (Ans a)) Ω S} {h' : Handler B R' Ω' S'}
  {cond : S' → B → Ω' → Prop} {start : Prog A (fun a => Except ε (Ans a)) ε α → Prop} {s₀ : S} {abs : S' → S}
  {I : S' → List G → Prop}

theorem Reaches.next {w : Pool A (fun a => Except ε (Ans a)) ε α S} (hw : Reaches h start s₀ w)
    {d : Choice A (fun a => Except ε (Ans a)) ε α Ω} (hd : ∀ p, d = .spawn p → start p) :
    Reaches h start s₀ (w.next h d) := by
  obtain ⟨ds, hds, rfl⟩ := hw
  refine ⟨ds ++ [d], fun p hp => ?_, ?_⟩
  · rcases List.mem_append.1 hp with hp | hp
    · exact hds p hp
    · exact hd p (List.mem_singleton.1 hp).symm
  · rw [Pool.exec_append, Pool.exec_cons, Pool.exec_nil]

/-- The call of task `i` is made in one step. -/
theorem Reaches.step {s : S} {ps : List (Prog A (fun a => Except ε (Ans a)) ε α)} {i : Nat} {a : A}
    {k : Except ε (Ans a) → Prog A (fun a => Except ε (Ans a)) ε α} {r : Except ε (Ans a)}
    (hw : Reaches h start s₀ ⟨s, ps.set i (.call a k)⟩) (hi : ps[i]? = some (k r)) {o : Ω} {s' : S}
    (hcall : h a o s = (r, s')) : Reaches h start s₀ ⟨s', ps⟩ := by
  have hnext := hw.next (d := .step i o) nofun
  obtain ⟨hlt, hget⟩ := List.getElem?_eq_some_iff.1 hi
  have hfocus : (ps.set i (.call a k))[i]? = some (.call a k) := List.getElem?_set_self hlt
  simp only [Pool.next, hfocus, hcall, List.set_set] at hnext
  rwa [← hget, List.set_getElem_self] at hnext

/-- A task that has changed stage is where calls are one step as before, or has made its call there. -/
theorem Reaches.explained {s s' : S} {a : A} {k : Except ε (Ans a) → Prog A (fun a => Except ε (Ans a)) ε α}
    {st st' : Stage ε (Ans a)} (hexpl : Explained h a s s' st st') {g g' : G} {q q' : Prog B R' ε (Ans a)}
    {ps : List (Prog A (fun a => Except ε (Ans a)) ε α)} {i : Nat}
    (hbefore : ∀ p, Link.Means (.amid a k g st q) p → Reaches h start s₀ ⟨s, ps.set i p⟩)
    {p' : Prog A (fun a => Except ε (Ans a)) ε α} (hi : ps[i]? = some p')
    (hp' : Link.Means (.amid a k g' st' q') p') : Reaches h start s₀ ⟨s', ps⟩ := by
  obtain ⟨hlt, hget⟩ := List.getElem?_eq_some_iff.1 hi
  have hsame : ps.set i p' = ps := by rw [← hget, List.set_getElem_self]
  cases hexpl with
  | silent st hs =>
    rw [hs]
    have hp : Link.Means (.amid a k g st q) p' := by cases st <;> exact hp'
    exact hsame ▸ hbefore p' hp
  | settles o hcall =>
    obtain rfl : p' = k _ := hp'
    exact (hbefore _ rfl).step hi hcall
  | refuses o hcall hs =>
    rw [hs]
    rcases hp' with rfl | rfl
    · exact hsame ▸ hbefore _ rfl
    · exact (hbefore _ rfl).step hi hcall
  | confirms e hs =>
    rw [hs]
    exact hsame ▸ hbefore p' (.inr hp')
  | overrules o hcall hs =>
    rw [hs]
    obtain rfl : p' = k _ := hp'
    exact (hbefore _ (.inl rfl)).step hi hcall

/-- One choice. -/
theorem Tracked.next (hsim : c.Simulates impl h h' cond abs I) {w : Pool B R' ε α S'}
    (hw : c.Tracked impl h start s₀ abs I w) {d : Choice B R' ε α Ω'}
    (hd : ∀ q, d = .spawn q → ∃ p, start p ∧ q = p.refine impl) (hmeets : w.Meets cond d) :
    c.Tracked impl h start s₀ abs I (w.next h' d) := by
  obtain ⟨ls, htasks, hsound, hI, hreach⟩ := hw
  rcases Pool.next_cases h' w d with ⟨q, rfl, hnext⟩ | ⟨i, o, b, f, rfl, hi, hnext⟩ | hnext
  · obtain ⟨p, hp, rfl⟩ := hd q rfl
    rw [hnext]
    refine ⟨ls ++ [.between p], by simp [htasks, Link.task], fun l hl => ?_, ?_, fun ps hps => ?_⟩
    · rcases List.mem_append.1 hl with hl | hl
      · exact hsound l hl
      · rw [List.mem_singleton.1 hl]
        trivial
    · rw [List.map_append]
      exact hsim.spawn _ _ hI
    · have hold := List.forall₂_take ls.length hps
      have hnew := List.forall₂_drop ls.length hps
      rw [List.take_left] at hold
      rw [List.drop_left] at hnew
      obtain ⟨p', rest, hp', hnil, hdrop⟩ := List.forall₂_cons_left_iff.1 hnew
      rw [List.forall₂_nil_left_iff.1 hnil] at hdrop
      obtain rfl : p' = p := hp'
      have hspawned := (hreach _ hold).next (d := .spawn p') fun q hq => Choice.spawn.inj hq ▸ hp
      rwa [Pool.next, ← hdrop, List.take_append_drop] at hspawned
  · rw [htasks, List.getElem?_map] at hi
    obtain ⟨l, hl, htask⟩ := Option.map_eq_some_iff.1 hi
    obtain ⟨hlt, hget⟩ := List.getElem?_eq_some_iff.1 hl
    obtain ⟨a, k, st, q, hmeans, ⟨hok, hcarry⟩, rfl⟩ :=
      Link.amid_of_task hsim.carries (hsound l (List.mem_of_getElem? hl)) htask
    have hcond : cond w.store b o := hmeets b (by simp [Pool.pending, htasks, List.getElem?_map, hl, htask])
    obtain ⟨ls₁, ls₂, hls, rfl, -⟩ := @List.exists_of_set _ i l ls hlt
    rw [hget] at hls
    subst hls
    rw [List.map_append, List.map_cons] at hI
    obtain ⟨hrely, hI', hexpl⟩ := hsim.call _ _ _ _ _ o hI hok hcond
    obtain ⟨st', hmoves, hcarry'⟩ := hcarry _ hrely
    let l' : Link A Ans B R' ε G α := .amid a k (c.next (l.ghost c) b (h' b o w.store).1) st' (q (h' b o w.store).1)
    rw [hnext]
    refine ⟨ls₁ ++ l' :: ls₂, ?_, fun m hm => ?_, ?_, fun ps hps => ?_⟩
    · simp [htasks, l', Link.task, List.map_append, List.map_cons]
    · rcases List.mem_append.1 hm with hm | hm
      · exact hsound m (List.mem_append_left _ hm)
      · rcases List.mem_cons.1 hm with rfl | hm
        · exact hcarry'
        · exact hsound m (List.mem_append_right _ (List.mem_cons_of_mem _ hm))
    · rw [List.map_append, List.map_cons]
      exact hI'
    · have hlen : ls₁.length < ps.length := by
        rw [← hps.length_eq]
        simp
      obtain ⟨ms₁, m, ms₂, hms, hfocus, hm, hchange⟩ := Pool.forall₂_focus hps (List.getElem?_eq_getElem hlen)
      obtain ⟨rfl, hcons⟩ := List.append_inj hms hfocus.symm
      obtain ⟨rfl, rfl⟩ := List.cons.inj hcons
      refine Reaches.explained (hexpl a st st' hmoves) (fun p hp => hreach _ (hchange l p ((hmeans p).1 hp)))
        (List.getElem?_eq_getElem hlen) hm
  · rw [hnext]
    exact ⟨ls, htasks, hsound, hI, hreach⟩

theorem Tracked.exec (hsim : c.Simulates impl h h' cond abs I) {w : Pool B R' ε α S'}
    (hw : c.Tracked impl h start s₀ abs I w) {cs : List (Choice B R' ε α Ω')}
    (hstart : ∀ q, .spawn q ∈ cs → ∃ p, start p ∧ q = p.refine impl) (hcs : w.Careful h' cond cs) :
    c.Tracked impl h start s₀ abs I (w.exec h' cs) := by
  induction cs generalizing w with
  | nil => exact hw
  | cons d cs ih =>
    refine ih (hw.next hsim ?_ hcs.1) (fun q hq => hstart q (List.mem_cons_of_mem _ hq)) hcs.2
    exact fun q hq => hstart q (hq ▸ List.mem_cons_self)

/-- **A run of the refined tasks ends as a run of the tasks themselves**: with the same store, and with the same
outcome wherever a task has come to its end. The tasks that have are at rest. -/
theorem refines (hsim : c.Simulates impl h h' cond abs I) {t₀ : S'} (hI : I t₀ []) {cs : List (Choice B R' ε α Ω')}
    (hstart : ∀ q, .spawn q ∈ cs → ∃ p, start p ∧ q = p.refine impl) (hcs : Pool.Careful h' cond ⟨t₀, []⟩ cs) :
    (∃ ds, (∀ p, .spawn p ∈ ds → start p) ∧
      (Pool.exec h ⟨abs t₀, []⟩ ds).store = abs (Pool.exec h' ⟨t₀, []⟩ cs).store ∧
      ∀ i out, (Pool.exec h' ⟨t₀, []⟩ cs).Ended i out → (Pool.exec h ⟨abs t₀, []⟩ ds).Ended i out) ∧
    ∃ gs, I (Pool.exec h' ⟨t₀, []⟩ cs).store gs ∧
      List.Forall₂ (fun g p => p.ended = true → g = c.rest) gs (Pool.exec h' ⟨t₀, []⟩ cs).tasks := by
  have hinit : c.Tracked impl h start (abs t₀) abs I (⟨t₀, []⟩ : Pool B R' ε α S') := by
    refine ⟨[], rfl, fun l hl => absurd hl List.not_mem_nil, hI, fun ps hps => ?_⟩
    rw [List.forall₂_nil_left_iff.1 hps]
    exact ⟨[], fun p hp => absurd hp List.not_mem_nil, rfl⟩
  obtain ⟨ls, htasks, hsound, hI, hreach⟩ := hinit.exec hsim hstart hcs
  choose mean hmean using fun l : Link A Ans B R' ε G α => l.exists_means
  have hmeans : List.Forall₂ Link.Means ls (ls.map mean) :=
    List.forall₂_map_right_iff.2 (List.forall₂_same.2 fun l _ => hmean l)
  obtain ⟨ds, hds, hexec⟩ := hreach _ hmeans
  have hended {l : Link A Ans B R' ε G α} (hl : l ∈ ls) (out : Except ε α) (htask : l.task impl = Prog.ofExcept out) :
      mean l = Prog.ofExcept out ∧ l.ghost c = c.rest :=
    Link.outcome_of_task hsim.carries (hsound l hl) htask (hmean l)
  refine ⟨⟨ds, hds, by rw [hexec], fun i out hout => ?_⟩, ls.map (Link.ghost c), hI, ?_⟩
  · rw [Pool.Ended, htasks, List.getElem?_map] at hout
    obtain ⟨l, hl, htask⟩ := Option.map_eq_some_iff.1 hout
    rw [Pool.Ended, hexec, List.getElem?_map, hl, Option.map_some, (hended (List.mem_of_getElem? hl) out htask).1]
  · rw [htasks]
    refine List.forall₂_map_left_iff.2 (List.forall₂_map_right_iff.2 (List.forall₂_same.2 fun l hl hend => ?_))
    cases htask : l.task impl with
    | ret x => exact (hended hl (.ok x) htask).2
    | throw e => exact (hended hl (.error e) htask).2
    | call b f =>
      rw [htask] at hend
      cases hend

end Conduct
end Async
