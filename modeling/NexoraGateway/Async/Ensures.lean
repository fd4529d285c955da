import NexoraGateway.Async.Prog

/-!
# What a program ensures when it resolves

`p.Ensures P g post`: started in ghost state `g` the program keeps to `P`, and if it resolves, it does so in a ghost
state and with a result as `post` says. Nothing is promised of a rejection.
-/
namespace Async.Prog

variable {A : Type} {R : A → Type} {ε α β G : Type} {P : Protocol A R G} {g : G} {post post' : G → α → Prop}
  {p : Prog A R ε α}

def Ensures (P : Protocol A R G) (g : G) (p : Prog A R ε α) (post : G → α → Prop) : Prop :=
  p.Obeys P (fun g' out => ∀ x, out = .ok x → post g' x) g

theorem Ensures.ret {x : α} (h : post g x) : (ret x : Prog A R ε α).Ensures P g post :=
  fun _ hy => Except.ok.inj hy ▸ h

theorem Ensures.throw {e : ε} : (throw e : Prog A R ε α).Ensures P g post := nofun

theorem Ensures.mono (hp : p.Ensures P g post) (h : ∀ g x, post g x → post' g x) : p.Ensures P g post' :=
  Obeys.mono hp fun g _ hout x hx => h g x (hout x hx)

theorem Ensures.bind {f : α → Prog A R ε β} {post : G → β → Prop} {mid : G → α → Prop} (hp : p.Ensures P g mid)
    (hf : ∀ x g', mid g' x → (f x).Ensures P g' post) : (p.bind f).Ensures P g post := by
  refine Obeys.bind (Obeys.mono hp fun g' out hout => ?_)
  cases out with
  | error e => exact nofun
  | ok x => exact hf x g' (hout x rfl)

theorem Ensures.tryCatch {c : ε → Prog A R ε α} (hp : p.Ensures P g post) (hc : ∀ e g', (c e).Ensures P g' post) :
    (p.tryCatch c).Ensures P g post := by
  refine Obeys.tryCatch (Obeys.mono hp fun g' out hout => ?_)
  cases out with
  | error e => exact hc e g'
  | ok x => exact hout

theorem Ensures.await_bind {Ans : A → Type} {P : Protocol A (fun a => Except ε (Ans a)) G} {a : A}
    {f : Ans a → Prog A (fun a => Except ε (Ans a)) ε β} {post : G → β → Prop} (hok : P.ok g a)
    (hf : ∀ x, P.rely a (.ok x) → (f x).Ensures P (P.next g a (.ok x)) post) :
    ((await a).bind f).Ensures P g post := by
  refine ⟨hok, fun r hr => ?_⟩
  cases r with
  | error e => exact nofun
  | ok x => exact hf x hr

end Async.Prog
