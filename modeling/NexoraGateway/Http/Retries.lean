import NexoraGateway.Http.Client

/-!
# What `HttpClient.request` sends again

* `fetches_le_one_iff` — a request is sent once if it says that it is not idempotent, and else only if its first
  fetch is not one of those after which the client tries again.
* `bounded_iff` — the retries keep to the policy unless the server asks for a delay beyond it, or refuses the request
  with a body that cannot be parsed.
-/
namespace NexoraGateway.Http

open Text.Numerals (parseInt)

variable {T : Type}

/-- The client tries again after such an end, as long as it has attempts left. -/
def Outcome.resent : Outcome T → Bool
  | .networkError _ => true
  | .aborted => false
  | .answered response =>
    match response.data with
    | .error _ => true
    | .ok _ => !response.ok && isRetryableStatus response.status

/-- The answer is a 4xx other than 429. -/
def Outcome.refused : Outcome T → Bool
  | .answered response => 400 ≤ response.status ∧ response.status < 500 ∧ response.status ≠ 429
  | .networkError _ | .aborted => false

def Effect.isFetch : Effect T → Bool
  | .fetch _ _ => true
  | .sleep _ => false

def Effect.refused : Effect T → Bool
  | .fetch _ outcome => outcome.refused
  | .sleep _ => false

/-- A pause is a finite number of milliseconds between 0 and `maxRetryDelayMs`. -/
def Effect.Within (config : HttpClientConfig) : Effect T → Prop
  | .fetch _ _ => True
  | .sleep ms => ∃ q ∈ ms, 0 ≤ q ∧ q ≤ config.maxRetryDelayMs

instance (config : HttpClientConfig) : (e : Effect T) → Decidable (e.Within config)
  | .fetch _ _ => inferInstanceAs (Decidable True)
  | .sleep ms => inferInstanceAs (Decidable (∃ q ∈ ms, 0 ≤ q ∧ q ≤ config.maxRetryDelayMs))

def fetches (effects : List (Effect T)) : ℕ := effects.countP Effect.isFetch

@[simp] theorem fetches_nil : fetches ([] : List (Effect T)) = 0 := rfl

@[simp] theorem fetches_fetch (init : FetchInit) (outcome : Outcome T) (es : List (Effect T)) :
    fetches (.fetch init outcome :: es) = fetches es + 1 := List.countP_cons_of_pos rfl

@[simp] theorem fetches_sleep (ms : Option ℚ) (es : List (Effect T)) : fetches (.sleep ms :: es) = fetches es :=
  List.countP_cons_of_neg nofun

variable (config : HttpClientConfig) (options : RequestOptions) (world : World T)

/-- How long the client pauses after an end that it tries again after. -/
def pauseAfter (attempt : ℕ) : Outcome T → Option ℚ
  | .answered response =>
    match response.data with
    | .error _ => some (backoff config world attempt)
    | .ok _ => retryMs config world attempt response
  | .networkError _ | .aborted => some (backoff config world attempt)

/-- The effects of the passes that are left. -/
def effects : ℕ → ℕ → List (Effect T)
  | 0, _ => []
  | n + 1, attempt =>
    .fetch (init config options world) (world.outcomes attempt) ::
      if (world.outcomes attempt).resent = true ∧ (attempt : ℤ) < maxRetries config options then
        .sleep (pauseAfter config world attempt (world.outcomes attempt)) :: effects n (attempt + 1)
      else []

/-- **One pass**: it is followed by another one after an end that is tried again after, while attempts are left. -/
theorem turn_of_resent {attempt : ℕ} {outcome : Outcome T} (h : outcome.resent = true)
    (hlt : (attempt : ℤ) < maxRetries config options) :
    ∃ error, turn config options world attempt outcome =
      .again (some (pauseAfter config world attempt outcome)) error := by
  cases outcome with
  | networkError message => exact ⟨_, by rw [turn, caught, if_pos hlt]; rfl⟩
  | aborted => cases h
  | answered response =>
    cases hdata : response.data with
    | error message =>
      simp only [turn, hdata, caught, if_pos hlt, pauseAfter]
      exact ⟨_, rfl⟩
    | ok data =>
      simp only [Outcome.resent, hdata, Bool.and_eq_true, Bool.not_eq_true'] at h
      simp only [turn, hdata, h.1, h.2, hlt, Bool.false_eq_true, if_false, and_self, if_true, pauseAfter]
      exact ⟨_, rfl⟩

theorem turn_of_not_resent (attempt : ℕ) {outcome : Outcome T} (h : outcome.resent = false) :
    ∃ result, turn config options world attempt outcome = .done result := by
  cases outcome with
  | networkError message => cases h
  | aborted => exact ⟨_, rfl⟩
  | answered response =>
    cases hdata : response.data with
    | error message => simp [Outcome.resent, hdata] at h
    | ok data =>
      cases hok : response.ok with
      | true =>
        simp only [turn, hdata, hok, if_true]
        exact ⟨_, rfl⟩
      | false =>
        simp only [Outcome.resent, hdata, hok, Bool.not_false, Bool.true_and] at h
        simp only [turn, hdata, hok, h, Bool.false_eq_true, if_false, false_and]
        exact ⟨_, rfl⟩

/-- After the last pass the client does not pause. -/
theorem turn_last {attempt : ℕ} {outcome : Outcome T} (h : outcome.resent = true)
    (hlast : ¬ (attempt : ℤ) < maxRetries config options) :
    (∃ result, turn config options world attempt outcome = .done result) ∨
      ∃ error, turn config options world attempt outcome = .again none error := by
  cases outcome with
  | networkError message => exact .inr ⟨_, by rw [turn, caught, if_neg hlast]⟩
  | aborted => cases h
  | answered response =>
    cases hdata : response.data with
    | error message =>
      simp only [turn, hdata, caught, if_neg hlast]
      exact .inr ⟨_, rfl⟩
    | ok data =>
      simp only [Outcome.resent, hdata, Bool.and_eq_true, Bool.not_eq_true'] at h
      simp only [turn, hdata, h.1, h.2, hlast, Bool.false_eq_true, if_false, and_false]
      exact .inl ⟨_, rfl⟩

theorem effects_succ_head (n attempt : ℕ) : ∃ rest, effects config options world (n + 1) attempt =
    .fetch (init config options world) (world.outcomes attempt) :: rest := ⟨_, rfl⟩

variable {config options world}

theorem attempts_fst {n attempt : ℕ} (hn : n = (maxRetries config options + 1 - attempt).toNat)
    (lastError : Option (HttpFailure T)) :
    (attempts config options world n attempt lastError).1 = effects config options world n attempt := by
  induction n generalizing attempt lastError with
  | zero => rfl
  | succ n ih =>
    unfold attempts effects
    cases hresent : (world.outcomes attempt).resent with
    | false =>
      obtain ⟨result, hturn⟩ := turn_of_not_resent config options world attempt hresent
      simp [hturn]
    | true =>
      by_cases hlt : (attempt : ℤ) < maxRetries config options
      · obtain ⟨error, hturn⟩ := turn_of_resent config options world hresent hlt
        simp [hturn, hlt, @ih (attempt + 1) (by push_cast; omega)]
      · have hzero : n = 0 := by omega
        subst hzero
        rcases turn_last config options world hresent hlt with ⟨result, hturn⟩ | ⟨error, hturn⟩
        · simp [hturn, hlt]
        · simp [hturn, hlt, attempts]

theorem request_fst (config : HttpClientConfig) (options : RequestOptions) (world : World T) :
    (request config options world).1 = effects config options world (maxRetries config options + 1).toNat 0 :=
  attempts_fst (by omega) none

/-! ## How often a request is sent -/

theorem fetches_effects_le (n attempt : ℕ) : fetches (effects config options world n attempt) ≤ n := by
  induction n generalizing attempt with
  | zero => exact le_rfl
  | succ n ih =>
    unfold effects
    split
    · simpa using ih (attempt + 1)
    · simp

/-- **A request is sent once** exactly if it is marked as not idempotent, or the client has no retries, or its first
fetch ends in a way after which the client does not try again. The method is not asked. -/
theorem fetches_le_one_iff (config : HttpClientConfig) (options : RequestOptions) (world : World T) :
    fetches (request config options world).1 ≤ 1 ↔
      options.idempotent = some false ∨ config.maxRetries < 1 ∨ (world.outcomes 0).resent = false := by
  have hretries : maxRetries config options < 1 ↔ options.idempotent = some false ∨ config.maxRetries < 1 := by
    unfold maxRetries
    split <;> simp [*]
  rw [request_fst, ← or_assoc, ← hretries]
  constructor
  · intro hle
    by_contra hmany
    simp only [not_or, not_lt, Bool.not_eq_false] at hmany
    obtain ⟨m, hm⟩ : ∃ m, (maxRetries config options + 1).toNat = m + 2 :=
      ⟨(maxRetries config options - 1).toNat, by omega⟩
    have hlt : ((0 : ℕ) : ℤ) < maxRetries config options := by push_cast; omega
    obtain ⟨rest, hrest⟩ := effects_succ_head config options world m 1
    rw [hm, effects, if_pos ⟨hmany.2, hlt⟩, hrest] at hle
    simp at hle
  · rintro (hfew | hstops)
    · exact (fetches_effects_le _ _).trans (by omega)
    · cases (maxRetries config options + 1).toNat with
      | zero => exact Nat.zero_le 1
      | succ n => simp [effects, hstops]

/-- A payment is created, and the answer cannot be parsed: the request is sent four times. -/
theorem fetches_le_one_fails :
    ¬ fetches (request { baseUrl := "https://api.example.com" } { method := some .POST, body := some "{}" }
      { outcomes := fun _ => .answered { status := 201, data := .error "Unexpected end of JSON input" }
        random := fun _ => default, generateRequestId := "req_1", searchParams := fun _ => "", redactUrl := id :
          World String }).1 ≤ 1 := by
  decide +kernel

/-! ## The policy for retries -/

variable (config) in
/-- Nothing is sent after a 4xx other than 429, and the pauses are within bounds. -/
def Polite (es : List (Effect T)) : Prop :=
  es.Pairwise (fun e e' => e.refused = true → e'.isFetch = false) ∧ ∀ e ∈ es, e.Within config

variable (config options) in
/-- **The policy**: at most `maxRetries + 1` fetches, none after a refusal, and a bounded pause between two of them. -/
def Bounded (es : List (Effect T)) : Prop :=
  (fetches es : ℤ) ≤ max 0 (maxRetries config options + 1) ∧ Polite config es

variable (config) in
/-- No configured delay is negative. -/
def HttpClientConfig.DelaysNonneg : Prop := 0 ≤ config.baseRetryDelayMs ∧ 0 ≤ config.maxRetryDelayMs

variable (config) in
/-- The server asks for a delay within bounds, or for none. -/
def Response.AsksWithin (response : Response T) : Prop :=
  if response.retryAfter = "" then config.DelaysNonneg
  else ∃ n ∈ parseInt response.retryAfter, 0 ≤ n ∧ (n : ℚ) * 1000 ≤ config.maxRetryDelayMs

variable (config) in
/-- The end leads to no pause out of bounds, and is not the refusal of a request that is sent again. -/
def Outcome.Tame : Outcome T → Prop
  | .networkError _ => config.DelaysNonneg
  | .aborted => True
  | .answered response =>
    match response.data with
    | .error _ => (Outcome.answered response).refused = false ∧ config.DelaysNonneg
    | .ok _ => response.AsksWithin config

/-- The delays of `backoffDelay` are within bounds just when no configured delay is negative. -/
theorem backoff_within_iff (attempt : ℕ) :
    (Effect.sleep (some (backoff config world attempt)) : Effect T).Within config ↔ config.DelaysNonneg := by
  have hfactor : 0 < (2 : ℚ) ^ attempt + (world.random attempt).val :=
    add_pos_of_pos_of_nonneg (by positivity) (world.random attempt).nonneg
  have hdelay : backoff config world attempt =
      min (config.baseRetryDelayMs * (2 ^ attempt + (world.random attempt).val)) config.maxRetryDelayMs := by
    rw [backoff, backoffDelay]
    ring_nf
  have hmax : backoff config world attempt ≤ config.maxRetryDelayMs := hdelay ▸ min_le_right _ _
  have hmin : 0 ≤ backoff config world attempt ↔ config.DelaysNonneg := by
    rw [hdelay, le_min_iff, mul_nonneg_iff_of_pos_right hfactor]
    rfl
  simp [Effect.Within, hmax, hmin]

theorem retryMs_within_iff (attempt : ℕ) (response : Response T) :
    (Effect.sleep (retryMs config world attempt response) : Effect T).Within config ↔ response.AsksWithin config := by
  unfold retryMs Response.AsksWithin
  by_cases hnone : response.retryAfter = ""
  · rw [if_pos hnone, if_pos hnone]
    exact backoff_within_iff attempt
  · rw [if_neg hnone, if_neg hnone]
    cases hparsed : parseInt response.retryAfter with
    | none => simp [Effect.Within]
    | some n => simp [Effect.Within]

theorem refused_of_isRetryableStatus {response : Response T} (h : isRetryableStatus response.status = true) :
    (Outcome.answered response).refused = false := by
  simp only [isRetryableStatus, decide_eq_true_eq] at h
  simp only [Outcome.refused, decide_eq_false_iff_not]
  omega

theorem tame_iff {outcome : Outcome T} (h : outcome.resent = true) (attempt : ℕ) :
    outcome.Tame config ↔ outcome.refused = false ∧
      (Effect.sleep (pauseAfter config world attempt outcome) : Effect T).Within config := by
  cases outcome with
  | networkError message => simp [Outcome.Tame, Outcome.refused, pauseAfter, backoff_within_iff]
  | aborted => cases h
  | answered response =>
    cases hdata : response.data with
    | error message => simp [Outcome.Tame, hdata, pauseAfter, backoff_within_iff]
    | ok data =>
      simp only [Outcome.resent, hdata, Bool.and_eq_true] at h
      simp [Outcome.Tame, hdata, pauseAfter, refused_of_isRetryableStatus h.2, retryMs_within_iff]

instance (es : List (Effect T)) : Decidable (Bounded config options es) := inferInstanceAs (Decidable (_ ∧ _ ∧ _))

theorem polite_singleton (init : FetchInit) (outcome : Outcome T) : Polite config [.fetch init outcome] := by
  refine ⟨List.pairwise_singleton _ _, fun e he => ?_⟩
  rw [List.mem_singleton.1 he]
  trivial

/-- A pass that is followed by another one is polite if its end is tame. -/
theorem polite_again {init init' : FetchInit} {outcome outcome' : Outcome T} {ms : Option ℚ} {es : List (Effect T)} :
    Polite config (.fetch init outcome :: .sleep ms :: .fetch init' outcome' :: es) ↔
      (outcome.refused = false ∧ (Effect.sleep ms : Effect T).Within config) ∧
        Polite config (.fetch init' outcome' :: es) := by
  constructor
  · rintro ⟨hpairs, hwithin⟩
    obtain ⟨hfirst, hrest⟩ := List.pairwise_cons.1 hpairs
    refine ⟨⟨?_, hwithin _ (by simp)⟩, (List.pairwise_cons.1 hrest).2, fun e he => hwithin e (by simp [he])⟩
    by_contra hrefused
    have hsilent := hfirst (.fetch init' outcome') (by simp) (by simpa [Effect.refused] using hrefused)
    cases hsilent
  · rintro ⟨⟨hrefused, hpause⟩, hpairs, hwithin⟩
    refine ⟨List.pairwise_cons.2 ⟨fun e _ h => ?_, List.pairwise_cons.2 ⟨fun e _ h => ?_, hpairs⟩⟩, ?_⟩
    · rw [Effect.refused, hrefused] at h
      cases h
    · cases h
    · intro e he
      rcases List.mem_cons.1 he with rfl | he
      · trivial
      · rcases List.mem_cons.1 he with rfl | he
        · exact hpause
        · exact hwithin e he

/-- By induction on the passes that are left. -/
theorem polite_effects_iff {n attempt : ℕ} (hn : n = (maxRetries config options + 1 - attempt).toNat) :
    Polite config (effects config options world n attempt) ↔
      ∀ i : ℕ, attempt ≤ i → (i : ℤ) < maxRetries config options →
        (∀ j, attempt ≤ j → j ≤ i → (world.outcomes j).resent = true) → (world.outcomes i).Tame config := by
  induction n generalizing attempt with
  | zero => exact iff_of_true ⟨.nil, fun e he => absurd he List.not_mem_nil⟩ fun i hle hlt => by omega
  | succ n ih =>
    by_cases hagain : (world.outcomes attempt).resent = true ∧ (attempt : ℤ) < maxRetries config options
    · obtain ⟨hresent, hlt⟩ := hagain
      obtain ⟨m, rfl⟩ : ∃ m, n = m + 1 := ⟨n - 1, by omega⟩
      obtain ⟨rest, hrest⟩ := effects_succ_head config options world m (attempt + 1)
      rw [effects, if_pos ⟨hresent, hlt⟩, hrest, polite_again, ← hrest, ← tame_iff hresent, ih (by push_cast; omega)]
      constructor
      · rintro ⟨htame, hlater⟩ i hle hlt' hall
        rcases Nat.eq_or_lt_of_le hle with rfl | hle
        · exact htame
        · exact hlater i hle hlt' fun j hj hji => hall j (by omega) hji
      · intro h
        refine ⟨h attempt le_rfl hlt fun j hj hji => ?_, fun i hle hlt' hall => h i (by omega) hlt' fun j hj hji => ?_⟩
        · rwa [Nat.le_antisymm hji hj]
        · rcases Nat.eq_or_lt_of_le hj with rfl | hj
          · exact hresent
          · exact hall j hj hji
    · rw [effects, if_neg hagain]
      refine iff_of_true (polite_singleton _ _) fun i hle hlt hall => ?_
      exact absurd ⟨hall attempt le_rfl hle, by omega⟩ hagain

/-- **The retries keep to the policy** exactly if every end after which the client tries again is tame. -/
theorem bounded_iff (config : HttpClientConfig) (options : RequestOptions) (world : World T) :
    Bounded config options (request config options world).1 ↔
      ∀ i : ℕ, (i : ℤ) < maxRetries config options → (∀ j ≤ i, (world.outcomes j).resent = true) →
        (world.outcomes i).Tame config := by
  have hcount : (fetches (effects config options world (maxRetries config options + 1).toNat 0) : ℤ) ≤
      max 0 (maxRetries config options + 1) := by
    have hle : fetches (effects config options world (maxRetries config options + 1).toNat 0) ≤ _ :=
      fetches_effects_le _ _
    omega
  rw [request_fst, Bounded, polite_effects_iff (by simp)]
  simp [hcount]

/-- The server asks for an hour, and the client waits for it. -/
theorem bounded_fails :
    ¬ Bounded { baseUrl := "https://api.example.com" } {} (request { baseUrl := "https://api.example.com" } {}
      { outcomes := fun _ => .answered { status := 503, headers := [("retry-after", "3600")], data := .ok "" }
        random := fun _ => default, generateRequestId := "req_1", searchParams := fun _ => "", redactUrl := id :
          World String }).1 := by
  decide +kernel

end NexoraGateway.Http
