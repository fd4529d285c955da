import NexoraGateway.Accounts.Service
import NexoraGateway.Async.Ensures

/-!
# Registrations last

Over whole runs, every reply that an account has been created stands for a row of its own (`Made`), of which only the
API key changes later.

* `registrations_last` — whoever has been told that an account was created can log in with the password from then on,
  and nobody else has been told so for that address.
-/
namespace NexoraGateway.Accounts

open Async Store
open Api (given generateToken)

variable {db db' : Db}

/-! ## One account for each address -/

/-- No two accounts have one address. -/
def OneEach (db : Db) : Prop :=
  ∀ row ∈ db.merchants.rows, ∀ other ∈ db.merchants.rows,
    row.email.isSome = true → other.email = row.email → other = row

theorem oneEach_kept {a : Call} {r : Answer a} (h : Effect db a r db') (hdb : OneEach db) : OneEach db' := by
  cases h with
  | inserted hinsert r hr =>
    obtain ⟨hemail, -, hrows, -⟩ := insertRow_eq_some hinsert
    intro row hrow other hother hsome heq
    rw [hrows, List.mem_append, List.mem_singleton] at hrow hother
    rcases hrow with hrow | rfl <;> rcases hother with hother | rfl
    · exact hdb row hrow other hother hsome heq
    · exact absurd heq.symm (hemail row hrow (heq ▸ hsome))
    · exact absurd heq (hemail other hother hsome)
    · rfl
  | rekeyed id hash now r =>
    intro row hrow other hother hsome heq
    obtain ⟨row₀, hrow₀, rfl⟩ := mem_setApiKeyHash.1 hrow
    obtain ⟨other₀, hother₀, rfl⟩ := mem_setApiKeyHash.1 hother
    have hemail (m : Merchant) : (if m.id = id then m.setApiKeyHash hash now else m).email = m.email := by
      split <;> rfl
    rw [hemail] at hsome heq
    rw [hemail] at heq
    rw [hdb row₀ hrow₀ other₀ hother₀ hsome heq]
  | _ => exact hdb

/-! ## What a task has made -/

variable {crypto : Crypto}

/-- The ghost state of a task is the account that it has made. -/
def making : Protocol Call Answer (Option Merchant) where
  ok _ _ := True
  rely
    | .insert row, .ok made => ∃ now, made = row now
    | _, _ => True
  next g
    | .insert _, .ok made => some made
    | _, _ => g

/-- The account that the reply to a registration tells of. -/
structure Made (crypto : Crypto) (body : RegisterRequest) (r : AuthResponse) (row : Merchant) : Prop where
  id : r.merchantId = row.id
  name : r.name = row.name
  email : r.email = row.email
  address : given body.email = row.email ∧ row.email.isSome = true
  password : ∃ password salt, given body.password = some password ∧ given row.passwordSalt = some salt ∧
    row.passwordHash = some (crypto.pbkdf2 password salt)

theorem Made.same {body : RegisterRequest} {r : AuthResponse} {row row' : Merchant} (h : Made crypto body r row)
    (hsame : SameAccount row row') : Made crypto body r row' := by
  rw [hsame]
  exact ⟨h.id, h.name, h.email, h.address, h.password⟩

theorem given_eq_some {text : Option String} {value : String} :
    given text = some value ↔ text = some value ∧ value ≠ "" := by
  simp [given, Option.filter_eq_some_iff]

theorem given_hex (bytes : RandomBytes) : given (some bytes.hex) = some bytes.hex := by
  refine given_eq_some.2 ⟨rfl, fun h => ?_⟩
  have hlength := bytes.length
  rw [h] at hlength
  cases hlength

theorem making_tokenFor {g : Option Merchant} (id : Id) : (tokenFor id).Ensures making g fun g' _ => g' = g :=
  Prog.Ensures.await_bind trivial fun _ _ => Prog.Ensures.await_bind trivial fun _ _ => Prog.Ensures.ret rfl

theorem making_generateApiKey {g : Option Merchant} : generateApiKey.Ensures making g fun g' _ => g' = g :=
  Prog.Ensures.await_bind trivial fun _ _ => Prog.Ensures.ret rfl

/-- A registration that resolves has passed the checks. -/
theorem register_ensures {G : Type} {P : Protocol Call Answer G} {g : G} {post : G → AuthResponse → Prop}
    {body : RegisterRequest} (hfind : P.ok g (.findByEmail body.email))
    (hpassed : ∀ existing name email password, given body.name = some name → given body.email = some email →
      given body.password = some password →
      (do
        let salt ← Task.randomBytes
        let apiKey ← generateApiKey
        let merchantId ← Task.randomUUID
        let merchant ← Task.insert
          (newMerchant body merchantId name email (crypto.pbkdf2 password salt.hex) salt.hex (crypto.sha256 apiKey))
        let token ← tokenFor merchant.id
        return { merchantId := merchant.id, name := merchant.name, email := merchant.email, apiKey, token }
        : Task AuthResponse).Ensures P (P.next g (.findByEmail body.email) (.ok existing)) post) :
    (register crypto body).Ensures P g post := by
  refine Prog.Ensures.await_bind hfind fun existing _ => ?_
  by_cases hexisting : existing.isSome = true
  · rw [if_pos hexisting]
    exact Prog.Ensures.throw
  · rw [if_neg hexisting]
    cases hname : given body.name <;> cases hemail : given body.email <;> cases hpassword : given body.password
    case some.some.some name email password =>
      dsimp only
      by_cases hshort : (Compliance.charCodes password).length < 8
      · rw [if_pos hshort]
        exact Prog.Ensures.throw
      · rw [if_neg hshort]
        exact hpassed existing name email password hname hemail hpassword
    all_goals exact Prog.Ensures.throw

theorem making_register (body : RegisterRequest) :
    (register crypto body).Ensures making none fun g r => ∃ row, g = some row ∧ Made crypto body r row := by
  refine register_ensures trivial fun existing name email password _ hemail hpassword => ?_
  refine Prog.Ensures.await_bind trivial fun salt _ => ?_
  refine Prog.Ensures.bind making_generateApiKey fun apiKey _ _ => ?_
  refine Prog.Ensures.await_bind trivial fun id _ => Prog.Ensures.await_bind trivial fun made hmade => ?_
  obtain ⟨now, rfl⟩ := hmade
  refine Prog.Ensures.bind (making_tokenFor _) fun token g hg => Prog.Ensures.ret ⟨_, hg, ?_⟩
  exact ⟨rfl, rfl, rfl, ⟨hemail, rfl⟩, password, salt.hex, hpassword, given_hex salt, rfl⟩

theorem registerFailed_ne_created (message : String) (r : AuthResponse) : registerFailed message ≠ .created r := by
  unfold registerFailed
  split
  · exact nofun
  · split <;> exact nofun

/-- What the reply to a request says that its task has made. -/
def Replied (crypto : Crypto) (g : Option Merchant) (out : Request × Reply) : Prop :=
  ∀ body r, out = (.register body, .created r) → ∃ row, g = some row ∧ Made crypto body r row

theorem making_answered (request : Request) : (answered crypto request).Ensures making none (Replied crypto) := by
  by_cases hrequest : ∃ body, request = .register body
  · obtain ⟨body, rfl⟩ := hrequest
    have hreply (g : Option Merchant) (reply : Reply) (h : Replied crypto g (.register body, reply)) :
        (Prog.ret (.register body, reply) : Task (Request × Reply)).Ensures making g (Replied crypto) :=
      Prog.Ensures.ret h
    refine Prog.Ensures.bind ?_ fun reply g h => hreply g reply h
    refine Prog.Ensures.tryCatch (Prog.Ensures.bind (making_register body) fun r g h => Prog.Ensures.ret ?_)
      fun message g => Prog.Ensures.ret fun body r heq => ?_
    · rintro body' r' heq
      cases heq
      exact h
    · exact absurd (congrArg Prod.snd heq) (registerFailed_ne_created message r)
  · have hany : (respond crypto request).Ensures making none fun _ _ => True :=
      ((Prog.only_true _).obeys (fun _ _ _ => trivial) none).mono fun _ _ _ _ _ => trivial
    refine Prog.Ensures.bind hany fun reply g _ => Prog.Ensures.ret fun body r heq => ?_
    exact absurd ⟨body, congrArg Prod.fst heq⟩ hrequest

/-! ## Whole runs -/

/-- The accounts that tasks have made are there, no two of them one. -/
structure Kept (db : Db) (gs : List (Option Merchant)) : Prop where
  oneEach : OneEach db
  there : ∀ row, some row ∈ gs → ∃ row' ∈ db.merchants.rows, SameAccount row row'
  apart : gs.Pairwise fun g g' => ∀ row ∈ g, ∀ row' ∈ g', row.id ≠ row'.id

theorem Kept.spawn {gs : List (Option Merchant)} (h : Kept db gs) : Kept db (gs ++ [none]) := by
  refine ⟨h.oneEach, fun row hrow => h.there row (by simpa using hrow), ?_⟩
  refine List.pairwise_append.2 ⟨h.apart, List.pairwise_singleton _ _, fun g _ g' hg' row _ row' hrow' => ?_⟩
  rw [List.mem_singleton.1 hg'] at hrow'
  cases hrow'

theorem there_kept {a : Call} {r : Answer a} (heff : Effect db a r db') {gs : List (Option Merchant)}
    (h : ∀ row, some row ∈ gs → ∃ row' ∈ db.merchants.rows, SameAccount row row') :
    ∀ row, some row ∈ gs → ∃ row' ∈ db'.merchants.rows, SameAccount row row' := by
  intro row hrow
  obtain ⟨row', hrow', hsame⟩ := h row hrow
  obtain ⟨row'', hrow'', hsame'⟩ := account_kept heff hrow'
  exact ⟨row'', hrow'', hsame.trans hsame'⟩

theorem apart_focus {gs₁ gs₂ : List (Option Merchant)} {g : Option Merchant} :
    (gs₁ ++ g :: gs₂).Pairwise (fun g g' => ∀ row ∈ g, ∀ row' ∈ g', row.id ≠ row'.id) ↔
      (∀ g' ∈ gs₁ ++ gs₂, ∀ row ∈ g, ∀ row' ∈ g', row.id ≠ row'.id) ∧
        (gs₁ ++ gs₂).Pairwise fun g g' => ∀ row ∈ g, ∀ row' ∈ g', row.id ≠ row'.id :=
  (List.pairwise_middle fun h row' hrow' row hrow => (h row hrow row' hrow').symm).trans List.pairwise_cons

/-- A new account has an id that no other has. -/
theorem kept_insert {row : Time → Merchant} {made : Merchant} {gs₁ gs₂ : List (Option Merchant)} {g : Option Merchant}
    (heff : Effect db (.insert row) (.ok made) db') (hinsert : insertRow made db = some db')
    (h : Kept db (gs₁ ++ g :: gs₂)) : Kept db' (gs₁ ++ some made :: gs₂) := by
  obtain ⟨-, hnone, hrows, -⟩ := insertRow_eq_some hinsert
  have hthere := there_kept heff h.there
  have hfresh : ∀ g' ∈ gs₁ ++ gs₂, ∀ old ∈ g', old.id ≠ made.id := by
    intro g' hg' old hold
    obtain rfl : g' = some old := hold
    obtain ⟨row', hrow', hsame⟩ := h.there old (by
      rcases List.mem_append.1 hg' with hmem | hmem
      · exact List.mem_append_left _ hmem
      · exact List.mem_append_right _ (List.mem_cons_of_mem _ hmem))
    rw [show old.id = row'.id by rw [hsame]]
    exact Table.find?_eq_none.1 hnone row' hrow'
  refine ⟨oneEach_kept heff h.oneEach, fun old hold => ?_,
    apart_focus.2 ⟨fun g' hg' row hrow row' hrow' => ?_, (apart_focus.1 h.apart).2⟩⟩
  · rcases List.mem_append.1 hold with hmem | hmem
    · exact hthere old (List.mem_append_left _ hmem)
    · rcases List.mem_cons.1 hmem with heq | hmem
      · obtain rfl := Option.some.inj heq
        exact ⟨old, hrows ▸ List.mem_append_right _ (List.mem_singleton_self _), .refl old⟩
      · exact hthere old (List.mem_append_right _ (List.mem_cons_of_mem _ hmem))
  · obtain rfl : made = row := Option.some.inj hrow
    exact (hfresh g' hg' row' hrow').symm

theorem kept_step {a : Call} {r : Answer a} (heff : Effect db a r db') {gs₁ gs₂ : List (Option Merchant)}
    {g : Option Merchant} (h : Kept db (gs₁ ++ g :: gs₂)) :
    making.rely a r ∧ Kept db' (gs₁ ++ making.next g a r :: gs₂) := by
  have hstay : Kept db' (gs₁ ++ g :: gs₂) := ⟨oneEach_kept heff h.oneEach, there_kept heff h.there, h.apart⟩
  cases a with
  | insert row =>
    cases r with
    | error e => exact ⟨trivial, hstay⟩
    | ok made =>
      cases id heff with
      | @inserted _ now _ hinsert _ hr =>
        obtain rfl : made = row now := hr made rfl
        exact ⟨⟨now, rfl⟩, kept_insert heff hinsert h⟩
  | _ => exact ⟨trivial, hstay⟩

section
variable {cs : List (Choice Call Answer String (Request × Reply) Oracle)}

theorem accounts_kept (hstart : ∀ p, .spawn p ∈ cs → ∃ request, p = answered crypto request) :
    (noAccounts.exec handle cs).EndsInv making (fun g out => ∀ x, out = .ok x → Replied crypto g x) Kept := by
  have hempty : noAccounts.EndsInv making (fun g out => ∀ x, out = .ok x → Replied crypto g x) Kept :=
    ⟨[], .nil, fun _ hrow => absurd hrow List.not_mem_nil, fun _ hrow => absurd hrow List.not_mem_nil, .nil⟩
  have hcareful : noAccounts.Careful handle (fun _ _ _ => True) cs :=
    Pool.careful_of_guarded (Pool.guarded_of_forall (fun _ _ => trivial) _ cs)
  refine Pool.exec_ends_inv (fun p hp => ?_) ?_ hempty hstart hcareful
  · obtain ⟨request, rfl⟩ := hp
    exact ⟨none, making_answered request, fun _ _ h => h.spawn⟩
  · exact fun db gs₁ g gs₂ a o h _ _ => kept_step (handle_effect a o db) h

end

theorem findByEmail_row (hone : OneEach db) {row : Merchant} (hrow : row ∈ db.merchants.rows) {email : String}
    (hemail : row.email = some email) : db.findByEmail (some email) = some row := by
  change db.merchants.rows.find? (fun other => decide (other.email = some email)) = some row
  cases hfind : db.merchants.rows.find? fun other => decide (other.email = some email) with
  | none => simpa [hemail] using List.find?_eq_none.1 hfind row hrow
  | some other =>
    have hother : other.email = row.email := by simpa [hemail] using List.find?_some hfind
    exact congrArg some (hone row hrow other (List.mem_of_find?_eq_some hfind) (by rw [hemail]; rfl) hother)

/-- Whoever has made an account can log in to it. -/
theorem login_made (hone : OneEach db) {body : RegisterRequest} {r : AuthResponse} {row : Merchant}
    (hrow : row ∈ db.merchants.rows) (hmade : Made crypto body r row) {ω : Nat → Oracle}
    (hω : ∀ n, (ω n).rejects = none) : ∃ token k,
    (login crypto ⟨body.email, body.password⟩).run handle ω 0 db =
      (.ok { merchantId := r.merchantId, name := r.name, email := r.email, apiKey := "", token }, k, db) := by
  obtain ⟨haddress, hsome⟩ := hmade.address
  obtain ⟨email, hemail⟩ := Option.isSome_iff_exists.1 hsome
  obtain ⟨password, salt, hpassword, hsalt, hhash⟩ := hmade.password
  have hfound : handle (.findByEmail (some email)) (ω 0) db = (.ok (some row), db) := by
    simp only [handle, findByEmail_row hone hrow hemail, request, hω]
  rw [hmade.id, hmade.name, hmade.email]
  refine ⟨generateToken (ω 1).now (ω 2).now row.id, 3, ?_⟩
  simp only [login, haddress, hemail, hpassword]
  refine (Prog.run_await_bind_of_ok ω hfound _).trans ?_
  simp only [hsalt]
  change (if some (crypto.pbkdf2 password salt) ≠ row.passwordHash then _ else _ : Task AuthResponse).run
    handle ω 1 db = _
  rw [if_neg (by rw [hhash]; exact fun h => h rfl)]
  simp only [hemail]
  rfl

/-- Tasks that have made one account are one task. -/
theorem Kept.eq_of_id {gs : List (Option Merchant)} (h : Kept db gs) {i j : Nat} {row row' : Merchant}
    (hi : gs[i]? = some (some row)) (hj : gs[j]? = some (some row')) (hid : row.id = row'.id) : i = j := by
  obtain ⟨hi, hrow⟩ := List.getElem?_eq_some_iff.1 hi
  obtain ⟨hj, hrow'⟩ := List.getElem?_eq_some_iff.1 hj
  have hapart := List.pairwise_iff_getElem.1 h.apart
  rcases Nat.lt_trichotomy i j with hlt | heq | hgt
  · exact absurd hid (hapart i j hi hj hlt row hrow row' hrow')
  · exact heq
  · exact absurd hid.symm (hapart j i hj hi hgt row' hrow' row hrow)

/-- An account for the same address is the same account. -/
theorem Kept.same_account {gs : List (Option Merchant)} (h : Kept db gs) {row row' : Merchant} (hrow : some row ∈ gs)
    (hrow' : some row' ∈ gs) (hsome : row.email.isSome = true) (hemail : row'.email = row.email) :
    row.id = row'.id := by
  obtain ⟨now, hnow, hsame⟩ := h.there row hrow
  obtain ⟨now', hnow', hsame'⟩ := h.there row' hrow'
  have hnowEmail : now.email = row.email := by rw [hsame]
  have hnowEmail' : now'.email = row'.email := by rw [hsame']
  have heq : now' = now :=
    h.oneEach now hnow now' hnow' (hnowEmail ▸ hsome) (by rw [hnowEmail', hnowEmail, hemail])
  calc row.id = now.id := by rw [hsame]
    _ = now'.id := by rw [heq]
    _ = row'.id := by rw [hsame']

section
variable {cs : List (Choice Call Answer String (Request × Reply) Oracle)}

/-- **A registration that was answered lasts**: from then on its address and password log in to the account, and no
other request has been told that it made an account for that address, or this account. -/
theorem registrations_last (hstart : ∀ p, .spawn p ∈ cs → ∃ request, p = answered crypto request) {i : Nat}
    {body : RegisterRequest} {r : AuthResponse}
    (hi : (noAccounts.exec handle cs).Ended i (.ok (.register body, .created r))) :
    (∀ ω : Nat → Oracle, (∀ n, (ω n).rejects = none) → ∃ token,
      ((respond crypto (.login ⟨body.email, body.password⟩)).run handle ω 0 (noAccounts.exec handle cs).store).1 =
        .ok (.session { merchantId := r.merchantId, name := r.name, email := r.email, apiKey := "", token })) ∧
    ∀ j body' r', (noAccounts.exec handle cs).Ended j (.ok (.register body', .created r')) →
      body'.email = body.email ∨ r'.merchantId = r.merchantId → j = i := by
  obtain ⟨gs, hkept, hended⟩ := (accounts_kept hstart).ended
  have hmade : ∀ j body r, (noAccounts.exec handle cs).Ended j (.ok (.register body, .created r)) →
      ∃ row, gs[j]? = some (some row) ∧ Made crypto body r row := by
    intro j body r hj
    obtain ⟨g, hg, hreply⟩ := hended j _ hj
    obtain ⟨row, rfl, hrow⟩ := hreply _ rfl body r rfl
    exact ⟨row, hg, hrow⟩
  obtain ⟨row, hg, hrow⟩ := hmade i body r hi
  refine ⟨fun ω hω => ?_, fun j body' r' hj hor => ?_⟩
  · obtain ⟨now, hnow, hsame⟩ := hkept.there row (List.mem_of_getElem? hg)
    obtain ⟨token, k, hrun⟩ := login_made hkept.oneEach hnow (hrow.same hsame) hω
    refine ⟨token, ?_⟩
    change (((login crypto _).bind _).tryCatch _ |>.run _ _ _ _).1 = _
    rw [Prog.run_tryCatch, Prog.run_bind_of_ok handle ω _ hrun]
    rfl
  · obtain ⟨row', hg', hrow'⟩ := hmade j body' r' hj
    have hid : row.id = row'.id := by
      rcases hor with hemail | hid
      · refine hkept.same_account (List.mem_of_getElem? hg) (List.mem_of_getElem? hg') hrow.address.2 ?_
        rw [← hrow'.address.1, ← hrow.address.1, hemail]
      · rw [← hrow.id, ← hrow'.id, hid]
    exact (hkept.eq_of_id hg hg' hid).symm

end

/-! ## A run -/

/-- Readable stand-ins for the two hash functions. -/
def plainCrypto : Crypto := ⟨fun password salt => password ++ ":" ++ salt, fun data => "#" ++ data⟩

def shopBody : RegisterRequest :=
  { name := some "My Store", email := some "merchant@example.com", password := some "securepassword123" }

/-- Two registrations for one address, call by call; the account of the first is inserted before the second's. -/
def twoRegister : List (Choice Call Answer String (Request × Reply) Oracle) :=
  let register := Choice.spawn (answered plainCrypto (.register shopBody))
  let both (o : Oracle) : List (Choice Call Answer String (Request × Reply) Oracle) := [.step 0 o, .step 1 o]
  [register, register] ++ both {} ++ both { bytes := .of '1' } ++ both { bytes := .of '2' } ++ both { uuid := "m1" } ++
    both { now := 1000 } ++ both { now := 2000 } ++ both { now := 2000 }

theorem twoRegister_registers : ∀ p, .spawn p ∈ twoRegister → ∃ request, p = answered plainCrypto request := by
  intro p hp
  simp [twoRegister] at hp
  exact ⟨_, hp⟩

def shopAccount : AuthResponse :=
  { merchantId := "m1", name := "My Store", email := some "merchant@example.com"
    apiKey := apiKeyOf (RandomBytes.of '2').hex, token := generateToken 2000 2000 "m1" }

theorem registrations_last_two :
    (∃ token, ((respond plainCrypto (.login ⟨shopBody.email, shopBody.password⟩)).run handle (fun _ => {}) 0
        (noAccounts.exec handle twoRegister).store).1 =
      .ok (.session
        { merchantId := "m1", name := "My Store", email := some "merchant@example.com", apiKey := "", token })) ∧
    ∀ j body r, (noAccounts.exec handle twoRegister).Ended j (.ok (.register body, .created r)) →
      body.email = shopBody.email ∨ r.merchantId = "m1" → j = 0 := by
  have hfirst : (noAccounts.exec handle twoRegister).Ended 0 (.ok (.register shopBody, .created shopAccount)) := rfl
  have h := registrations_last twoRegister_registers hfirst
  exact ⟨h.1 _ fun _ => rfl, h.2⟩

end NexoraGateway.Accounts
