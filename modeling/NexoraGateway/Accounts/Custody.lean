import NexoraGateway.Accounts.Keys
import NexoraGateway.Async.Knowledge
import NexoraGateway.Async.Past

/-!
# Who replaces a key

Between the check of a key and the write of its successor other requests run, so what was checked is remembered
(`Past`): a request acts on what `Was` so at some moment since it started. The others may be any tasks at all.

* `keys_issued` — what a reply says of a key was so while the request ran.
* `keys_replaced` — a key ceases to let a merchant in only through a request to replace it that presented, while it ran,
  a key that let the merchant in.
-/
namespace NexoraGateway.Accounts

open Async Store
open Api (given)

variable {crypto : Crypto} {db db' : Db}

/-! ## What a request learns -/

section
variable (crypto : Crypto)

/-- The key has been seen to be the merchant's. -/
def Seen (facts : List (String × Id)) (key : String) (id : Id) : Prop := key ≠ "" ∧ (crypto.sha256 key, id) ∈ facts

/-- A request learns whose rows hold which key hashes, and only a request to replace a key that has been seen to be
the merchant's writes another to the row. -/
def custody (request : Request) : Knowledge Call Answer (Past Db) (String × Id) where
  Holds t f := t.Was fun db => KeyedTo db f.1 f.2
  ok facts
    | .setApiKeyHash id _ => ∃ key, request = .regenerateKey (some key) ∧ Seen crypto facts key id
    | _ => True
  rely
    | .insert row, .ok made => ∃ now, made = row now
    | _, _ => True
  learns
    | .findByApiKeyHash hash, .ok (some row) => [(hash, Merchant.id row)]
    | .insert _, .ok made => (Merchant.apiKeyHash made).toList.map fun hash => (hash, Merchant.id made)
    | .setApiKeyHash id hash, .ok _ => [(hash, id)]
    | _, _ => []

end

/-- The keys that a reply tells of are, or have been, as `theirs` says. -/
def Told (theirs : String → Id → Prop) : Request → Reply → Prop
  | .register _, .created r => theirs r.apiKey r.merchantId
  | .regenerateKey presented, .key new => ∃ key id, presented = some key ∧ theirs key id ∧ theirs new id
  | .guarded key, .admitted id => theirs key id
  | _, _ => True

theorem Told.mono {theirs theirs' : String → Id → Prop} {request : Request} {reply : Reply}
    (h : Told theirs request reply) (hmono : ∀ key id, theirs key id → theirs' key id) :
    Told theirs' request reply := by
  cases request <;> cases reply <;> try trivial
  case register.created => exact hmono _ _ h
  case regenerateKey.key =>
    obtain ⟨key, id, hpresented, hkey, hnew⟩ := h
    exact ⟨key, id, hpresented, hmono _ _ hkey, hmono _ _ hnew⟩
  case guarded.admitted => exact hmono _ _ h

variable {request : Request} {facts : List (String × Id)}

theorem apiKeyOf_ne (hex : String) : apiKeyOf hex ≠ "" := by
  intro h
  have hlength := congrArg String.length h
  simp [apiKeyOf] at hlength

theorem custody_generateApiKey : generateApiKey.Ensures (custody crypto request).protocol facts
    fun facts' apiKey => facts ⊆ facts' ∧ apiKey ≠ "" :=
  Prog.Ensures.await_bind trivial fun bytes _ => Prog.Ensures.ret ⟨List.subset_append_left _ _, apiKeyOf_ne bytes.hex⟩

theorem custody_tokenFor (id : Id) : (tokenFor id).Ensures (custody crypto request).protocol facts
    fun facts' _ => facts ⊆ facts' := by
  refine Prog.Ensures.await_bind trivial fun _ _ => Prog.Ensures.await_bind trivial fun _ _ => Prog.Ensures.ret ?_
  exact List.Subset.trans (List.subset_append_left _ _) (List.subset_append_left _ _)

theorem custody_register (body : RegisterRequest) :
    (register crypto body).Ensures (custody crypto request).protocol facts
      fun facts' r => Seen crypto facts' r.apiKey r.merchantId := by
  refine register_ensures trivial fun _ _ _ _ _ _ _ => ?_
  refine Prog.Ensures.await_bind trivial fun salt _ => ?_
  refine Prog.Ensures.bind custody_generateApiKey fun apiKey facts' hkey => ?_
  refine Prog.Ensures.await_bind trivial fun id _ => Prog.Ensures.await_bind trivial fun made hmade => ?_
  obtain ⟨now, rfl⟩ := hmade
  refine Prog.Ensures.bind (custody_tokenFor _) fun token facts'' hsub => Prog.Ensures.ret ⟨hkey.2, hsub ?_⟩
  exact List.mem_append_right _ (List.mem_singleton_self _)

theorem custody_regenerateApiKey {key : String} {id : Id} (hseen : Seen crypto facts key id) :
    (regenerateApiKey crypto id).Ensures (custody crypto (.regenerateKey (some key))).protocol facts
      fun facts' new => Seen crypto facts' key id ∧ Seen crypto facts' new id := by
  refine Prog.Ensures.bind custody_generateApiKey fun new facts' hnew => ?_
  have hseen' : Seen crypto facts' key id := ⟨hseen.1, hnew.1 hseen.2⟩
  refine Prog.Ensures.await_bind ⟨key, rfl, hseen'⟩ fun _ _ => Prog.Ensures.ret ⟨⟨hseen.1, ?_⟩, hnew.2, ?_⟩
  · exact List.mem_append_left _ hseen'.2
  · exact List.mem_append_right _ (List.mem_singleton_self _)

theorem custody_respond : (respond crypto request).Ensures (custody crypto request).protocol facts
    fun facts' reply => Told (Seen crypto facts') request reply := by
  cases request with
  | register body =>
    refine Prog.Ensures.tryCatch (Prog.Ensures.bind (custody_register body) fun r facts' hr => Prog.Ensures.ret hr)
      fun message facts' => Prog.Ensures.ret ?_
    cases hfailed : registerFailed message with
    | created r => exact absurd hfailed (registerFailed_ne_created message r)
    | _ => trivial
  | login body =>
    have hany : (login crypto body).Ensures (custody crypto (.login body)).protocol facts fun _ _ => True := by
      refine ((login_reads body).obeys (fun facts a ha => ?_) facts).mono fun _ _ _ _ _ => trivial
      cases a <;> trivial
    refine Prog.Ensures.tryCatch (Prog.Ensures.bind hany fun r facts' _ => Prog.Ensures.ret trivial)
      fun message facts' => Prog.Ensures.ret ?_
    trivial
  | regenerateKey presented =>
    simp only [respond]
    cases hgiven : given presented with
    | none => exact Prog.Ensures.ret trivial
    | some key =>
      obtain ⟨rfl, hne⟩ := given_eq_some.1 hgiven
      refine Prog.Ensures.await_bind trivial fun found _ => ?_
      cases found with
      | none => exact Prog.Ensures.ret trivial
      | some merchant =>
        have hseen : Seen crypto (facts ++ [(crypto.sha256 key, merchant.id)]) key merchant.id :=
          ⟨hne, List.mem_append_right _ (List.mem_singleton_self _)⟩
        exact Prog.Ensures.bind (custody_regenerateApiKey hseen) fun new facts' hnew =>
          Prog.Ensures.ret ⟨key, merchant.id, rfl, hnew.1, hnew.2⟩
  | guarded presented =>
    simp only [respond]
    cases hgiven : given (some presented) with
    | none => exact Prog.Ensures.ret trivial
    | some key =>
      obtain ⟨rfl, hne⟩ : presented = key ∧ key ≠ "" := by simpa using given_eq_some.1 hgiven
      refine Prog.Ensures.await_bind trivial fun found _ => ?_
      cases found with
      | none => exact Prog.Ensures.ret trivial
      | some merchant => exact Prog.Ensures.ret ⟨hne, List.mem_append_right _ (List.mem_singleton_self _)⟩

/-! ## One call -/

/-- Accounts that were there are there. -/
def Grown (t : Past Db) : Prop :=
  ∀ s ∈ t.earlier, ∀ row ∈ s.merchants.rows, ∃ row' ∈ t.current.merchants.rows, row'.id = row.id

theorem grown_step {t : Past Db} (ht : Grown t) (a : Call) (o : Oracle) : Grown (remembering handle a o t).2 := by
  have hkept : ∀ row ∈ t.current.merchants.rows,
      ∃ row' ∈ (handle a o t.current).2.merchants.rows, row'.id = row.id := by
    intro row hrow
    obtain ⟨row', hrow', hsame⟩ := account_kept (handle_effect a o t.current) hrow
    exact ⟨row', hrow', by rw [hsame]⟩
  intro s hs row hrow
  rcases List.mem_cons.1 hs with rfl | hs
  · exact hkept row hrow
  · obtain ⟨row', hrow', hid⟩ := ht s hs row hrow
    obtain ⟨row'', hrow'', hid'⟩ := hkept row' hrow'
    exact ⟨row'', hrow'', hid'.trans hid⟩

theorem custody_rely {a : Call} {r : Answer a} (heff : Effect db a r db') : (custody crypto request).rely a r := by
  cases heff with
  | @inserted row now _ hinsert r hr =>
    cases r with
    | error e => trivial
    | ok made => exact ⟨now, hr made rfl⟩
  | failed a e => cases a <;> trivial
  | _ => trivial

/-- What a request learns is so after the call, when the merchant is there whose key it replaces. -/
theorem custody_learned {a : Call} {r : Answer a} (heff : Effect db a r db')
    (hthere : ∀ id hash, a = .setApiKeyHash id hash → ∃ row ∈ db.merchants.rows, row.id = id) :
    ∀ f ∈ (custody crypto request).learns a r, KeyedTo db' f.1 f.2 := by
  intro f hf
  cases heff with
  | foundByKey r hr =>
    cases r with
    | error e => exact absurd hf List.not_mem_nil
    | ok found =>
      cases found with
      | none => exact absurd hf List.not_mem_nil
      | some row =>
        obtain rfl := List.mem_singleton.1 hf
        exact ⟨row, (hr row rfl).1, (hr row rfl).2, rfl⟩
  | @inserted row now _ hinsert r hr =>
    cases r with
    | error e => exact absurd hf List.not_mem_nil
    | ok made =>
      obtain rfl : made = row now := hr made rfl
      obtain ⟨hash, hhash, rfl⟩ := List.mem_map.1 hf
      refine ⟨row now, ?_, Option.mem_toList.1 hhash, rfl⟩
      rw [(insertRow_eq_some hinsert).2.2.1]
      exact List.mem_append_right _ (List.mem_singleton_self _)
  | rekeyed id hash now r =>
    cases r with
    | error e => exact absurd hf List.not_mem_nil
    | ok x =>
      obtain rfl := List.mem_singleton.1 hf
      obtain ⟨row, hrow, hid⟩ := hthere id hash rfl
      exact ⟨_, mem_setApiKeyHash.2 ⟨row, hrow, if_pos hid⟩, rfl, hid⟩
  | failed a e => cases a <;> exact absurd hf List.not_mem_nil
  | _ => exact absurd hf List.not_mem_nil

/-! ## A request among any others -/

section
variable {w : Pool Call Answer String (Request × Reply) Db}
  {cs : List (Choice Call Answer String (Request × Reply) Oracle)}

/-- The pool in which a request starts. -/
def starting (crypto : Crypto) (request : Request) (w : Pool Call Answer String (Request × Reply) Db) :
    Pool Call Answer String (Request × Reply) Db :=
  ⟨w.store, w.tasks ++ [answered crypto request]⟩

/-- A merchant that has had a key is there. -/
theorem Grown.there {t : Past Db} (ht : Grown t) {hash : String} {id : Id} (hwas : t.Was fun db => KeyedTo db hash id) :
    ∃ row ∈ t.current.merchants.rows, row.id = id := by
  rcases hwas with ⟨row, hrow, -, hid⟩ | ⟨s, hs, row, hrow, -, hid⟩
  · exact ⟨row, hrow, hid⟩
  · obtain ⟨row', hrow', hid'⟩ := ht s hs row hrow
    exact ⟨row', hrow', hid'.trans hid⟩

/-- What a request has seen was so while it ran. -/
theorem custody_exec (crypto : Crypto) (request : Request) (w : Pool Call Answer String (Request × Reply) Db)
    (cs : List (Choice Call Answer String (Request × Reply) Oracle)) : ∃ p facts,
      ((starting crypto request w).exec handle cs).tasks[w.tasks.length]? = some p ∧
      p.Obeys (custody crypto request).protocol
        (fun facts out => ∀ x, out = .ok x → x.1 = request ∧ Told (Seen crypto facts) request x.2) facts ∧
      ∀ key id, Seen crypto facts key id →
        ∃ before, before <+: cs ∧ Admits crypto ((starting crypto request w).exec handle before).store key id := by
  have hobey : (answered crypto request).Ensures (custody crypto request).protocol []
      fun facts x => x.1 = request ∧ Told (Seen crypto facts) request x.2 :=
    Prog.Ensures.bind custody_respond fun reply facts hreply => Prog.Ensures.ret ⟨rfl, hreply⟩
  have hothers (t : Past Db) (facts : List (String × Id)) (a : Call) (o : Oracle)
      (h : Grown t ∧ ∀ f ∈ facts, t.Was fun db => KeyedTo db f.1 f.2) :
      Grown (remembering handle a o t).2 ∧
        ∀ f ∈ facts, (remembering handle a o t).2.Was fun db => KeyedTo db f.1 f.2 :=
    ⟨grown_step h.1 a o, fun f hf => (h.2 f hf).push _⟩
  have hown (t : Past Db) (facts : List (String × Id)) (a : Call) (o : Oracle)
      (h : Grown t ∧ ∀ f ∈ facts, t.Was fun db => KeyedTo db f.1 f.2) (hok : (custody crypto request).ok facts a) :
      (custody crypto request).rely a (remembering handle a o t).1 ∧ Grown (remembering handle a o t).2 ∧
        ∀ f ∈ (custody crypto request).protocol.next facts a (remembering handle a o t).1,
          (remembering handle a o t).2.Was fun db => KeyedTo db f.1 f.2 := by
    have heff := handle_effect a o t.current
    obtain ⟨hgrown, hold⟩ := hothers t facts a o h
    refine ⟨custody_rely heff, hgrown, fun f hf => ?_⟩
    rcases List.mem_append.1 hf with hf | hf
    · exact hold f hf
    · refine Past.was_now (custody_learned heff ?_ f hf)
      rintro id hash rfl
      obtain ⟨key, -, -, hseen⟩ := hok
      exact h.1.there (h.2 _ hseen)
  obtain ⟨p, facts, hp, hends, -, hfacts⟩ := Pool.exec_one
    (w := ⟨⟨w.store, []⟩, w.tasks ++ [answered crypto request]⟩) (i := w.tasks.length) hothers hown (by simp) hobey
    ⟨fun _ hs => absurd hs List.not_mem_nil, fun _ hf => absurd hf List.not_mem_nil⟩ cs
  refine ⟨p, facts, ?_, hends, fun key id hseen => ?_⟩
  · have hforget := congrArg Pool.tasks (Pool.exec_remembering (h := handle)
      (⟨⟨w.store, []⟩, w.tasks ++ [answered crypto request]⟩) cs)
    exact hforget ▸ hp
  · obtain ⟨before, hbefore, hkeyed⟩ := Pool.was_exec_start (hfacts _ hseen.2)
    exact ⟨before, hbefore, admits_iff.2 ⟨hseen.1, hkeyed⟩⟩

/-- **What a reply says of a key was so while the request ran**, whatever else ran: the key of a new account let its
merchant in, and so did a new key and the one that was presented for it. -/
theorem keys_issued {reply : Reply}
    (hend : ((starting crypto request w).exec handle cs).Ended w.tasks.length (.ok (request, reply))) :
    Told (fun key id => ∃ before, before <+: cs ∧
      Admits crypto ((starting crypto request w).exec handle before).store key id) request reply := by
  obtain ⟨p, facts, hp, hobey, hseen⟩ := custody_exec crypto request w cs
  obtain rfl : p = Prog.ret (request, reply) := Option.some.inj (hp.symm.trans hend)
  exact (hobey _ rfl).2.mono hseen

theorem keys_issued_shop :
    Told (fun key id => ∃ before, before <+: shopReplacesKey.tail ∧
      Admits plainCrypto ((starting plainCrypto (.regenerateKey (some shopKey))
        (noAccounts.exec handle shopRegisters)).exec handle before).store key id)
      (.regenerateKey (some shopKey)) (.key (apiKeyOf (RandomBytes.of '3').hex)) :=
  keys_issued rfl

/-- A call that takes a key from a merchant is that of a request to replace it. -/
theorem admits_kept {key : String} {id : Id} (hadmits : Admits crypto db key id) {a : Call} {r : Answer a}
    (heff : Effect db a r db') (hnot : ¬ Admits crypto db' key id) : ∃ hash, a = .setApiKeyHash id hash := by
  obtain ⟨hne, row, hrow, hhash, hid⟩ := admits_iff.1 hadmits
  have hstay (hrow' : row ∈ db'.merchants.rows) : False := hnot (admits_iff.2 ⟨hne, row, hrow', hhash, hid⟩)
  cases heff with
  | inserted hinsert r hr =>
    refine (hstay ?_).elim
    rw [(insertRow_eq_some hinsert).2.2.1]
    exact List.mem_append_left _ hrow
  | rekeyed id' hash now r =>
    by_cases hother : row.id = id'
    · exact ⟨hash, by rw [← hother, hid]⟩
    · exact (hstay (mem_setApiKeyHash.2 ⟨row, hrow, if_neg hother⟩)).elim
  | _ => exact (hstay hrow).elim

end

section
variable {c₁ c₂ : List (Choice Call Answer String (Request × Reply) Oracle)}

/-- **A key lasts until it is replaced by its owner**: when it has ceased to let the merchant in, then a request to
replace a key did that, which presented, and while it ran, a key that let the merchant in. -/
theorem keys_replaced (hstart : ∀ p, .spawn p ∈ c₁ ++ c₂ → ∃ request, p = answered crypto request) {key : String}
    {id : Id} (hadmits : Admits crypto (noAccounts.exec handle c₁).store key id)
    (hnot : ¬ Admits crypto (noAccounts.exec handle (c₁ ++ c₂)).store key id) :
    ∃ key' started during o rest,
      c₁ ++ c₂ = started ++ .spawn (answered crypto (.regenerateKey (some key'))) ::
        (during ++ .step (noAccounts.exec handle started).tasks.length o :: rest) ∧
      c₁ <+: started ++ .spawn (answered crypto (.regenerateKey (some key'))) :: during ∧
      ∃ before, before <+: during ∧ Admits crypto (noAccounts.exec handle
        (started ++ .spawn (answered crypto (.regenerateKey (some key'))) :: before)).store key' id := by
  rw [Pool.exec_append] at hnot
  obtain ⟨d, c, rest, rfl, hd, hceased⟩ := Pool.exec_ceased (H := fun w => Admits crypto w.store key id) hadmits hnot
  rw [← Pool.exec_append] at hd hceased
  rcases Pool.next_cases handle (noAccounts.exec handle (c₁ ++ d)) c with
    ⟨p, rfl, hnext⟩ | ⟨i, o, a, k, rfl, hi, hnext⟩ | hnext
  · exact absurd (by rw [hnext]; exact hd) hceased
  · rw [hnext] at hceased
    obtain ⟨hash, rfl⟩ := admits_kept hd (handle_effect a o _) hceased
    obtain ⟨hlt, -⟩ := List.getElem?_eq_some_iff.1 hi
    rcases Pool.exec_spawned hlt with hnone | ⟨started, p, during, hsplit, rfl⟩
    · exact absurd hnone (Nat.not_lt_zero i)
    · obtain ⟨request, rfl⟩ : ∃ request, p = answered crypto request := hstart p (by
        rw [← List.append_assoc, hsplit]
        simp)
      rw [hsplit, Pool.exec_append] at hi
      obtain ⟨p', facts, hp', hobey, hseen⟩ := custody_exec crypto request (noAccounts.exec handle started) during
      obtain rfl := Option.some.inj (hp'.symm.trans hi)
      obtain ⟨key', rfl, hkey'⟩ := hobey.1
      obtain ⟨before, hbefore, hadmits'⟩ := hseen key' id hkey'
      refine ⟨key', started, during, o, rest, ?_, ⟨d, hsplit⟩, before, hbefore, ?_⟩
      · rw [← List.append_assoc, hsplit]
        simp
      · rw [Pool.exec_append]
        exact hadmits'
  · exact absurd (by rw [hnext]; exact hd) hceased

end

theorem keys_replaced_shop : ∃ key' started during o rest,
    shopRegisters ++ shopReplacesKey = started ++ .spawn (answered plainCrypto (.regenerateKey (some key'))) ::
      (during ++ .step (noAccounts.exec handle started).tasks.length o :: rest) ∧
    shopRegisters <+: started ++ .spawn (answered plainCrypto (.regenerateKey (some key'))) :: during ∧
    ∃ before, before <+: during ∧ Admits plainCrypto (noAccounts.exec handle
      (started ++ .spawn (answered plainCrypto (.regenerateKey (some key'))) :: before)).store key' "m1" :=
  keys_replaced (fun p hp => shop_answered p (List.mem_append_left _ hp)) shopKey_admits shopKey_replaced

end NexoraGateway.Accounts
