import NexoraGateway.Accounts.Registrations

/-!
# API keys are used once

A key `Admits` the merchant whose row holds its hash. A key that was drawn is held by one task until it is written to
one row, and it never comes back there when it has been replaced (`Settled`). This rests on the draws alone: none has
the key hash of an earlier one (`Fresh`).

* `keys_once` — a key lets in one merchant only, and nobody any more once it has ceased to let that one in.
-/
namespace NexoraGateway.Accounts

open Async Store
open Api (given)

section
variable (crypto : Crypto)

/-- Some request that presents the key is let in as the merchant. -/
def Admits (db : Db) (key : String) (id : Id) : Prop :=
  ∃ ω : Nat → Oracle, ((respond crypto (.guarded key)).run handle ω 0 db).1 = .ok (.admitted id)

def keyHash (hex : String) : String := crypto.sha256 (apiKeyOf hex)

/-- A draw has a key hash that no earlier one has. -/
def Fresh (db : Db) (a : Call) (o : Oracle) : Prop :=
  match a with
  | .randomBytes => ∀ hex ∈ db.drawn, keyHash crypto hex ≠ keyHash crypto o.bytes.hex
  | _ => True

instance : (db : Db) → (a : Call) → (o : Oracle) → Decidable (Fresh crypto db a o)
  | db, .randomBytes, o =>
    inferInstanceAs (Decidable (∀ hex ∈ db.drawn, keyHash crypto hex ≠ keyHash crypto o.bytes.hex))
  | _, .now, _ | _, .randomUUID, _ | _, .findByEmail _, _ | _, .insert _, _ | _, .findByApiKeyHash _, _
  | _, .setApiKeyHash .., _ => inferInstanceAs (Decidable True)

end

variable {crypto : Crypto} {db db' : Db}

/-- The row of the merchant holds the hash. -/
def KeyedTo (db : Db) (hash : String) (id : Id) : Prop :=
  ∃ row ∈ db.merchants.rows, row.apiKeyHash = some hash ∧ row.id = id

theorem admits_iff {key : String} {id : Id} :
    Admits crypto db key id ↔ key ≠ "" ∧ KeyedTo db (crypto.sha256 key) id := by
  cases hgiven : given (some key) with
  | none =>
    have hempty : key = "" := by simpa [given, Option.filter] using hgiven
    refine iff_of_false ?_ fun h => h.1 hempty
    rintro ⟨ω, hrun⟩
    simp only [respond, hgiven] at hrun
    cases hrun
  | some apiKey =>
    obtain ⟨rfl, hne⟩ : key = apiKey ∧ apiKey ≠ "" := by simpa using given_eq_some.1 hgiven
    simp only [Admits, respond, hgiven]
    constructor
    · rintro ⟨ω, hrun⟩
      have heff := handle_effect (.findByApiKeyHash (crypto.sha256 key)) (ω 0) db
      rcases hcall : handle (.findByApiKeyHash (crypto.sha256 key)) (ω 0) db with ⟨e | row, db'⟩
      · have hout := (congrArg Prod.fst (Prog.run_await_bind_of_error ω hcall _)).symm.trans hrun
        cases hout
      · have hout := (congrArg Prod.fst (Prog.run_await_bind_of_ok ω hcall _)).symm.trans hrun
        rw [hcall] at heff
        cases row with
        | none => cases hout
        | some row =>
          cases hout
          cases heff with
          | foundByKey r hr => exact ⟨hne, row, (hr row rfl).1, (hr row rfl).2, rfl⟩
    · rintro ⟨-, row, hrow, hhash, rfl⟩
      have hmem : row ∈ db.merchants.rows.filter (·.apiKeyHash = some (crypto.sha256 key)) := by simp [hrow, hhash]
      obtain ⟨n, hlt, hn⟩ := List.getElem_of_mem hmem
      have hcall : handle (.findByApiKeyHash (crypto.sha256 key)) { pick := n } db = (.ok (some row), db) := by
        simp only [handle, request, Nat.mod_eq_of_lt hlt, List.getElem?_eq_getElem hlt, hn]
      refine ⟨fun _ => { pick := n }, ?_⟩
      exact congrArg Prod.fst (Prog.run_await_bind_of_ok (fun _ => ({ pick := n } : Oracle)) hcall _)

/-! ## What a task holds -/

section
variable (crypto : Crypto)

/-- The ghost state of a task is what it has drawn and not yet written. -/
def holding : Protocol Call Answer (Option String) where
  ok held
    | .insert row => ∃ hex ∈ held, ∀ now, (row now).apiKeyHash = some (keyHash crypto hex)
    | .setApiKeyHash _ hash => ∃ hex ∈ held, hash = keyHash crypto hex
    | _ => True
  rely _ _ := True
  next held
    | .randomBytes, .ok bytes => some (RandomBytes.hex bytes)
    | .insert _, _ | .setApiKeyHash .., _ => none
    | _, _ => held

/-- The task writes only what it holds. -/
abbrev Holds {α : Type} (p : Task α) : Prop := ∀ held, p.Ensures (holding crypto) held fun _ _ => True

end

theorem holds_ret {α : Type} (x : α) : Holds crypto (Prog.ret x) := fun _ => Prog.Ensures.ret trivial

theorem Holds.bind {α β : Type} {p : Task α} {f : α → Task β} (hp : Holds crypto p) (hf : ∀ x, Holds crypto (f x)) :
    Holds crypto (p.bind f) := fun held => Prog.Ensures.bind (hp held) fun x held' _ => hf x held'

theorem holding_generateApiKey (held : Option String) : generateApiKey.Ensures (holding crypto) held
    fun held' apiKey => ∃ hex ∈ held', apiKey = apiKeyOf hex :=
  Prog.Ensures.await_bind trivial fun bytes _ => Prog.Ensures.ret ⟨bytes.hex, rfl, rfl⟩

/-- A call that writes nothing to an account. -/
def Call.Reads : Call → Prop
  | .insert _ | .setApiKeyHash .. => False
  | _ => True

theorem tokenFor_reads (id : Id) : (tokenFor id).Only Call.Reads fun _ => True :=
  Prog.Only.bind (Prog.Only.await trivial) fun _ => Prog.Only.bind (Prog.Only.await trivial) fun _ => Prog.Only.ret _

theorem holds_of_reads {α : Type} {p : Task α} (hp : p.Only Call.Reads fun _ => True) : Holds crypto p := by
  refine fun held => (hp.obeys (fun held a ha => ?_) held).mono fun _ _ _ _ _ => trivial
  cases a <;> trivial

theorem register_holds (body : RegisterRequest) : Holds crypto (register crypto body) := by
  refine fun held => register_ensures trivial fun _ _ _ _ _ _ _ => ?_
  refine Prog.Ensures.await_bind trivial fun salt _ => ?_
  refine Prog.Ensures.bind (holding_generateApiKey _) fun apiKey held' hheld => ?_
  obtain ⟨hex, hhex, rfl⟩ := hheld
  refine Prog.Ensures.await_bind trivial fun id _ =>
    Prog.Ensures.await_bind ⟨hex, hhex, fun _ => rfl⟩ fun made _ => ?_
  exact Holds.bind (holds_of_reads (tokenFor_reads _)) (fun _ => holds_ret _) _

theorem login_reads (body : LoginRequest) : (login crypto body).Only Call.Reads fun _ => True := by
  unfold login
  cases given body.email <;> cases given body.password
  case some.some email password =>
    refine Prog.Only.bind (Prog.Only.await trivial) fun found => ?_
    cases found with
    | none => exact Prog.Only.throw trivial
    | some merchant =>
      have hdraw : (RandomBytes.hex <$> Task.randomBytes : Task String).Only Call.Reads fun _ => True :=
        Prog.Only.bind (Prog.Only.await trivial) fun _ => Prog.Only.ret _
      have hchecked (salt : String) : (if some (crypto.pbkdf2 password salt) ≠ merchant.passwordHash
          then throw "Invalid email or password"
          else do
            let token ← tokenFor merchant.id
            return { merchantId := merchant.id, name := merchant.name, email := merchant.email, apiKey := "", token }
          : Task AuthResponse).Only Call.Reads fun _ => True := by
        split
        · exact Prog.Only.throw trivial
        · exact Prog.Only.bind (tokenFor_reads _) fun _ => Prog.Only.ret _
      dsimp only
      cases given merchant.passwordSalt with
      | none => exact Prog.Only.bind hdraw hchecked
      | some salt => exact hchecked salt
  all_goals exact Prog.Only.throw trivial

theorem regenerateApiKey_holds (id : Id) : Holds crypto (regenerateApiKey crypto id) := by
  intro held
  refine Prog.Ensures.bind (holding_generateApiKey held) fun apiKey held' hheld => ?_
  obtain ⟨hex, hhex, rfl⟩ := hheld
  exact Prog.Ensures.await_bind ⟨hex, hhex, rfl⟩ fun _ _ => Prog.Ensures.ret trivial

theorem respond_holds (request : Request) : Holds crypto (respond crypto request) := by
  intro held
  cases request with
  | register body =>
    exact Prog.Ensures.tryCatch (Holds.bind (register_holds body) (fun _ => holds_ret _) held) fun _ => holds_ret _
  | login body =>
    have hlogin : Holds crypto (login crypto body) := holds_of_reads (login_reads body)
    exact Prog.Ensures.tryCatch (Holds.bind hlogin (fun _ => holds_ret _) held) fun _ => holds_ret _
  | regenerateKey apiKey =>
    simp only [respond]
    cases given apiKey with
    | none => exact holds_ret _ held
    | some apiKey =>
      refine Prog.Ensures.await_bind trivial fun merchant _ => ?_
      cases merchant with
      | none => exact holds_ret _ _
      | some merchant => exact Holds.bind (regenerateApiKey_holds merchant.id) (fun _ => holds_ret _) _
  | guarded apiKey =>
    simp only [respond]
    cases given (some apiKey) with
    | none => exact holds_ret _ held
    | some apiKey =>
      refine Prog.Ensures.await_bind trivial fun merchant _ => ?_
      cases merchant with
      | none => exact holds_ret _ _
      | some merchant => exact holds_ret _ _

theorem answered_holds (request : Request) : Holds crypto (answered crypto request) :=
  Holds.bind (respond_holds request) fun _ => holds_ret _

/-! ## One call -/

/-- A merchant's key hash after a call was there before, or the task that calls held it, writes it to one row, and
holds it no more. -/
theorem keys_written {a : Call} {r : Answer a} (heff : Effect db a r db') {held : Option String}
    (hok : (holding crypto).ok held a) : ∃ written : Id, ∀ row' ∈ db'.merchants.rows,
      (∃ row ∈ db.merchants.rows, row.id = row'.id ∧ row.apiKeyHash = row'.apiKeyHash) ∨
      row'.id = written ∧ (holding crypto).next held a r = none ∧
        ∃ hex ∈ held, row'.apiKeyHash = some (keyHash crypto hex) := by
  have hsame : ∃ written : Id, ∀ row' ∈ db.merchants.rows,
      (∃ row ∈ db.merchants.rows, row.id = row'.id ∧ row.apiKeyHash = row'.apiKeyHash) ∨
      row'.id = written ∧ (holding crypto).next held a r = none ∧
        ∃ hex ∈ held, row'.apiKeyHash = some (keyHash crypto hex) :=
    ⟨"", fun row hrow => .inl ⟨row, hrow, rfl, rfl⟩⟩
  cases heff with
  | @inserted row now _ hinsert r hr =>
    obtain ⟨hex, hhex, hkey⟩ := hok
    refine ⟨(row now).id, fun row' hrow' => ?_⟩
    rw [(insertRow_eq_some hinsert).2.2.1, List.mem_append, List.mem_singleton] at hrow'
    rcases hrow' with hrow' | rfl
    · exact .inl ⟨row', hrow', rfl, rfl⟩
    · exact .inr ⟨rfl, rfl, hex, hhex, hkey now⟩
  | rekeyed id hash now r =>
    obtain ⟨hex, hhex, rfl⟩ := hok
    refine ⟨id, fun row' hrow' => ?_⟩
    obtain ⟨row, hrow, rfl⟩ := mem_setApiKeyHash.1 hrow'
    by_cases hid : row.id = id
    · rw [if_pos hid]
      exact .inr ⟨hid, rfl, hex, hhex, rfl⟩
    · rw [if_neg hid]
      exact .inl ⟨row, hrow, rfl, rfl⟩
  | _ => exact hsame

/-- What a task holds after a call it held before, or it has just been drawn. -/
theorem held_after {a : Call} {o : Oracle} (hfresh : Fresh crypto db a o) {held : Option String} {hex : String}
    (hhex : hex ∈ (holding crypto).next held a (handle a o db).1) :
    hex ∈ held ∨ hex ∈ (handle a o db).2.drawn ∧ ∀ old ∈ db.drawn, keyHash crypto old ≠ keyHash crypto hex := by
  cases a with
  | randomBytes =>
    obtain rfl : o.bytes.hex = hex := Option.some.inj hhex
    exact .inr ⟨by simp [handle], hfresh⟩
  | insert | setApiKeyHash => cases hhex
  | _ => exact .inl hhex

theorem drawn_kept {a : Call} {r : Answer a} (heff : Effect db a r db') {hex : String} (hhex : hex ∈ db.drawn) :
    hex ∈ db'.drawn := by
  cases heff with
  | drew bytes => exact List.mem_append_left _ hhex
  | inserted hinsert r hr => rwa [(insertRow_eq_some hinsert).2.2.2]
  | _ => exact hhex

section
variable (crypto : Crypto) (hash : String) (owner : Id → Prop)

/-- The hash is that of a key that no task holds any more, and only merchants that are `owner` have it. -/
structure Settled (db : Db) (gs : List (Option String)) : Prop where
  drawn : ∃ hex ∈ db.drawn, keyHash crypto hex = hash
  unheld : ∀ hex, some hex ∈ gs → keyHash crypto hex ≠ hash
  owned : ∀ id, KeyedTo db hash id → owner id

/-- Two tasks do not hold keys with one hash. -/
def Differ (held held' : Option String) : Prop :=
  ∀ hex ∈ held, ∀ hex' ∈ held', keyHash crypto hex ≠ keyHash crypto hex'

/-- What is held has been drawn, by one task; what is stored is settled. -/
structure Apart (crypto : Crypto) (db : Db) (gs : List (Option String)) : Prop where
  drawn : ∀ hex, some hex ∈ gs → hex ∈ db.drawn
  held : gs.Pairwise (Differ crypto)
  stored : ∀ hash id, KeyedTo db hash id → Settled crypto hash (· = id) db gs

end

variable {hash : String} {owner : Id → Prop} {gs gs₁ gs₂ : List (Option String)} {held : Option String}

theorem Differ.symm {held held' : Option String} (h : Differ crypto held held') : Differ crypto held' held :=
  fun hex' hhex' hex hhex => (h hex hhex hex' hhex').symm

/-- The tasks differ in what they hold, and so does one from the others. -/
theorem differ_focus : (gs₁ ++ held :: gs₂).Pairwise (Differ crypto) ↔
    (∀ other ∈ gs₁ ++ gs₂, Differ crypto held other) ∧ (gs₁ ++ gs₂).Pairwise (Differ crypto) :=
  (List.pairwise_middle Differ.symm).trans List.pairwise_cons

/-- **A settled hash stays settled**, with the merchants that have it. -/
theorem settled_step (h : Settled crypto hash owner db (gs₁ ++ held :: gs₂)) {a : Call} {o : Oracle}
    (hok : (holding crypto).ok held a) (hfresh : Fresh crypto db a o) :
    Settled crypto hash owner (handle a o db).2 (gs₁ ++ (holding crypto).next held a (handle a o db).1 :: gs₂) := by
  have heff := handle_effect a o db
  obtain ⟨old, hold, hkey⟩ := h.drawn
  have hheld : ∀ hex ∈ held, keyHash crypto hex ≠ hash :=
    fun hex hhex => h.unheld hex (by simp [← Option.mem_def.1 hhex])
  refine ⟨⟨old, drawn_kept heff hold, hkey⟩, fun hex hhex => ?_, fun id hid => ?_⟩
  · simp only [List.mem_append, List.mem_cons] at hhex
    rcases hhex with hmem | heq | hmem
    · exact h.unheld hex (List.mem_append_left _ hmem)
    · rcases held_after hfresh (Option.mem_def.2 heq.symm) with hhex | ⟨-, hnew⟩
      · exact hheld hex hhex
      · exact hkey ▸ (hnew old hold).symm
    · exact h.unheld hex (List.mem_append_right _ (List.mem_cons_of_mem _ hmem))
  · obtain ⟨row', hrow', hrowHash, rfl⟩ := hid
    obtain ⟨written, hwritten⟩ := keys_written heff hok
    rcases hwritten row' hrow' with ⟨row, hrow, hrowId, hrowKey⟩ | ⟨-, -, hex, hhex, hnew⟩
    · exact hrowId ▸ h.owned row.id ⟨row, hrow, hrowKey.trans hrowHash, rfl⟩
    · exact absurd (Option.some.inj (hnew.symm.trans hrowHash)) (hheld hex hhex)

/-- What is written for the first time is settled with the merchant that it is written to. -/
theorem settled_written (h : Apart crypto db (gs₁ ++ held :: gs₂)) {hex : String} (hhex : hex ∈ held)
    (hdrawn : ∀ old ∈ db.drawn, old ∈ db'.drawn) {written : Id}
    (hwritten : ∀ row' ∈ db'.merchants.rows,
      (∃ row ∈ db.merchants.rows, row.id = row'.id ∧ row.apiKeyHash = row'.apiKeyHash) ∨ row'.id = written) :
    Settled crypto (keyHash crypto hex) (· = written) db' (gs₁ ++ none :: gs₂) := by
  have hmem : some hex ∈ gs₁ ++ held :: gs₂ := by simp [Option.mem_def.1 hhex]
  refine ⟨⟨hex, hdrawn hex (h.drawn hex hmem), rfl⟩, fun other hother => ?_, fun id hid => ?_⟩
  · have hdiffer := (differ_focus.1 h.held).1
    have hin : some other ∈ gs₁ ++ gs₂ := by simpa using hother
    exact (hdiffer _ hin hex hhex other rfl).symm
  · obtain ⟨row', hrow', hrowHash, rfl⟩ := hid
    rcases hwritten row' hrow' with ⟨row, hrow, hrowId, hrowKey⟩ | hwrote
    · exact absurd rfl ((h.stored _ row.id ⟨row, hrow, hrowKey.trans hrowHash, rfl⟩).unheld hex hmem)
    · exact hwrote

theorem apart_step (h : Apart crypto db (gs₁ ++ held :: gs₂)) {a : Call} {o : Oracle}
    (hok : (holding crypto).ok held a) (hfresh : Fresh crypto db a o) :
    Apart crypto (handle a o db).2 (gs₁ ++ (holding crypto).next held a (handle a o db).1 :: gs₂) := by
  have heff := handle_effect a o db
  have hothers : ∀ hex, some hex ∈ gs₁ ++ gs₂ → hex ∈ db.drawn := by
    intro hex hhex
    refine h.drawn hex ?_
    simp only [List.mem_append, List.mem_cons] at hhex ⊢
    tauto
  have hheld : ∀ hex ∈ held, hex ∈ db.drawn := fun hex hhex => h.drawn hex (by simp [Option.mem_def.1 hhex])
  obtain ⟨hdiffer, hrest⟩ := differ_focus.1 h.held
  refine ⟨fun hex hhex => ?_, differ_focus.2 ⟨fun other hother hex hhex hex' hhex' => ?_, hrest⟩, fun hash id hid => ?_⟩
  · simp only [List.mem_append, List.mem_cons] at hhex
    rcases hhex with hmem | heq | hmem
    · exact drawn_kept heff (hothers hex (List.mem_append_left _ hmem))
    · rcases held_after hfresh (Option.mem_def.2 heq.symm) with hhex | ⟨hnew, -⟩
      · exact drawn_kept heff (hheld hex hhex)
      · exact hnew
    · exact drawn_kept heff (hothers hex (List.mem_append_right _ hmem))
  · rcases held_after hfresh hhex with hold | ⟨-, hnew⟩
    · exact hdiffer other hother hex hold hex' hhex'
    · exact (hnew hex' (hothers hex' (Option.mem_def.1 hhex' ▸ hother))).symm
  · obtain ⟨row', hrow', hrowHash, rfl⟩ := hid
    obtain ⟨written, hwritten⟩ := keys_written heff hok
    rcases hwritten row' hrow' with ⟨row, hrow, hrowId, hrowKey⟩ | ⟨hwrote, hnext, hex, hhex, hnew⟩
    · exact hrowId ▸ settled_step (h.stored hash row.id ⟨row, hrow, hrowKey.trans hrowHash, rfl⟩) hok hfresh
    · obtain rfl := Option.some.inj (hnew.symm.trans hrowHash)
      rw [hnext, hwrote]
      refine settled_written h hhex (fun _ => drawn_kept heff) fun other hother => ?_
      exact (hwritten other hother).imp_right And.left

/-- A task starts that holds nothing. -/
theorem Settled.spawn (h : Settled crypto hash owner db gs) : Settled crypto hash owner db (gs ++ [none]) :=
  ⟨h.drawn, fun hex hhex => h.unheld hex (by simpa using hhex), h.owned⟩

theorem Apart.spawn (h : Apart crypto db gs) : Apart crypto db (gs ++ [none]) := by
  refine ⟨fun hex hhex => h.drawn hex (by simpa using hhex), ?_, fun hash id hid => (h.stored hash id hid).spawn⟩
  refine differ_focus.2 ⟨fun other _ => nofun, ?_⟩
  simpa using h.held

/-! ## Whole runs -/

section
variable {c₁ c₂ c₃ : List (Choice Call Answer String (Request × Reply) Oracle)}
  {w : Pool Call Answer String (Request × Reply) Db}

/-- The rule for what the tasks hold. -/
theorem holding_exec {I : Db → List (Option String) → Prop} (hspawn : ∀ db gs, I db gs → I db (gs ++ [none]))
    (hstep : ∀ db gs₁ held gs₂ a o, I db (gs₁ ++ held :: gs₂) → (holding crypto).ok held a → Fresh crypto db a o →
      I (handle a o db).2 (gs₁ ++ (holding crypto).next held a (handle a o db).1 :: gs₂))
    (hw : w.GhostInv (holding crypto) I) (hstart : ∀ p, .spawn p ∈ c₁ → ∃ request, p = answered crypto request)
    (hfresh : w.Careful handle (Fresh crypto) c₁) : (w.exec handle c₁).GhostInv (holding crypto) I := by
  refine Pool.exec_careful_inv (fun p hp => ?_) ?_ hw hstart hfresh
  · obtain ⟨request, rfl⟩ := hp
    exact ⟨none, Prog.Obeys.mono (answered_holds request none) fun _ _ _ => trivial, hspawn⟩
  · exact fun db gs₁ held gs₂ a o h hok hfresh => ⟨trivial, hstep db gs₁ held gs₂ a o h hok hfresh⟩

/-- Merchants that have a settled hash have been `owner` before. -/
theorem owned_exec {gs : List (Option String)}
    (hobey : List.Forall₂ (fun g p => p.Obeys (holding crypto) (fun _ _ => True) g) gs w.tasks)
    (hsettled : Settled crypto hash owner w.store gs)
    (hstart : ∀ p, .spawn p ∈ c₁ → ∃ request, p = answered crypto request)
    (hfresh : w.Careful handle (Fresh crypto) c₁) :
    (w.exec handle c₁).GhostInv (holding crypto) (Settled crypto hash owner) :=
  holding_exec (fun _ _ h => h.spawn) (fun _ _ _ _ _ _ h hok hfresh => settled_step h hok hfresh) ⟨gs, hobey, hsettled⟩
    hstart hfresh

/-- **A key is used once**: it never lets in another merchant than one that it has let in, and nobody at all once it
has ceased to let that one in. -/
theorem keys_once (hstart : ∀ p, .spawn p ∈ c₁ ++ c₂ ++ c₃ → ∃ request, p = answered crypto request)
    (hfresh : noAccounts.Careful handle (Fresh crypto) (c₁ ++ c₂ ++ c₃)) {key : String} {id : Id}
    (hadmits : Admits crypto (noAccounts.exec handle c₁).store key id) :
    (∀ id', Admits crypto (noAccounts.exec handle (c₁ ++ c₂)).store key id' → id' = id) ∧
      (¬ Admits crypto (noAccounts.exec handle (c₁ ++ c₂)).store key id →
        ∀ id', ¬ Admits crypto (noAccounts.exec handle (c₁ ++ c₂ ++ c₃)).store key id') := by
  simp only [Pool.careful_append, Pool.exec_append] at hfresh ⊢
  obtain ⟨⟨hfresh₁, hfresh₂⟩, hfresh₃⟩ := hfresh
  have hstart₁ : ∀ p, .spawn p ∈ c₁ → ∃ request, p = answered crypto request := fun p hp => hstart p (by simp [hp])
  have hstart₂ : ∀ p, .spawn p ∈ c₂ → ∃ request, p = answered crypto request := fun p hp => hstart p (by simp [hp])
  have hstart₃ : ∀ p, .spawn p ∈ c₃ → ∃ request, p = answered crypto request := fun p hp => hstart p (by simp [hp])
  have hempty : noAccounts.GhostInv (holding crypto) (Apart crypto) := by
    refine ⟨[], .nil, fun _ hhex => absurd hhex List.not_mem_nil, .nil, fun hash id hid => ?_⟩
    obtain ⟨row, hrow, -⟩ := hid
    exact absurd hrow List.not_mem_nil
  obtain ⟨gs, hobey, hapart⟩ := holding_exec (fun _ _ h => h.spawn)
    (fun _ _ _ _ _ _ h hok hfresh => apart_step h hok hfresh) hempty hstart₁ hfresh₁
  obtain ⟨hkey, hkeyed⟩ := admits_iff.1 hadmits
  -- from the first moment on only this merchant has the hash, and from the second nobody
  obtain ⟨gs', hobey', hsettled'⟩ := owned_exec hobey (hapart.stored _ id hkeyed) hstart₂ hfresh₂
  refine ⟨fun id' hid' => hsettled'.owned id' (admits_iff.1 hid').2, fun hnot => ?_⟩
  have hgone : Settled crypto (crypto.sha256 key) (fun _ => False)
      ((noAccounts.exec handle c₁).exec handle c₂).store gs' := by
    refine ⟨hsettled'.drawn, hsettled'.unheld, fun id' hid' => hnot (admits_iff.2 ⟨hkey, ?_⟩)⟩
    exact hsettled'.owned id' hid' ▸ hid'
  obtain ⟨gs'', -, hsettled''⟩ := owned_exec hobey' hgone hstart₃ hfresh₃
  exact fun id' hid' => hsettled''.owned id' (admits_iff.1 hid').2

end

def shopKey : String := apiKeyOf (RandomBytes.of '2').hex

/-- One registration. -/
def shopRegisters : List (Choice Call Answer String (Request × Reply) Oracle) :=
  [.spawn (answered plainCrypto (.register shopBody)), .step 0 {}, .step 0 { bytes := .of '1' },
    .step 0 { bytes := .of '2' }, .step 0 { uuid := "m1" }, .step 0 { now := 1000 }, .step 0 {}, .step 0 {}]

/-- The key is replaced. -/
def shopReplacesKey : List (Choice Call Answer String (Request × Reply) Oracle) :=
  [.spawn (answered plainCrypto (.regenerateKey (some shopKey))), .step 1 {}, .step 1 { bytes := .of '3' }, .step 1 {}]

def oldKeyTried : List (Choice Call Answer String (Request × Reply) Oracle) :=
  [.spawn (answered plainCrypto (.guarded shopKey)), .step 2 {}]

theorem shop_answered : ∀ p, .spawn p ∈ shopRegisters ++ shopReplacesKey ++ oldKeyTried →
    ∃ request, p = answered plainCrypto request := by
  intro p hp
  simp [shopRegisters, shopReplacesKey, oldKeyTried] at hp
  rcases hp with hp | hp | hp <;> exact ⟨_, hp⟩

theorem shopKey_admits : Admits plainCrypto (noAccounts.exec handle shopRegisters).store shopKey "m1" :=
  admits_iff.2 ⟨by decide +kernel, by unfold KeyedTo; decide +kernel⟩

theorem shopKey_replaced :
    ¬ Admits plainCrypto (noAccounts.exec handle (shopRegisters ++ shopReplacesKey)).store shopKey "m1" := by
  refine fun h => absurd (admits_iff.1 h).2 ?_
  unfold KeyedTo
  decide +kernel

theorem keys_once_shop :
    (∀ id', Admits plainCrypto (noAccounts.exec handle (shopRegisters ++ shopReplacesKey)).store shopKey id' →
      id' = "m1") ∧
      ∀ id', ¬ Admits plainCrypto
        (noAccounts.exec handle (shopRegisters ++ shopReplacesKey ++ oldKeyTried)).store shopKey id' := by
  obtain ⟨honly, hgone⟩ := keys_once shop_answered (by decide +kernel) shopKey_admits
  exact ⟨honly, hgone shopKey_replaced⟩

end NexoraGateway.Accounts
