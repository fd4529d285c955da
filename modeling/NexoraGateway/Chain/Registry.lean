import NexoraGateway.Async.Runs
import NexoraGateway.Store.Table

/-!
# The registry of chain clients (`chain-abstraction/src/chain-registry.ts`)

Two maps: the clients under their chain ids, and the chain ids under the lower-cased names. `register` refuses an id
that is taken, but not a name; `unregister` deletes the name of the client that goes, whoever it leads to by then.
`named_iff` says which runs keep the names.

`toLowerCase` is a parameter: nothing here depends on how letters are lower-cased.
-/
namespace NexoraGateway.Chain

open Async.Runs Store

/-- What the registry reads of an `IChainClient`; `methods` is the rest of it. -/
structure ChainClient (X : Type) where
  chainId : String
  chainName : String
  methods : X

/-- `ChainRegistry` (:10). -/
structure ChainRegistry (X : Type) where
  clients : Dict String (ChainClient X) := .empty
  nameIndex : Dict String String := .empty

namespace ChainRegistry
variable {X : Type} (toLowerCase : String → String)

/-- `register` (:18); `none` where it throws. -/
def register (self : ChainRegistry X) (client : ChainClient X) : Option (ChainRegistry X) :=
  if (self.clients.get? client.chainId).isSome then none
  else some
    { clients := self.clients.put (client.chainId, client)
      nameIndex := self.nameIndex.put (toLowerCase client.chainName, client.chainId) }

/-- `get` (:34); `none` where it throws an `UnsupportedChainError`. -/
def get (self : ChainRegistry X) (chainId : String) : Option (ChainClient X) := self.clients.get? chainId

/-- `getByName` (:46): an empty id is falsy. -/
def getByName (self : ChainRegistry X) (name : String) : Option (ChainClient X) :=
  match self.nameIndex.get? (toLowerCase name) with
  | none => none
  | some chainId => if chainId = "" then none else self.clients.get? chainId

/-- `unregister` (:90). -/
def unregister (self : ChainRegistry X) (chainId : String) : Bool × ChainRegistry X :=
  match self.clients.get? chainId with
  | none => (false, self)
  | some client => (true,
    { clients := self.clients.erase chainId, nameIndex := self.nameIndex.erase (toLowerCase client.chainName) })

/-- A call that changes the registry. -/
inductive Change (X : Type) where
  | register (client : ChainClient X)
  | unregister (chainId : String)

/-- A `register` that throws changes nothing. -/
def step (self : ChainRegistry X) : Change X → ChainRegistry X
  | .register client => (self.register toLowerCase client).getD self
  | .unregister chainId => (self.unregister toLowerCase chainId).2

/-- The client is registered now. -/
def Registered (self : ChainRegistry X) (client : ChainClient X) : Prop :=
  self.clients.get? client.chainId = some client

/-- Names are found just when a client has them, and the client that is found has the name. -/
def Named (self : ChainRegistry X) : Prop :=
  ∀ name, ((self.getByName toLowerCase name).isSome ↔
      ∃ client, self.Registered client ∧ toLowerCase client.chainName = toLowerCase name) ∧
    ∀ client, self.getByName toLowerCase name = some client →
      self.Registered client ∧ toLowerCase client.chainName = toLowerCase name

/-- A change leaves the names right, and the other clients as reachable as they were. -/
structure Keeps (registry : ChainRegistry X) (change : Change X) : Prop where
  named : (registry.step toLowerCase change).Named toLowerCase
  others : ∀ chainId, change = .unregister chainId → ∀ client, registry.Registered client → client.chainId ≠ chainId →
    (registry.step toLowerCase change).get client.chainId = some client ∧
    ((registry.step toLowerCase change).getByName toLowerCase client.chainName).isSome

/-- An id is not empty, and no client goes whose name another one has. -/
def Proper (self : ChainRegistry X) : Change X → Prop
  | .register client => (self.clients.get? client.chainId).isSome ∨ client.chainId ≠ ""
  | .unregister chainId => ∀ client, self.clients.get? chainId = some client →
    ∀ other, self.Registered other → toLowerCase other.chainName = toLowerCase client.chainName → other = client

/-! ## One change -/

/-- Every client is under its id, and every name of one leads to a client that has it. -/
structure Indexed (registry : ChainRegistry X) : Prop where
  ids : ∀ chainId client, registry.clients.get? chainId = some client → client.chainId = chainId ∧ chainId ≠ ""
  leads : ∀ name chainId, registry.nameIndex.get? name = some chainId →
    ∃ client, registry.clients.get? chainId = some client ∧ toLowerCase client.chainName = name
  indexed : ∀ chainId client, registry.clients.get? chainId = some client →
    (registry.nameIndex.get? (toLowerCase client.chainName)).isSome

variable {toLowerCase} {self : ChainRegistry X} {change : Change X} {client : ChainClient X} {chainId name : String}

theorem indexed_empty : Indexed toLowerCase ({} : ChainRegistry X) := by
  refine ⟨?_, ?_, ?_⟩
  all_goals
    intro _ _ h
    cases h

theorem getByName_of_index (h : self.nameIndex.get? (toLowerCase name) = some chainId) :
    self.getByName toLowerCase name = if chainId = "" then none else self.clients.get? chainId := by
  rw [getByName, h]

theorem getByName_of_none (h : self.nameIndex.get? (toLowerCase name) = none) :
    self.getByName toLowerCase name = none := by
  rw [getByName, h]

theorem Indexed.named (h : self.Indexed toLowerCase) : self.Named toLowerCase := by
  intro name
  cases hindex : self.nameIndex.get? (toLowerCase name) with
  | none =>
    rw [getByName_of_none hindex]
    refine ⟨iff_of_false nofun fun ⟨client, hclient, hname⟩ => ?_, nofun⟩
    have hsome := h.indexed _ _ hclient
    rw [hname, hindex] at hsome
    cases hsome
  | some chainId =>
    obtain ⟨client, hclient, hname⟩ := h.leads _ _ hindex
    obtain ⟨hid, hne⟩ := h.ids _ _ hclient
    have hregistered : self.Registered client := (congrArg self.clients.get? hid).trans hclient
    rw [getByName_of_index hindex, if_neg hne, hclient]
    refine ⟨iff_of_true rfl ⟨client, hregistered, hname⟩, fun other hother => ?_⟩
    cases hother
    exact ⟨hregistered, hname⟩

theorem register_eq (h : self.clients.get? client.chainId = none) : self.step toLowerCase (.register client) =
    { clients := self.clients.put (client.chainId, client)
      nameIndex := self.nameIndex.put (toLowerCase client.chainName, client.chainId) } := by
  simp [step, register, h]

theorem register_taken (h : (self.clients.get? client.chainId).isSome) :
    self.step toLowerCase (.register client) = self := by
  simp [step, register, h]

theorem unregister_eq (h : self.clients.get? chainId = some client) : self.step toLowerCase (.unregister chainId) =
    { clients := self.clients.erase chainId
      nameIndex := self.nameIndex.erase (toLowerCase client.chainName) } := by
  simp [step, unregister, h]

theorem unregister_none (h : self.clients.get? chainId = none) :
    self.step toLowerCase (.unregister chainId) = self := by
  simp [step, unregister, h]

theorem Indexed.register (h : self.Indexed toLowerCase) (hproper : self.Proper toLowerCase (.register client)) :
    (self.step toLowerCase (.register client)).Indexed toLowerCase := by
  cases htaken : self.clients.get? client.chainId with
  | some other =>
    rw [register_taken (by rw [htaken]; rfl)]
    exact h
  | none =>
    have hne : client.chainId ≠ "" := hproper.resolve_left (by rw [htaken]; nofun)
    rw [register_eq htaken]
    refine ⟨fun chainId other hother => ?_, fun name chainId hindex => ?_, fun chainId other hother => ?_⟩
    · rw [Dict.get?_put] at hother
      split at hother
      · rename_i hid
        cases hother
        exact ⟨hid, hid ▸ hne⟩
      · exact h.ids _ _ hother
    · rw [Dict.get?_put] at hindex
      split at hindex
      · rename_i hname
        cases hindex
        exact ⟨client, by rw [Dict.get?_put, if_pos rfl], hname⟩
      · obtain ⟨other, hother, hname⟩ := h.leads _ _ hindex
        -- the id is another one, as that of the new client was free
        have hid : client.chainId ≠ chainId := fun hid => by
          rw [hid, hother] at htaken
          cases htaken
        exact ⟨other, by rw [Dict.get?_put, if_neg hid, hother], hname⟩
    · rw [Dict.get?_put]
      split
      · rfl
      · rename_i hname
        rw [Dict.get?_put] at hother
        split at hother
        · cases hother
          exact absurd rfl hname
        · exact h.indexed _ _ hother

theorem Indexed.unregister (h : self.Indexed toLowerCase) (hproper : self.Proper toLowerCase (.unregister chainId)) :
    (self.step toLowerCase (.unregister chainId)).Indexed toLowerCase := by
  cases hclient : self.clients.get? chainId with
  | none =>
    rw [unregister_none hclient]
    exact h
  | some client =>
    have hleft {chainId' : String} {other : ChainClient X}
        (hother : Dict.get? (self.clients.erase chainId) chainId' = some other) :
        chainId ≠ chainId' ∧ self.clients.get? chainId' = some other := by
      rw [Dict.get?_erase] at hother
      split at hother
      · cases hother
      · exact ⟨‹_›, hother⟩
    rw [unregister_eq hclient]
    refine ⟨fun chainId' other hother => h.ids _ _ (hleft hother).2, fun name chainId' hindex => ?_,
      fun chainId' other hother => ?_⟩
    · rw [Dict.get?_erase] at hindex
      split at hindex
      · cases hindex
      · rename_i hname
        obtain ⟨other, hother, hother'⟩ := h.leads _ _ hindex
        refine ⟨other, ?_, hother'⟩
        rw [Dict.get?_erase, if_neg, hother]
        rintro rfl
        cases hclient.symm.trans hother
        exact hname hother'
    · obtain ⟨hid, hother⟩ := hleft hother
      have hregistered : self.Registered other := (congrArg self.clients.get? (h.ids _ _ hother).1).trans hother
      rw [Dict.get?_erase, if_neg]
      · exact h.indexed _ _ hother
      · intro hname
        cases hproper client hclient other hregistered hname.symm
        exact hid ((h.ids _ _ hclient).1.symm.trans (h.ids _ _ hother).1)

/-- A proper change keeps the two maps in step. -/
theorem Indexed.step (h : self.Indexed toLowerCase) (hproper : self.Proper toLowerCase change) :
    (self.step toLowerCase change).Indexed toLowerCase := by
  cases change with
  | register client => exact h.register hproper
  | unregister chainId => exact h.unregister hproper

/-- An improper one loses a name. -/
theorem proper_of_named (hnamed : (self.step toLowerCase change).Named toLowerCase) :
    self.Proper toLowerCase change := by
  cases change with
  | register client =>
    cases htaken : self.clients.get? client.chainId with
    | some other => exact .inl (by rw [htaken]; rfl)
    | none =>
      refine .inr fun hempty => ?_
      rw [register_eq htaken] at hnamed
      have hfound := (hnamed client.chainName).1.2 ⟨client, by rw [Registered, Dict.get?_put, if_pos rfl], rfl⟩
      rw [getByName_of_index (by rw [Dict.get?_put, if_pos rfl]), if_pos hempty] at hfound
      cases hfound
  | unregister chainId =>
    intro client hclient other hother hname
    by_contra hne
    have hid : chainId ≠ other.chainId := fun hid => by
      rw [hid, hother] at hclient
      exact hne (Option.some.inj hclient)
    rw [unregister_eq hclient] at hnamed
    have hfound := (hnamed other.chainName).1.2 ⟨other, by rw [Registered, Dict.get?_erase, if_neg hid, hother], rfl⟩
    rw [getByName_of_none (by rw [Dict.get?_erase, if_pos hname.symm])] at hfound
    cases hfound

theorem Indexed.keeps (h : self.Indexed toLowerCase) (hproper : self.Proper toLowerCase change) :
    self.Keeps toLowerCase change := by
  refine ⟨(h.step hproper).named, ?_⟩
  rintro chainId rfl other hother hid
  have hleft : (self.step toLowerCase (.unregister chainId)).Registered other := by
    cases hclient : self.clients.get? chainId with
    | none =>
      rw [unregister_none hclient]
      exact hother
    | some client =>
      rw [unregister_eq hclient, Registered, Dict.get?_erase, if_neg hid.symm]
      exact hother
  exact ⟨hleft, ((h.step hproper).named other.chainName).1.2 ⟨other, hleft, rfl⟩⟩

/-! ## Runs -/

/-- **The names are right after every change** just when every change is proper. -/
theorem named_iff {X : Type} (toLowerCase : String → String) (changes : List (Change X)) :
    (Named toLowerCase ({} : ChainRegistry X) ∧ Along (step toLowerCase) (Keeps toLowerCase) {} changes) ↔
      Along (step toLowerCase) (Proper toLowerCase) {} changes := by
  have hempty : Indexed toLowerCase ({} : ChainRegistry X) := indexed_empty
  constructor
  · rintro ⟨-, hkeeps⟩
    refine Along.of_inv (fun self change h hchange => ?_) hempty hkeeps
    have hproper := proper_of_named hchange.named
    exact ⟨h.step hproper, hproper⟩
  · exact fun hproper => ⟨hempty.named,
      Along.of_inv (fun self change h hchange => ⟨h.step hchange, h.keeps hchange⟩) hempty hproper⟩

/-- Two chains with names alike, of which the first goes: the second is registered, and not found. -/
theorem alike_not_found : ∃ changes : List (Change Unit),
    changes = [.register ⟨"1", "Ethereum", ()⟩, .register ⟨"11155111", "ethereum", ()⟩, .unregister "1"] ∧
    (exec (step String.toLower) {} changes).Registered ⟨"11155111", "ethereum", ()⟩ ∧
    (exec (step String.toLower) {} changes).getByName String.toLower "ethereum" = none := by
  have hlower : "Ethereum".toLower = "ethereum".toLower := by
    have hchars : "Ethereum".toList.map Char.toLower = "ethereum".toList.map Char.toLower := by decide +kernel
    exact String.toList_inj.1 (String.toList_map.trans (hchars.trans String.toList_map.symm))
  let both : ChainRegistry Unit :=
    exec (step String.toLower) {} [.register ⟨"1", "Ethereum", ()⟩, .register ⟨"11155111", "ethereum", ()⟩]
  have hfirst : both.clients.get? "1" = some ⟨"1", "Ethereum", ()⟩ := rfl
  refine ⟨_, rfl, rfl, ?_⟩
  change (step String.toLower both (.unregister "1")).getByName String.toLower "ethereum" = none
  rw [unregister_eq hfirst]
  exact getByName_of_none (by rw [Dict.get?_erase, if_pos hlower])

end ChainRegistry

end NexoraGateway.Chain
