import NexoraGateway.Compliance.Spellings
import NexoraGateway.Worker.Durable

/-!
# Which transfers share an idempotency key (deposit-watcher.ts:52)

The key lower-cases the hash and the addresses, whatever the chain. That is how an EVM chain compares them, but in the
base58 of Solana and Tron the case of a letter counts: `toldApart_iff` says which transfers are told apart all the same.
-/
namespace NexoraGateway.Worker

open Compliance (colon_toLower eq_before_separator toLower_toList)

/-- The clients of `chain-abstraction/src`. -/
inductive ChainFamily where
  | evm | solana | tron
  deriving DecidableEq, Repr

/-- What the chain reads in a hash: hexadecimal, but base58 on Solana. -/
def ChainFamily.hash : ChainFamily → String → String
  | evm, s | tron, s => s.toLower
  | solana, s => s

/-- What the chain reads in an address: base58, but hexadecimal on an EVM chain. -/
def ChainFamily.address : ChainFamily → String → String
  | evm, s => s.toLower
  | solana, s | tron, s => s

/-- A transfer as a client observes it: letters and digits, and an amount of base units. -/
structure Transfer where
  chainId : String
  event : DepositEvent
  txHash : event.txHash.toList.all Char.isAlphanum = true
  «to» : event.to.toList.all Char.isAlphanum = true
  asset : event.asset.address.toList.all Char.isAlphanum = true
  amount : ∃ amount : Nat, event.amount = toString amount

def Transfer.key (transfer : Transfer) : String := depositIdempotencyKey transfer.chainId transfer.event

/-- They are one transfer, as their chain compares them. -/
structure SameTransfer (family : String → ChainFamily) (a b : Transfer) : Prop where
  chainId : a.chainId = b.chainId
  txHash : (family a.chainId).hash a.event.txHash = (family a.chainId).hash b.event.txHash
  «to» : (family a.chainId).address a.event.to = (family a.chainId).address b.event.to
  asset : (family a.chainId).address a.event.asset.address = (family a.chainId).address b.event.asset.address
  amount : a.event.amount = b.event.amount

/-- They are one transfer but for the case of letters. -/
structure Alike (a b : Transfer) : Prop where
  chainId : a.chainId = b.chainId
  txHash : a.event.txHash.toLower = b.event.txHash.toLower
  «to» : a.event.to.toLower = b.event.to.toLower
  asset : a.event.asset.address.toLower = b.event.asset.address.toLower
  amount : a.event.amount = b.event.amount

/-- They have one key just when they are one transfer. -/
def ToldApart (family : String → ChainFamily) (a b : Transfer) : Prop := a.key = b.key ↔ SameTransfer family a b

/-! ## The fields of a key -/

variable {a b : Transfer} {family : String → ChainFamily}

theorem no_colon_of_alphanum {s : String} (h : s.toList.all Char.isAlphanum = true) : ':' ∉ s.toList := fun hc =>
  absurd (List.all_eq_true.1 h ':' hc) (by decide)

theorem no_colon_of_amount (h : ∃ amount : Nat, a.event.amount = toString amount) : ':' ∉ a.event.amount.toList := by
  obtain ⟨amount, hamount⟩ := h
  rw [hamount, Nat.toString_eq_repr, Nat.toList_repr]
  exact fun hc => absurd (Nat.isDigit_of_mem_toDigits (by decide) (by decide) hc) (by decide)

/-- What comes after the last separator. -/
theorem append_separator_inj {α : Type} {s : α} {xs xs' ys ys' : List α} (hy : s ∉ ys) (hy' : s ∉ ys')
    (h : xs ++ s :: ys = xs' ++ s :: ys') : xs = xs' ∧ ys = ys' := by
  have hreverse := congrArg List.reverse h
  simp only [List.reverse_append, List.reverse_cons, List.append_assoc, List.singleton_append] at hreverse
  have hys : ys.reverse = ys'.reverse := by
    have hbefore : ys.reverse ++ [s] <+: ys'.reverse ++ s :: xs'.reverse :=
      ⟨xs.reverse, by rw [← hreverse, List.append_assoc, List.singleton_append]⟩
    exact eq_before_separator (by simpa using hy) (by simpa using hy') hbefore
  obtain rfl := List.reverse_inj.1 hys
  exact ⟨List.append_cancel_right h, rfl⟩

theorem key_toList (a : Transfer) : a.key.toList =
    (((("deposit:".toList ++ a.chainId.toList) ++ ':' :: a.event.txHash.toLower.toList) ++
      ':' :: a.event.to.toLower.toList) ++ ':' :: a.event.asset.address.toLower.toList) ++
        ':' :: a.event.amount.toList := by
  simp [Transfer.key, depositIdempotencyKey]

/-- Transfers share a key just when they are alike. -/
theorem key_eq_iff : a.key = b.key ↔ Alike a b := by
  rw [← String.toList_inj, key_toList, key_toList]
  constructor
  · intro h
    obtain ⟨h, hamount⟩ := append_separator_inj (no_colon_of_amount a.amount) (no_colon_of_amount b.amount) h
    obtain ⟨h, hasset⟩ := append_separator_inj (colon_toLower (no_colon_of_alphanum a.asset))
      (colon_toLower (no_colon_of_alphanum b.asset)) h
    obtain ⟨h, hto⟩ := append_separator_inj (colon_toLower (no_colon_of_alphanum a.to))
      (colon_toLower (no_colon_of_alphanum b.to)) h
    obtain ⟨h, hhash⟩ := append_separator_inj (colon_toLower (no_colon_of_alphanum a.txHash))
      (colon_toLower (no_colon_of_alphanum b.txHash)) h
    exact ⟨String.toList_inj.1 (List.append_cancel_left h), String.toList_inj.1 hhash, String.toList_inj.1 hto,
      String.toList_inj.1 hasset, String.toList_inj.1 hamount⟩
  · rintro ⟨hchain, hhash, hto, hasset, hamount⟩
    rw [hchain, hhash, hto, hasset, hamount]

theorem ChainFamily.hash_toLower (f : ChainFamily) {s t : String} (h : f.hash s = f.hash t) :
    s.toLower = t.toLower := by
  cases f with
  | evm | tron => exact h
  | solana => exact congrArg String.toLower h

theorem ChainFamily.address_toLower (f : ChainFamily) {s t : String} (h : f.address s = f.address t) :
    s.toLower = t.toLower := by
  cases f with
  | evm => exact h
  | solana | tron => exact congrArg String.toLower h

/-- One transfer has one key, however its fields are spelled. -/
theorem SameTransfer.alike (h : SameTransfer family a b) : Alike a b :=
  ⟨h.chainId, ChainFamily.hash_toLower _ h.txHash, ChainFamily.address_toLower _ h.to,
    ChainFamily.address_toLower _ h.asset, h.amount⟩

/-- On an EVM chain transfers that are alike are the same. -/
theorem Alike.same_of_evm (h : Alike a b) (hfamily : family a.chainId = .evm) : SameTransfer family a b := by
  refine ⟨h.chainId, ?_, ?_, ?_, h.amount⟩
  · rw [hfamily]
    exact h.txHash
  · rw [hfamily]
    exact h.to
  · rw [hfamily]
    exact h.asset

/-- **Transfers are told apart** just when they do not differ in the case of letters alone, on a chain for which that is
a difference. -/
theorem toldApart_iff (family : String → ChainFamily) (a b : Transfer) :
    ToldApart family a b ↔ (family a.chainId = .evm ∨ (Alike a b → SameTransfer family a b)) := by
  rw [ToldApart, key_eq_iff]
  constructor
  · exact fun h => .inr h.1
  · rintro (hfamily | h)
    · exact ⟨fun halike => halike.same_of_evm hfamily, SameTransfer.alike⟩
    · exact ⟨h, SameTransfer.alike⟩

/-! ## Two signatures on Solana -/

/-- A signature of 88 characters. -/
def signature (last : Char) : String := String.ofList (List.replicate 87 '5' ++ [last])

def solanaEvent (last : Char) : DepositEvent :=
  { txHash := signature last, blockNumber := 1, «to» := "9xQeWvG816bUx9EPjHmaT23yvVM2ZWbrrpZb9PusVFin"
    asset := ⟨"EPjFWdd5AufqSSqeM2qN1xzybapC8G4wEGGkZwyTDt1v", "USDC", 6⟩, amount := "1000000" }

def upperTransfer : Transfer :=
  ⟨"solana", solanaEvent 'A', by decide +kernel, by decide +kernel, by decide +kernel, 1000000, by decide +kernel⟩

def lowerTransfer : Transfer :=
  ⟨"solana", solanaEvent 'a', by decide +kernel, by decide +kernel, by decide +kernel, 1000000, by decide +kernel⟩

/-- Two payments in two transactions have one key, so that the second is dropped. -/
theorem signatures_not_toldApart :
    (upperTransfer.event.txHash ≠ lowerTransfer.event.txHash ∧
      Compliance.Solana.validateAddress upperTransfer.event.to = true ∧ upperTransfer.key = lowerTransfer.key) ∧
    ¬ ToldApart (fun _ => .solana) upperTransfer lowerTransfer := by
  have hne : upperTransfer.event.txHash ≠ lowerTransfer.event.txHash := by decide +kernel
  have hhash : (signature 'A').toLower = (signature 'a').toLower := by
    rw [← String.toList_inj, toLower_toList, toLower_toList]
    decide +kernel
  have hkey : upperTransfer.key = lowerTransfer.key := key_eq_iff.2 ⟨rfl, hhash, rfl, rfl, rfl⟩
  exact ⟨⟨hne, by decide +kernel, hkey⟩, fun h => hne (h.1 hkey).txHash⟩

end NexoraGateway.Worker
