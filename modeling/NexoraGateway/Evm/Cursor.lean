import NexoraGateway.Evm.Client

/-!
# What the cursor has passed (evm-chain-client.ts:376-464)

A poll sets the cursor to the head that it read at first, whatever it has been answered since: a block, a
transaction or a receipt that the node does not have yet is skipped for good. `cursor_passes` says when the
cursor passes no transfer: in every run in which `null` never stands for something that pays the address, and no
head is taken for the cursor while polling is under way.

* `Poll.Passed` — a poll waits behind the place of a payment.
* `resume_passed` — how it comes to do so.
* `Covers`, `step_covers` — the invariant, for one payment, and one step.
-/
namespace NexoraGateway.Evm

open Async Store

/-- The transaction is sent to the address. -/
def PaysNative (address : String) (entry : Transaction × Receipt) : Prop :=
  entry.1.to.map String.toLower = some address

/-- A log of the receipt is read as a transfer to the address. -/
def PaysToken (address : String) (entry : Transaction × Receipt) : Prop :=
  ∃ log ∈ entry.2.logs, (transferOf log).map Prod.snd = some address

instance (address : String) : DecidablePred (PaysNative address) := fun _ => inferInstanceAs (Decidable (_ = _))
instance (address : String) : DecidablePred (PaysToken address) := fun entry =>
  inferInstanceAs (Decidable (∃ log ∈ entry.2.logs, _))

variable (chain : Chain) (address : String)

/-- A request that goes unrejected is answered what the chain has, or `null` where that pays the address nothing. -/
def Honest : Poll → Answer → Prop
  | .block _ blockNum, .block block => block = some ⟨(chain blockNum).hashes⟩ ∨
      block = none ∧ ∀ entry ∈ (chain blockNum).rows, ¬ PaysNative address entry ∧ ¬ PaysToken address entry
  | .transaction _ blockNum txHash _, .transaction tx => tx = ((chain blockNum).find? txHash).map Prod.fst ∨
      tx = none ∧ ∀ entry ∈ (chain blockNum).find? txHash, ¬ PaysNative address entry ∧ ¬ PaysToken address entry
  | .receipt _ blockNum txHash _, .receipt receipt => receipt = ((chain blockNum).find? txHash).map Prod.snd ∨
      receipt = none ∧ ∀ entry ∈ (chain blockNum).find? txHash, ¬ PaysToken address entry
  | _, _ => True

instance : (poll : Poll) → (answer : Answer) → Decidable (Honest chain address poll answer)
  | .block _ blockNum, .block block => inferInstanceAs (Decidable (block = some ⟨(chain blockNum).hashes⟩ ∨
      block = none ∧ ∀ entry ∈ (chain blockNum).rows, ¬ PaysNative address entry ∧ ¬ PaysToken address entry))
  | .transaction _ blockNum txHash _, .transaction tx => inferInstanceAs (Decidable
      (tx = ((chain blockNum).find? txHash).map Prod.fst ∨
        tx = none ∧ ∀ entry ∈ (chain blockNum).find? txHash, ¬ PaysNative address entry ∧ ¬ PaysToken address entry))
  | .receipt _ blockNum txHash _, .receipt receipt => inferInstanceAs (Decidable
      (receipt = ((chain blockNum).find? txHash).map Prod.snd ∨
        receipt = none ∧ ∀ entry ∈ (chain blockNum).find? txHash, ¬ PaysToken address entry))
  | .blockNumber, _ | .block .., .rejected | .block .., .blockNumber _ | .block .., .transaction _
  | .block .., .receipt _ | .transaction .., .rejected | .transaction .., .blockNumber _
  | .transaction .., .block _ | .transaction .., .receipt _ | .receipt .., .rejected
  | .receipt .., .blockNumber _ | .receipt .., .block _ | .receipt .., .transaction _ =>
    inferInstanceAs (Decidable True)

variable {L : Type} [DecidableEq L]

/-- A step at which no transfer to the address is passed over: polls are answered honestly, and the head that a
start is answered becomes the cursor when nothing beyond it is being polled, or, if polling is under way already,
when that is no step forward. -/
def Faithful (r : Runtime L) : Step L → Prop
  | .answered i answer => ∀ poll ∈ r.polls[i]?, Honest chain address poll answer
  | .started (some n) =>
    (r.pollTimer = none → ∀ poll ∈ r.polls, ∀ current ∈ poll.current?, current ≤ n) ∧
      (r.pollTimer ≠ none → n ≤ r.lastBlockNumber)
  | _ => True

instance (r : Runtime L) : (x : Step L) → Decidable (Faithful chain address r x)
  | .answered i answer => inferInstanceAs (Decidable (∀ poll ∈ r.polls[i]?, Honest chain address poll answer))
  | .started (some n) => inferInstanceAs (Decidable
      ((r.pollTimer = none → ∀ poll ∈ r.polls, ∀ current ∈ poll.current?, current ≤ n) ∧
        (r.pollTimer ≠ none → n ≤ r.lastBlockNumber)))
  | .started none | .watchDeposits .. | .unsubscribe .. | .destroy | .tick _ => inferInstanceAs (Decidable True)

/-! ## What has been told -/

/-- A payment that a transaction makes: its ether, or what one of its logs is read as. -/
inductive Payment where
  | ether
  | token (log : Log) (sender : String) (amount : Nat)

/-- The transaction makes the payment to the address. -/
def Pays (address : String) (entry : Transaction × Receipt) : Payment → Prop
  | .ether => PaysNative address entry
  | .token log sender amount =>
    log ∈ entry.2.logs ∧ transferOf log = some (sender, address) ∧ log.amount = some amount

/-- The event that a listener for the address is told. -/
def Payment.event (chainId : String) (current n : Nat) (entry : Transaction × Receipt) (address : String) :
    Payment → DepositEvent
  | .ether => nativeEvent chainId current n entry.1
  | .token log sender amount => tokenEvent current n entry.2.hash sender address log amount

section
omit [DecidableEq L]
variable (address : String) (listener : L) (chainId : String) (n : Nat) (delivered : List (Delivery L))

def Told (entry : Transaction × Receipt) (payment : Payment) : Prop :=
  ∃ current, ⟨address, listener, payment.event chainId current n entry address⟩ ∈ delivered

/-- The listener has been told of every payment to the address in block `n`. -/
def AllTold (chain : Chain) : Prop :=
  ∀ entry ∈ (chain n).rows, ∀ payment, Pays address entry payment →
    Told address listener chainId n delivered entry payment

end

section
variable (n : Nat) (hash : String) (payment : Payment)

/-- The poll waits behind the place of a payment by transaction `hash` of block `n`. -/
def Poll.Passed : Poll → Prop
  | .blockNumber => False
  | .block _ blockNum => n < blockNum
  | .transaction _ blockNum txHash rest => n < blockNum ∨ blockNum = n ∧ hash ∉ txHash :: rest
  | .receipt _ blockNum txHash rest => n < blockNum ∨ blockNum = n ∧ hash ∉ rest ∧ (hash = txHash → payment = .ether)

def Progress.Passed : Progress → Prop
  | .waits poll => poll.Passed n hash payment
  | .polled current => n ≤ current
  | .ended => False

omit [DecidableEq L] in
/-- When the cursor or a poll has passed the place, `H` holds. -/
structure Covers (H : Prop) (r : Runtime L) : Prop where
  cursor : n ≤ r.lastBlockNumber → H
  polls : ∀ poll ∈ r.polls, poll.Passed n hash payment → H

end

/-- The block whose transactions a poll is at. -/
def Poll.blockNum? : Poll → Option Nat
  | .blockNumber | .block .. => none
  | .transaction _ blockNum .. | .receipt _ blockNum .. => some blockNum

section
omit [DecidableEq L]
variable {chain : Chain} {address : String} {listener : L} {chainId : String} {n : Nat} {hash : String}
  {payment : Payment} {delivered told : List (Delivery L)} {entry : Transaction × Receipt}

theorem Covers.imp {H H' : Prop} {r : Runtime L} (h : Covers n hash payment H r) (himp : H → H') :
    Covers n hash payment H' r :=
  ⟨fun hle => himp (h.cursor hle), fun poll hpoll hp => himp (h.polls poll hpoll hp)⟩

theorem Told.more (h : Told address listener chainId n delivered entry payment) :
    Told address listener chainId n (delivered ++ told) entry payment :=
  have ⟨current, hmem⟩ := h
  ⟨current, List.mem_append_left _ hmem⟩

/-- What makes a payment is not idle. -/
theorem Pays.not_idle (h : Pays address entry payment) :
    ¬ (¬ PaysNative address entry ∧ ¬ PaysToken address entry) := by
  rintro ⟨hnative, htoken⟩
  cases payment with
  | ether => exact hnative h
  | token log sender amount => exact htoken ⟨log, h.1, by rw [h.2.1]; rfl⟩

theorem Pays.token {log : Log} {sender : String} {amount : Nat} (h : Pays address entry (.token log sender amount)) :
    PaysToken address entry := ⟨log, h.1, by rw [h.2.1]; rfl⟩

theorem nextBlock_passed {current blockNum : Nat} (h : (nextBlock current blockNum).Passed n hash payment) :
    n < blockNum := by
  unfold nextBlock at h
  split at h
  · exact h
  · have hle : n ≤ current := h
    omega

theorem nextTransaction_passed {current blockNum : Nat} {rest : List String}
    (h : (nextTransaction current blockNum rest).Passed n hash payment) :
    n < blockNum ∨ blockNum = n ∧ hash ∉ rest := by
  cases rest with
  | cons txHash rest => exact h
  | nil =>
    have hlt := nextBlock_passed h
    by_cases hn : n < blockNum
    · exact .inl hn
    · exact .inr ⟨by omega, List.not_mem_nil⟩

/-! ## One step -/

section
variable {current blockNum : Nat} {txHash : String} {rest : List String} (hentry : entry ∈ (chain n).rows)
include hentry

/-- A block that the node does not have is passed. -/
theorem noBlock_passed (hpays : Pays address entry payment)
    (hhonest : Honest chain address (.block current blockNum) (.block none))
    (h : (nextBlock current (blockNum + 1)).Passed n entry.1.hash payment) : n < blockNum := by
  have hlt := nextBlock_passed h
  by_contra hn
  obtain rfl : blockNum = n := by omega
  exact absurd ((hhonest.resolve_left nofun).2 entry hentry) hpays.not_idle

theorem block_passed {block : Block} (hhonest : Honest chain address (.block current blockNum) (.block (some block)))
    (h : (nextTransaction current blockNum block.transactions).Passed n entry.1.hash payment) : n < blockNum := by
  rcases nextTransaction_passed h with hlt | ⟨rfl, hnot⟩
  · exact hlt
  · obtain rfl : block = ⟨(chain blockNum).hashes⟩ := Option.some.inj (hhonest.resolve_right nofun)
    exact absurd (List.mem_map_of_mem hentry) hnot

/-- A transaction that the node does not have is passed. -/
theorem noTransaction_passed (hpays : Pays address entry payment)
    (hhonest : Honest chain address (.transaction current blockNum txHash rest) (.transaction none))
    (h : (nextTransaction current blockNum rest).Passed n entry.1.hash payment) :
    (Poll.transaction current blockNum txHash rest).Passed n entry.1.hash payment := by
  rcases nextTransaction_passed h with hlt | ⟨rfl, hnot⟩
  · exact .inl hlt
  · refine .inr ⟨rfl, List.not_mem_cons_of_ne_of_not_mem ?_ hnot⟩
    rintro rfl
    have hrow : (chain blockNum).find? entry.1.hash = some entry := Table.find?_eq_some.2 ⟨hentry, rfl⟩
    rcases hhonest with hnone | ⟨-, hidle⟩
    · rw [hrow] at hnone
      cases hnone
    · exact absurd (hidle entry hrow) hpays.not_idle

/-- Ether is passed with its transaction. -/
theorem transaction_passed {tx : Transaction}
    (hhonest : Honest chain address (.transaction current blockNum txHash rest) (.transaction (some tx)))
    (h : (Poll.receipt current blockNum txHash rest).Passed n entry.1.hash payment) :
    (Poll.transaction current blockNum txHash rest).Passed n entry.1.hash payment ∨
      blockNum = n ∧ payment = .ether ∧ tx = entry.1 := by
  rcases h with hlt | ⟨rfl, hnot, hether⟩
  · exact .inl (.inl hlt)
  · by_cases hhash : entry.1.hash = txHash
    · have hrow : (chain blockNum).find? txHash = some entry := Table.find?_eq_some.2 ⟨hentry, hhash⟩
      have htx := hhonest.resolve_right nofun
      rw [hrow] at htx
      exact .inr ⟨rfl, hether hhash, Option.some.inj htx⟩
    · exact .inl (.inr ⟨rfl, List.not_mem_cons_of_ne_of_not_mem hhash hnot⟩)

/-- A receipt that the node does not have is passed. -/
theorem noReceipt_passed (hpays : Pays address entry payment)
    (hhonest : Honest chain address (.receipt current blockNum txHash rest) (.receipt none))
    (h : (nextTransaction current blockNum rest).Passed n entry.1.hash payment) :
    (Poll.receipt current blockNum txHash rest).Passed n entry.1.hash payment := by
  rcases nextTransaction_passed h with hlt | ⟨rfl, hnot⟩
  · exact .inl hlt
  · refine .inr ⟨rfl, hnot, ?_⟩
    rintro rfl
    have hrow : (chain blockNum).find? entry.1.hash = some entry := Table.find?_eq_some.2 ⟨hentry, rfl⟩
    cases payment with
    | ether => rfl
    | token log sender amount =>
      rcases hhonest with hnone | ⟨-, hidle⟩
      · rw [hrow] at hnone
        cases hnone
      · exact absurd hpays.token (hidle entry hrow)

/-- Tokens are passed with the receipt. -/
theorem receipt_passed {receipt : Receipt}
    (hhonest : Honest chain address (.receipt current blockNum txHash rest) (.receipt (some receipt)))
    (h : (nextTransaction current blockNum rest).Passed n entry.1.hash payment) :
    (Poll.receipt current blockNum txHash rest).Passed n entry.1.hash payment ∨
      blockNum = n ∧ payment ≠ .ether ∧ receipt = entry.2 := by
  rcases nextTransaction_passed h with hlt | ⟨rfl, hnot⟩
  · exact .inl (.inl hlt)
  · by_cases hhash : entry.1.hash = txHash
    · have hrow : (chain blockNum).find? txHash = some entry := Table.find?_eq_some.2 ⟨hentry, hhash⟩
      have hreceipt := hhonest.resolve_right nofun
      rw [hrow] at hreceipt
      cases payment with
      | ether => exact .inl (.inr ⟨rfl, hnot, fun _ => rfl⟩)
      | token log sender amount => exact .inr ⟨rfl, nofun, Option.some.inj hreceipt⟩
    · exact .inl (.inr ⟨rfl, hnot, fun heq => absurd heq hhash⟩)

end

/-- **How a poll comes to pass a payment**: it has passed it before, the cursor has, or the payment is told. -/
theorem resume_passed {client : EVMChainClient L} (hentry : entry ∈ (chain n).rows) (hpays : Pays address entry payment)
    {poll : Poll} {answer : Answer} (hhonest : Honest chain address poll answer)
    (hlistens : poll.blockNum? = some n → Listens client.watchedAddresses address listener)
    (h : (resume client poll answer).1.Passed n entry.1.hash payment) :
    poll.Passed n entry.1.hash payment ∨ n ≤ client.lastBlockNumber ∨
      Told address listener client.chainId n (resume client poll answer).2 entry payment := by
  unfold resume at h ⊢
  split at h
  · split at h
    · exact h.elim
    · have hlt := nextBlock_passed h
      exact .inr (.inl (by omega))
  · exact .inl (noBlock_passed hentry hpays hhonest h)
  · exact .inl (block_passed hentry hhonest h)
  · exact .inl (noTransaction_passed hentry hpays hhonest h)
  · rename_i current blockNum txHash rest tx
    rcases transaction_passed hentry hhonest h with hpoll | ⟨rfl, rfl, rfl⟩
    · exact .inl hpoll
    · refine .inr (.inr ⟨current, mem_tell.2 ⟨hlistens rfl, ?_, rfl⟩⟩)
      simp only [involves, Bool.or_eq_true, decide_eq_true_eq]
      exact .inl hpays
  · exact .inl (noReceipt_passed hentry hpays hhonest h)
  · rename_i current blockNum txHash rest receipt
    split at h
    · rename_i told hlogs
      rcases receipt_passed hentry hhonest h with hpoll | ⟨rfl, htoken, rfl⟩
      · exact .inl hpoll
      · cases payment with
        | ether => exact absurd rfl htoken
        | token log sender amount =>
          have htold := tellLogs_complete (by rw [hlogs]) hpays.1 hpays.2.1 hpays.2.2 (hlistens rfl)
          rw [hlogs] at htold
          exact .inr (.inr ⟨current, htold⟩)
    · exact h.elim
  · exact h.elim
  · exact .inl h

/-- An answer to a poll: the payment is passed only if it is told. -/
theorem answered_covers {H : Prop} {r : Runtime L} (h : Covers n entry.1.hash payment H r)
    (hentry : entry ∈ (chain n).rows) (hpays : Pays address entry payment) {i : Nat} {answer : Answer}
    (hhonest : ∀ poll ∈ r.polls[i]?, Honest chain address poll answer)
    (hlistens : ∀ poll ∈ r.polls[i]?, poll.blockNum? = some n → Listens r.watchedAddresses address listener) :
    ∃ told, (answered i answer r).delivered = r.delivered ++ told ∧
      Covers n entry.1.hash payment (H ∨ Told address listener r.chainId n told entry payment)
        (answered i answer r) := by
  have hpassed {poll : Poll} {progress : Progress} {told : List (Delivery L)} (hi : r.polls[i]? = some poll)
      (hresume : resume r.toEVMChainClient poll answer = (progress, told))
      (hprogress : progress.Passed n entry.1.hash payment) :
      H ∨ Told address listener r.chainId n told entry payment := by
    have hafter : (resume r.toEVMChainClient poll answer).1.Passed n entry.1.hash payment := by
      rw [hresume]
      exact hprogress
    have hcases := resume_passed hentry hpays (hhonest poll hi) (hlistens poll hi) hafter
    rw [hresume] at hcases
    rcases hcases with hpoll | hcursor | htold
    · exact .inl (h.polls poll (List.mem_of_getElem? hi) hpoll)
    · exact .inl (h.cursor hcursor)
    · exact .inr htold
  have hresumed := answered_resumed i answer r
  generalize answered i answer r = r' at hresumed
  cases hresumed with
  | idle =>
    exact ⟨[], (List.append_nil _).symm, fun hle => .inl (h.cursor hle),
      fun poll hpoll hp => .inl (h.polls poll hpoll hp)⟩
  | waits hi hresume =>
    refine ⟨_, rfl, fun hle => .inl (h.cursor hle), fun poll hpoll hp => ?_⟩
    rcases List.mem_or_eq_of_mem_set hpoll with hpoll | rfl
    · exact .inl (h.polls poll hpoll hp)
    · exact hpassed hi hresume hp
  | polled hi hresume =>
    refine ⟨_, rfl, fun hle => hpassed hi hresume hle, fun poll hpoll hp => ?_⟩
    exact .inl (h.polls poll (List.mem_of_mem_eraseIdx hpoll) hp)
  | ended hi hresume =>
    refine ⟨_, rfl, fun hle => .inl (h.cursor hle), fun poll hpoll hp => ?_⟩
    exact .inl (h.polls poll (List.mem_of_mem_eraseIdx hpoll) hp)

end

variable {chain : Chain} {address : String} {listener : L} {chainId : String} {n : Nat} {hash : String}
  {payment : Payment}

/-- Any other step passes a payment only where a start takes a head beyond it for the cursor. -/
theorem step_covers {H : Prop} {r : Runtime L} (h : Covers n hash payment H r) {x : Step L}
    (hx : ∀ i answer, x ≠ .answered i answer) (hstart : ∀ head, x = .started (some head) → n ≤ head → H) :
    Covers n hash payment H (step r x) := by
  cases x with
  | watchDeposits | destroy => exact ⟨h.cursor, h.polls⟩
  | unsubscribe address' onDeposit =>
    simp only [step, unsubscribe]
    split <;> exact ⟨h.cursor, h.polls⟩
  | started answer =>
    simp only [step, started]
    split
    · exact h
    · refine ⟨fun hle => ?_, h.polls⟩
      cases answer with
      | none => exact h.cursor hle
      | some head => exact hstart head rfl hle
  | tick timer =>
    simp only [step, tick]
    split
    · refine ⟨h.cursor, fun poll hpoll hp => ?_⟩
      rcases List.mem_append.1 hpoll with hpoll | hpoll
      · exact h.polls poll hpoll hp
      · rw [List.mem_singleton.1 hpoll] at hp
        exact hp.elim
    · exact h
  | answered i answer => exact absurd rfl (hx i answer)

/-- **One step**: while the listener is there and polling is under way, a faithful step passes nothing over. -/
theorem faithful_covers {r : Runtime L} {entry : Transaction × Receipt} (hentry : entry ∈ (chain n).rows)
    (hpays : Pays address entry payment)
    (h : Covers n entry.1.hash payment (Told address listener r.chainId n r.delivered entry payment) r)
    (hlistens : Listens r.watchedAddresses address listener) (hpolling : r.pollTimer ≠ none) {x : Step L}
    (hx : Faithful chain address r x) :
    Covers n entry.1.hash payment (Told address listener r.chainId n (step r x).delivered entry payment)
      (step r x) := by
  cases x with
  | answered i answer =>
    obtain ⟨told, hdelivered, hcovers⟩ := answered_covers h hentry hpays hx fun _ _ _ => hlistens
    change Covers n entry.1.hash payment
      (Told address listener r.chainId n (answered i answer r).delivered entry payment) (answered i answer r)
    rw [hdelivered]
    have hmore (hor : Told address listener r.chainId n r.delivered entry payment ∨
        Told address listener r.chainId n told entry payment) :
        Told address listener r.chainId n (r.delivered ++ told) entry payment := by
      rcases hor with htold | ⟨current, hmem⟩
      · exact htold.more
      · exact ⟨current, List.mem_append_right _ hmem⟩
    exact ⟨fun hle => hmore (hcovers.cursor hle), fun poll hpoll hp => hmore (hcovers.polls poll hpoll hp)⟩
  | started answer =>
    rw [step_delivered]
    · refine step_covers h (fun _ _ => nofun) fun head hhead hle => h.cursor ?_
      cases hhead
      exact Nat.le_trans hle (hx.2 hpolling)
    · exact fun _ _ => nofun
  | watchDeposits | destroy | unsubscribe | tick =>
    rw [step_delivered]
    · exact step_covers h (fun _ _ => nofun) fun _ => nofun
    · exact fun _ _ => nofun

theorem step_chainId (r : Runtime L) (x : Step L) : (step r x).chainId = r.chainId := by
  cases x with
  | watchDeposits | destroy => rfl
  | unsubscribe =>
    simp only [step, unsubscribe]
    split <;> rfl
  | started =>
    simp only [step, started]
    split <;> rfl
  | tick =>
    simp only [step, tick]
    split <;> rfl
  | answered i answer =>
    have hresumed := answered_resumed i answer r
    change (answered i answer r).chainId = r.chainId
    generalize answered i answer r = r' at hresumed
    cases hresumed <;> rfl

/-- While somebody listens polling stays under way. -/
theorem step_polling {r : Runtime L} (hpolling : r.pollTimer ≠ none) (x : Step L) :
    (step r x).pollTimer = none → (step r x).watchedAddresses.rows = [] := by
  cases x with
  | watchDeposits => exact fun h => absurd h hpolling
  | destroy => exact fun _ => rfl
  | unsubscribe =>
    simp only [step, unsubscribe]
    split
    · rename_i hempty
      exact fun _ => hempty
    · exact fun h => absurd h hpolling
  | started =>
    simp only [step, started]
    split
    · exact fun h => absurd h hpolling
    · exact fun h => by cases h
  | tick =>
    simp only [step, tick]
    split <;> exact fun h => absurd h hpolling
  | answered i answer =>
    have hresumed := answered_resumed i answer r
    change (answered i answer r).pollTimer = none → (answered i answer r).watchedAddresses.rows = []
    generalize answered i answer r = r' at hresumed
    cases hresumed <;> exact fun h => absurd h hpolling

/-! ## Runs -/

/-- A poll is at a block up to the head that it is on its way to. -/
def Poll.InRange : Poll → Prop
  | .blockNumber => True
  | .block current blockNum | .transaction current blockNum _ _ | .receipt current blockNum _ _ =>
    0 < blockNum ∧ blockNum ≤ current

def Progress.InRange : Progress → Prop
  | .waits poll => poll.InRange
  | _ => True

section
omit [DecidableEq L]

theorem nextBlock_inRange {current blockNum : Nat} (h : 0 < blockNum) : (nextBlock current blockNum).InRange := by
  unfold nextBlock
  split
  · rename_i hle
    exact ⟨h, hle⟩
  · trivial

theorem nextTransaction_inRange {current blockNum : Nat} (h : 0 < blockNum ∧ blockNum ≤ current)
    (rest : List String) : (nextTransaction current blockNum rest).InRange := by
  cases rest with
  | nil => exact nextBlock_inRange (Nat.succ_pos blockNum)
  | cons txHash rest => exact h

theorem resume_inRange (client : EVMChainClient L) {poll : Poll} (h : poll.InRange) (answer : Answer) :
    (resume client poll answer).1.InRange := by
  unfold resume
  split
  · split
    · trivial
    · exact nextBlock_inRange (Nat.succ_pos _)
  · exact nextBlock_inRange (Nat.succ_pos _)
  · exact nextTransaction_inRange h _
  · exact nextTransaction_inRange h _
  · exact h
  · exact nextTransaction_inRange h _
  · split
    · exact nextTransaction_inRange h _
    · trivial
  · trivial
  · exact h

end

theorem step_inRange {r : Runtime L} (h : ∀ poll ∈ r.polls, poll.InRange) (x : Step L) :
    ∀ poll ∈ (step r x).polls, poll.InRange := by
  cases x with
  | watchDeposits | destroy => exact h
  | unsubscribe =>
    simp only [step, unsubscribe]
    split <;> exact h
  | started =>
    simp only [step, started]
    split <;> exact h
  | tick =>
    simp only [step, tick]
    split
    · intro poll hpoll
      rcases List.mem_append.1 hpoll with hpoll | hpoll
      · exact h poll hpoll
      · rw [List.mem_singleton.1 hpoll]
        trivial
    · exact h
  | answered i answer =>
    have hresumed := answered_resumed i answer r
    change ∀ poll ∈ (answered i answer r).polls, poll.InRange
    generalize answered i answer r = r' at hresumed
    cases hresumed with
    | idle => exact h
    | @waits poll poll' told hi hresume =>
      intro p hp
      rcases List.mem_or_eq_of_mem_set hp with hp | rfl
      · exact h p hp
      · have hin := resume_inRange r.toEVMChainClient (h poll (List.mem_of_getElem? hi)) answer
        rwa [hresume] at hin
    | polled | ended => exact fun p hp => h p (List.mem_of_mem_eraseIdx hp)

/-- No poll is on its way to a head beyond block `n`, nor is the cursor. -/
def Before (n : Nat) (r : Runtime L) : Prop :=
  r.lastBlockNumber ≤ n ∧ ∀ poll ∈ r.polls, ∀ current ∈ poll.current?, current ≤ n

omit [DecidableEq L] in
/-- A block that is still to come is covered. -/
theorem covers_of_before {r : Runtime L} {m : Nat} (h : Before m r) (hrange : ∀ poll ∈ r.polls, poll.InRange)
    (hn : m < n) (H : Prop) : Covers n hash payment H r := by
  refine ⟨fun hle => absurd h.1 (by omega), fun poll hpoll hp => ?_⟩
  have hcurrent := h.2 poll hpoll
  have hin := hrange poll hpoll
  cases poll with
  | blockNumber => exact hp.elim
  | block current blockNum =>
    have hle : current ≤ m := hcurrent current rfl
    have hlt : n < blockNum := hp
    exact absurd hin.2 (by omega)
  | transaction current blockNum | receipt current blockNum =>
    have hle : current ≤ m := hcurrent current rfl
    rcases hp with hlt | ⟨rfl, -⟩ <;> exact absurd hin.2 (by omega)

/-- **What the cursor has passed**: in every run whose steps are faithful, once polling has started at block
`head` with the address watched, and as long as it is watched, every transfer to it in a block after `head` up to
the cursor has been told to its listener. A start whose request fails leaves the cursor where it was; `head` is
then any block that nothing has gone beyond. -/
theorem cursor_passes (chain : Chain) (chainId : String) (xs ys : List (Step L)) (answer : Option Nat) (head : Nat)
    (address : String) (listener : L)
    (hxs : Runs.Along step (Faithful chain address) (fresh L chainId) (xs ++ .started answer :: ys))
    (hstart : (Runs.exec step (fresh L chainId) xs).starting ≠ 0 ∧
      (Runs.exec step (fresh L chainId) xs).pollTimer = none)
    (hhead : answer = some head ∨ answer = none ∧ Before head (Runs.exec step (fresh L chainId) xs))
    (hwatched : Runs.Along step (fun r _ => Listens r.watchedAddresses address listener)
      (Runs.exec step (fresh L chainId) xs) (.started answer :: ys)) :
    let r := Runs.exec step (fresh L chainId) (xs ++ .started answer :: ys)
    ∀ n, head < n → n ≤ r.lastBlockNumber → AllTold address listener chainId n r.delivered chain := by
  intro r n hn hpassed entry hentry payment hpays
  obtain ⟨-, hfirst, hfaithful⟩ := Runs.along_append.1 hxs
  have hchain : (Runs.exec step (fresh L chainId) xs).chainId = chainId :=
    Runs.exec_inv' (I := fun r : Runtime L => r.chainId = chainId) (fun r x h => (step_chainId r x).trans h) rfl xs
  have hrange : ∀ poll ∈ (Runs.exec step (fresh L chainId) xs).polls, poll.InRange :=
    Runs.exec_inv' (I := fun r : Runtime L => ∀ poll ∈ r.polls, poll.InRange) (fun r x h => step_inRange h x)
      (fun poll hpoll => absurd hpoll List.not_mem_nil) xs
  have hr : r = Runs.exec step (started answer (Runs.exec step (fresh L chainId) xs)) ys := by
    simp only [r, Runs.exec_append, Runs.exec_cons]
    rfl
  generalize Runs.exec step (fresh L chainId) xs = r₀ at *
  -- at the start block `n` is still to come
  have hbefore : Before head (started answer r₀) := by
    unfold started
    rw [if_neg hstart.1]
    rcases hhead with rfl | ⟨rfl, hbefore⟩
    · exact ⟨Nat.le_refl head, hfirst.1 hstart.2⟩
    · exact hbefore
  have hpolling : (started answer r₀).pollTimer ≠ none := by
    unfold started
    rw [if_neg hstart.1]
    exact nofun
  have hkeep (r : Runtime L) (x : Step L)
      (h : Covers n entry.1.hash payment (Told address listener chainId n r.delivered entry payment) r ∧
        r.chainId = chainId ∧ (r.pollTimer = none → r.watchedAddresses.rows = []))
      (hx : Faithful chain address r x ∧ Listens r.watchedAddresses address listener) :
      Covers n entry.1.hash payment (Told address listener chainId n (step r x).delivered entry payment) (step r x) ∧
        (step r x).chainId = chainId ∧ ((step r x).pollTimer = none → (step r x).watchedAddresses.rows = []) := by
    obtain ⟨hcovers, hid, hkept⟩ := h
    rw [← hid] at hcovers ⊢
    have hpolling : r.pollTimer ≠ none := fun hnone => by
      obtain ⟨listeners, hlisteners, -⟩ := hx.2
      rw [hkept hnone] at hlisteners
      exact absurd hlisteners List.not_mem_nil
    exact ⟨faithful_covers hentry hpays hcovers hx.2 hpolling hx.1, step_chainId r x, step_polling hpolling x⟩
  have hcovers : Covers n entry.1.hash payment
      (Told address listener chainId n (started answer r₀).delivered entry payment) (started answer r₀) :=
    covers_of_before hbefore (step_inRange hrange (.started answer)) hn _
  have hinv := Runs.exec_inv hkeep
    ⟨hcovers, (step_chainId r₀ (.started answer)).trans hchain, fun hnone => absurd hnone hpolling⟩
    (hfaithful.and hwatched.2)
  rw [hr] at hpassed ⊢
  exact hinv.1.cursor hpassed

/-- One block, in which the address is sent ether. -/
def paid : Chain := fun n =>
  if n = 11 then .single ⟨"0xa", "0xc", some "0xA", 5⟩ ⟨"0xa", true, []⟩ rfl else .empty

/-- Block 11 is polled. -/
def polled : List (Step Nat) :=
  [.tick 0, .answered 0 (.blockNumber 11), .answered 0 (.block (some ⟨["0xa"]⟩)),
    .answered 0 (.transaction (some ⟨"0xa", "0xc", some "0xA", 5⟩)), .answered 0 (.receipt (some ⟨"0xa", true, []⟩))]

/-- The rule in that run. -/
theorem cursor_passes_paid :
    let r := Runs.exec step (fresh Nat "1") ([.watchDeposits "0xA" 0] ++ .started (some 10) :: polled)
    r.lastBlockNumber = 11 ∧ AllTold "0xa" 0 "1" 11 r.delivered paid := by
  have hpassed : (Runs.exec step (fresh Nat "1")
      ([.watchDeposits "0xA" 0] ++ .started (some 10) :: polled)).lastBlockNumber = 11 := by decide +kernel
  have hfaithful : Runs.Along step (Faithful paid "0xa") (fresh Nat "1")
      ([.watchDeposits "0xA" 0] ++ .started (some 10) :: polled) := by decide +kernel
  have hwatched : Runs.Along step (fun r _ => Listens r.watchedAddresses "0xa" 0)
      (Runs.exec step (fresh Nat "1") [.watchDeposits "0xA" 0]) (.started (some 10) :: polled) := by decide +kernel
  exact ⟨hpassed, cursor_passes paid "1" [.watchDeposits "0xA" 0] polled (some 10) 10 "0xa" 0 hfaithful
    (by decide +kernel) (.inl rfl) hwatched 11 (by decide) (by rw [hpassed])⟩

/-- The node has counted block 11 and does not have it yet. -/
def skipped : List (Step Nat) :=
  [.watchDeposits "0xA" 0, .started (some 10), .tick 0, .answered 0 (.blockNumber 11), .answered 0 (.block none)]

/-- The cursor passes block 11, and the ether that the watched address is sent there is told to nobody. -/
theorem block_skipped :
    let r := Runs.exec step (fresh Nat "1") skipped
    r.lastBlockNumber = 11 ∧ Listens r.watchedAddresses "0xa" 0 ∧ r.delivered = [] ∧
      ¬ AllTold "0xa" 0 "1" 11 r.delivered paid := by
  have hdelivered : (Runs.exec step (fresh Nat "1") skipped).delivered = [] := by decide +kernel
  refine ⟨by decide +kernel, by decide +kernel, hdelivered, fun htold => ?_⟩
  obtain ⟨current, hmem⟩ := htold (⟨"0xa", "0xc", some "0xA", 5⟩, ⟨"0xa", true, []⟩) List.mem_cons_self .ether
    (show PaysNative "0xa" _ by decide +kernel)
  rw [hdelivered] at hmem
  exact absurd hmem List.not_mem_nil

end NexoraGateway.Evm
