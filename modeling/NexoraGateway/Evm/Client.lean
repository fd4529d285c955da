import NexoraGateway.Async.Runs
import NexoraGateway.Json
import NexoraGateway.Store.Table

/-!
# Watching an EVM chain (`chain-abstraction/src/evm/evm-chain-client.ts`)

The client's memory is shared by the calls of `watchDeposits` and `unsubscribe` and by the activations of
`startPolling` and `pollBlocks`. Each of them runs without interruption from one `await` to the next, so an
activation that waits is the place in the code where it does (`Poll`) with its local variables, and a step of
the system is one run to the next `await`.

* `watchDeposits`, `unsubscribe` — :326.
* `started` — the rest of `startPolling` after its one `await` (:359).
* `resume` — `pollBlocks` from one `await` to the next (:376).
* `destroy` — :468.

Listeners are functions that the client compares and calls; `delivered` records their calls. What they do
besides is their own affair.
-/
namespace NexoraGateway.Evm

open Store

/-- `AssetInfo` (shared/src/types/chain.ts:8). -/
structure AssetInfo where
  address : String
  symbol : String
  decimals : Nat
  name : String
  deriving DecidableEq

/-- `DepositEvent` (shared/src/types/chain.ts:84). -/
structure DepositEvent where
  txHash : String
  blockNumber : Nat
  «from» : String
  «to» : String
  asset : AssetInfo
  amount : String
  confirmations : Nat
  deriving DecidableEq

/-- `ethers.ZeroAddress`. -/
def zeroAddress : String := "0x0000000000000000000000000000000000000000"

/-- `TRANSFER_TOPIC` (shared/src/constants/abis.ts:53). -/
def transferTopic : String := "0xddf252ad1be2c89b69c2b068fc378daa952ba7f163c4a11628f55a4df523b3ef"

/-- An entry of `NATIVE_ASSETS`: they have 18 decimals and no address. -/
def native (symbol name : String) : AssetInfo := { address := zeroAddress, symbol, decimals := 18, name }

/-- `NATIVE_ASSETS[chainId]` (:46), and what the constructor puts for a chain that has none. -/
def nativeAsset (chainId : String) : AssetInfo :=
  match chainId with
  | "1" | "8453" | "42161" | "10" => native "ETH" "Ether"
  | "11155111" => native "ETH" "Sepolia ETH"
  | "84532" => native "ETH" "Base Sepolia ETH"
  | "421614" => native "ETH" "Arbitrum Sepolia ETH"
  | "137" | "80002" => native "POL" "POL"
  | "11155420" => native "ETH" "Optimism Sepolia ETH"
  | _ => native "UNKNOWN" "Unknown"

/-! ## What a node answers -/

/-- What is read of a `TransactionResponse`. -/
structure Transaction where
  hash : String
  «from» : String
  «to» : Option String
  value : Nat
  deriving DecidableEq

/-- What is read of a `Log`. `amount` is the `uint256` that `data` decodes to, or `none` where the decoder throws. -/
structure Log where
  address : String
  topics : List String
  amount : Option Nat
  deriving DecidableEq

/-- A `TransactionReceipt`. The client does not read its `status`. -/
structure Receipt where
  hash : String
  succeeded : Bool
  logs : List Log
  deriving DecidableEq

/-- The hashes of a block's transactions. -/
structure Block where
  transactions : List String
  deriving DecidableEq

/-- What a request is answered: a rejection, or what was asked for, which may be `null`. -/
inductive Answer where
  | rejected
  | blockNumber (n : Nat)
  | block (b : Option Block)
  | transaction (tx : Option Transaction)
  | receipt (r : Option Receipt)

/-- A block of the chain: its transactions with their receipts, no two with one hash. -/
structure ChainBlock extends Table fun entry : Transaction × Receipt => entry.1.hash where
  receipts : ∀ entry ∈ rows, entry.2.hash = entry.1.hash

namespace ChainBlock

def empty : ChainBlock := ⟨.empty, fun _ h => absurd h List.not_mem_nil⟩

def single (tx : Transaction) (receipt : Receipt) (h : receipt.hash = tx.hash) : ChainBlock :=
  ⟨⟨[(tx, receipt)], List.nodup_singleton _⟩, fun _ hentry => by rwa [List.mem_singleton.1 hentry]⟩

def hashes (block : ChainBlock) : List String := block.rows.map fun entry => entry.1.hash

end ChainBlock

/-- The blocks by their numbers. -/
abbrev Chain : Type := Nat → ChainBlock

/-! ## The client -/

/-- Where an activation of `pollBlocks` waits: for the number of the head; for block `blockNum` on the way to
`current`; for transaction `txHash` of the block, or for its receipt, with `rest` to follow. -/
inductive Poll where
  | blockNumber
  | block (current blockNum : Nat)
  | transaction (current blockNum : Nat) (txHash : String) (rest : List String)
  | receipt (current blockNum : Nat) (txHash : String) (rest : List String)
  deriving DecidableEq

variable {L : Type}

/-- A call of a listener that was registered for `address`. -/
structure Delivery (L : Type) where
  address : String
  listener : L
  event : DepositEvent
  deriving DecidableEq

/-- The fields of `EVMChainClient` (:68) that change, and its chain. -/
structure EVMChainClient (L : Type) where
  chainId : String
  watchedAddresses : Dict String (List L) := .empty
  pollTimer : Option Nat := none
  lastBlockNumber : Nat := 0

/-- The client, the intervals that are set, the number of the next one, the activations of `startPolling` and
`pollBlocks` that wait, and the calls of listeners so far. -/
structure Runtime (L : Type) extends EVMChainClient L where
  timers : List Nat := []
  nextTimer : Nat := 0
  starting : Nat := 0
  polls : List Poll := []
  delivered : List (Delivery L) := []

/-- How an activation of `pollBlocks` goes on: it waits again, it has come to its last line, or it ends before. -/
inductive Progress where
  | waits (p : Poll)
  | polled (current : Nat)
  | ended

/-- The head of the loop over the blocks. -/
def nextBlock (current blockNum : Nat) : Progress :=
  if blockNum ≤ current then .waits (.block current blockNum) else .polled current

/-- The head of the loop over the transactions of a block. -/
def nextTransaction (current blockNum : Nat) : List String → Progress
  | [] => nextBlock current (blockNum + 1)
  | txHash :: rest => .waits (.transaction current blockNum txHash rest)

/-- The event of a transaction that involves a watched address. -/
def nativeEvent (chainId : String) (current blockNum : Nat) (tx : Transaction) : DepositEvent where
  txHash := tx.hash
  blockNumber := blockNum
  «from» := tx.from
  «to» := tx.to.getD zeroAddress
  asset := nativeAsset chainId
  amount := toString tx.value
  confirmations := current - blockNum + 1

/-- `topic.slice(26)` behind `0x`. -/
def topicAddress (topic : String) : String := "0x" ++ String.ofList (topic.toList.drop 26)

/-- The sender and the recipient of a log that is read as a transfer, by the position of its topics. -/
def transferOf (log : Log) : Option (String × String) :=
  match log.topics with
  | topic :: sender :: recipient :: _ =>
    if topic = transferTopic then some (topicAddress sender, (topicAddress recipient).toLower) else none
  | _ => none

/-- The event of a transfer log. -/
def tokenEvent (current blockNum : Nat) (txHash sender recipient : String) (log : Log) (amount : Nat) :
    DepositEvent where
  txHash := txHash
  blockNumber := blockNum
  «from» := sender
  «to» := recipient
  asset := { address := log.address, symbol := "UNKNOWN", decimals := 18, name := "Unknown Token" }
  amount := toString amount
  confirmations := current - blockNum + 1

/-- The listeners of the watched addresses that `involved` holds of are told the event. -/
def tell (watched : Dict String (List L)) (involved : String → Bool) (event : DepositEvent) : List (Delivery L) :=
  (watched.rows.filter fun entry => involved entry.1).flatMap fun entry =>
    entry.2.map fun listener => ⟨entry.1, listener, event⟩

/-- The transaction has the address at either end. -/
def involves (tx : Transaction) (address : String) : Bool :=
  tx.to.map String.toLower = some address || tx.from.toLower = address

/-- What the logs of a receipt are told as, and whether all of them could be read: the first transfer to a
watched address whose data does not decode throws. -/
def tellLogs (watched : Dict String (List L)) (current blockNum : Nat) (txHash : String) :
    List Log → List (Delivery L) × Bool
  | [] => ([], true)
  | log :: logs =>
    match transferOf log with
    | none => tellLogs watched current blockNum txHash logs
    | some (sender, recipient) =>
      match watched.get? recipient, log.amount with
      | none, _ => tellLogs watched current blockNum txHash logs
      | some _, none => ([], false)
      | some _, some amount =>
        let event := tokenEvent current blockNum txHash sender recipient log amount
        let told := tellLogs watched current blockNum txHash logs
        (tell watched (fun address => recipient = address) event ++ told.1, told.2)

/-- `pollBlocks` (:376) from one `await` to the next. -/
def resume (client : EVMChainClient L) : Poll → Answer → Progress × List (Delivery L)
  | .blockNumber, .blockNumber current =>
    if current ≤ client.lastBlockNumber then (.ended, []) else (nextBlock current (client.lastBlockNumber + 1), [])
  | .block current blockNum, .block none => (nextBlock current (blockNum + 1), [])
  | .block current blockNum, .block (some block) => (nextTransaction current blockNum block.transactions, [])
  | .transaction current blockNum _ rest, .transaction none => (nextTransaction current blockNum rest, [])
  | .transaction current blockNum txHash rest, .transaction (some tx) =>
    (.waits (.receipt current blockNum txHash rest),
      tell client.watchedAddresses (involves tx) (nativeEvent client.chainId current blockNum tx))
  | .receipt current blockNum _ rest, .receipt none => (nextTransaction current blockNum rest, [])
  | .receipt current blockNum _ rest, .receipt (some receipt) =>
    match tellLogs client.watchedAddresses current blockNum receipt.hash receipt.logs with
    | (told, true) => (nextTransaction current blockNum rest, told)
    | (told, false) => (.ended, told)
  | _, .rejected => (.ended, [])
  | poll, _ => (.waits poll, [])

/-! ## What is told -/

/-- The head that a poll is on its way to. -/
def Poll.current? : Poll → Option Nat
  | .blockNumber => none
  | .block current _ | .transaction current .. | .receipt current .. => some current

def Progress.current? : Progress → Option Nat
  | .waits poll => poll.current?
  | .polled current => some current
  | .ended => none

@[simp] theorem nextBlock_current? (current blockNum : Nat) : (nextBlock current blockNum).current? = some current := by
  unfold nextBlock
  split <;> rfl

@[simp] theorem nextTransaction_current? (current blockNum : Nat) (rest : List String) :
    (nextTransaction current blockNum rest).current? = some current := by
  cases rest with
  | nil => exact nextBlock_current? current (blockNum + 1)
  | cons txHash rest => rfl

/-- A poll goes on to the head that it was on its way to, or sets out for one beyond the cursor. -/
theorem resume_current? (client : EVMChainClient L) (poll : Poll) (answer : Answer) {current : Nat}
    (h : (resume client poll answer).1.current? = some current) :
    poll.current? = some current ∨ poll = .blockNumber ∧ client.lastBlockNumber < current := by
  unfold resume at h
  split at h
  · split at h
    · cases h
    · rename_i hlt
      rw [nextBlock_current?] at h
      cases h
      exact .inr ⟨rfl, not_le.1 hlt⟩
  · exact .inl (by simpa [Poll.current?] using h)
  · exact .inl (by simpa [Poll.current?] using h)
  · exact .inl (by simpa [Poll.current?] using h)
  · exact .inl h
  · exact .inl (by simpa [Poll.current?] using h)
  · split at h
    · exact .inl (by simpa [Poll.current?] using h)
    · cases h
  · cases h
  · exact .inl h

/-- `listener` is registered for the address, which is in lower case. -/
def Listens (watched : Dict String (List L)) (address : String) (listener : L) : Prop :=
  ∃ listeners, (address, listeners) ∈ watched.rows ∧ listener ∈ listeners

instance [DecidableEq L] (watched : Dict String (List L)) (address : String) (listener : L) :
    Decidable (Listens watched address listener) :=
  decidable_of_iff (∃ entry ∈ watched.rows, entry.1 = address ∧ listener ∈ entry.2)
    ⟨fun ⟨entry, hentry, haddress, hmem⟩ => ⟨entry.2, haddress ▸ hentry, hmem⟩,
      fun ⟨listeners, hentry, hmem⟩ => ⟨(address, listeners), hentry, rfl, hmem⟩⟩

theorem mem_tell {watched : Dict String (List L)} {involved : String → Bool} {event : DepositEvent}
    {d : Delivery L} : d ∈ tell watched involved event ↔
      Listens watched d.address d.listener ∧ involved d.address = true ∧ d.event = event := by
  simp only [tell, List.mem_flatMap, List.mem_filter, List.mem_map, Listens]
  constructor
  · rintro ⟨⟨address, listeners⟩, ⟨hentry, hinvolved⟩, listener, hlistener, rfl⟩
    exact ⟨⟨listeners, hentry, hlistener⟩, hinvolved, rfl⟩
  · rintro ⟨⟨listeners, hentry, hlistener⟩, hinvolved, rfl⟩
    exact ⟨(d.address, listeners), ⟨hentry, hinvolved⟩, d.listener, hlistener, rfl⟩

section
variable {watched : Dict String (List L)} {current blockNum : Nat} {txHash : String} {logs : List Log}

/-- The logs that are read as transfers to `address` all decode. -/
def Readable (address : String) (logs : List Log) : Prop :=
  ∀ log ∈ logs, ∀ sender, transferOf log = some (sender, address) → log.amount ≠ none

/-- Each call is for a transfer log to the address, before which all of them could be read. -/
theorem tellLogs_sound {d : Delivery L} (h : d ∈ (tellLogs watched current blockNum txHash logs).1) :
    Listens watched d.address d.listener ∧ ∃ before log after sender amount, logs = before ++ log :: after ∧
      Readable d.address before ∧ transferOf log = some (sender, d.address) ∧ log.amount = some amount ∧
      d.event = tokenEvent current blockNum txHash sender d.address log amount := by
  induction logs with
  | nil => exact absurd h List.not_mem_nil
  | cons log logs ih =>
    have hrest (hread : ∀ sender, transferOf log = some (sender, d.address) → log.amount ≠ none)
        (h : d ∈ (tellLogs watched current blockNum txHash logs).1) :
        Listens watched d.address d.listener ∧ ∃ before log' after sender amount,
          log :: logs = before ++ log' :: after ∧ Readable d.address before ∧
          transferOf log' = some (sender, d.address) ∧ log'.amount = some amount ∧
          d.event = tokenEvent current blockNum txHash sender d.address log' amount := by
      obtain ⟨hlistens, before, log', after, sender, amount, rfl, hbefore, hevent⟩ := ih h
      refine ⟨hlistens, log :: before, log', after, sender, amount, rfl, ?_, hevent⟩
      intro log'' hlog''
      rcases List.mem_cons.1 hlog'' with rfl | hlog''
      · exact hread
      · exact hbefore log'' hlog''
    unfold tellLogs at h
    split at h
    · rename_i hnone
      exact hrest (fun sender hsome => by simp [hnone] at hsome) h
    · rename_i sender recipient htransfer
      split at h
      · rename_i hunwatched
        refine hrest (fun sender' hsame => ?_) h
        -- the listener's own address is watched
        obtain rfl : recipient = d.address := by
          rw [htransfer] at hsame
          injection hsame with hsame
          exact (Prod.ext_iff.1 hsame).2
        obtain ⟨⟨listeners, hentry, -⟩, -⟩ := ih h
        rw [Dict.get?_eq_some.2 hentry] at hunwatched
        cases hunwatched
      · exact absurd h List.not_mem_nil
      · rename_i amount hwatched hamount
        rcases List.mem_append.1 h with h | h
        · obtain ⟨hlistens, haddress, hevent⟩ := mem_tell.1 h
          obtain rfl : recipient = d.address := of_decide_eq_true haddress
          exact ⟨hlistens, [], log, logs, sender, amount, rfl, fun _ hlog => absurd hlog List.not_mem_nil, htransfer,
            hamount, hevent⟩
        · exact hrest (fun _ _ hnone => by simp [hnone] at hamount) h

/-- When every log could be read, every transfer log to a listener's address was told. -/
theorem tellLogs_complete (h : (tellLogs watched current blockNum txHash logs).2 = true) {log : Log}
    (hlog : log ∈ logs) {sender address : String} (htransfer : transferOf log = some (sender, address))
    {amount : Nat} (hamount : log.amount = some amount) {listener : L} (hlistens : Listens watched address listener) :
    ⟨address, listener, tokenEvent current blockNum txHash sender address log amount⟩ ∈
      (tellLogs watched current blockNum txHash logs).1 := by
  induction logs with
  | nil => exact absurd hlog List.not_mem_nil
  | cons log' logs ih =>
    obtain ⟨listeners, hentry, hlistener⟩ := hlistens
    rcases List.mem_cons.1 hlog with rfl | hlog
    · have hget : watched.get? address = some listeners := Dict.get?_eq_some.2 hentry
      simp only [tellLogs, htransfer, hget, hamount, List.mem_append]
      exact .inl (mem_tell.2 ⟨⟨listeners, hentry, hlistener⟩, by simp, rfl⟩)
    · unfold tellLogs at h ⊢
      split at h
      · exact ih h hlog
      · split at h
        · exact ih h hlog
        · cases h
        · exact List.mem_append_right _ (ih h hlog)

end

/-! ## The system -/

variable [DecidableEq L]

/-- `onDeposit` is added to the listeners of the address. -/
def addListener (address : String) (onDeposit : L) (watched : Dict String (List L)) : Dict String (List L) :=
  let listeners := (watched.get? address).getD []
  watched.put (address, if onDeposit ∈ listeners then listeners else listeners ++ [onDeposit])

/-- `onDeposit` is deleted from the listeners of the address, and with the last of them the address. -/
def deleteListener (address : String) (onDeposit : L) (watched : Dict String (List L)) : Dict String (List L) :=
  match watched.get? address with
  | none => watched
  | some listeners =>
    let listeners := listeners.filter fun listener => listener ≠ onDeposit
    if listeners = [] then watched.erase address else watched.put (address, listeners)

/-- `watchDeposits` (:326). -/
def watchDeposits (address : String) (onDeposit : L) (r : Runtime L) : Runtime L :=
  let normalizedAddress := address.toLower
  { r with
    watchedAddresses := addListener normalizedAddress onDeposit r.watchedAddresses
    starting := if r.pollTimer.isNone then r.starting + 1 else r.starting }

/-- `clearInterval` of the poll timer. -/
def clearTimer (r : Runtime L) : Runtime L :=
  { r with timers := r.timers.filter fun timer => r.pollTimer ≠ some timer, pollTimer := none }

/-- The function that `watchDeposits` returns (:341). -/
def unsubscribe (address : String) (onDeposit : L) (r : Runtime L) : Runtime L :=
  let normalizedAddress := address.toLower
  let r := { r with watchedAddresses := deleteListener normalizedAddress onDeposit r.watchedAddresses }
  if r.watchedAddresses.rows = [] then clearTimer r else r

/-- The rest of `startPolling` (:359); `none` is a rejection, which is ignored. -/
def started (answer : Option Nat) (r : Runtime L) : Runtime L :=
  if r.starting = 0 then r
  else
    { r with
      lastBlockNumber := answer.getD r.lastBlockNumber
      pollTimer := some r.nextTimer
      timers := r.timers ++ [r.nextTimer]
      nextTimer := r.nextTimer + 1
      starting := r.starting - 1 }

/-- An interval's callback is run. -/
def tick (timer : Nat) (r : Runtime L) : Runtime L :=
  if timer ∈ r.timers then { r with polls := r.polls ++ [.blockNumber] } else r

/-- The request that activation `i` of `pollBlocks` waits for is answered. -/
def answered (i : Nat) (answer : Answer) (r : Runtime L) : Runtime L :=
  match r.polls[i]? with
  | none => r
  | some poll =>
    let (progress, told) := resume r.toEVMChainClient poll answer
    let r := { r with delivered := r.delivered ++ told }
    match progress with
    | .waits poll => { r with polls := r.polls.set i poll }
    | .polled current => { r with polls := r.polls.eraseIdx i, lastBlockNumber := current }
    | .ended => { r with polls := r.polls.eraseIdx i }

/-- `destroy` (:468). -/
def destroy (r : Runtime L) : Runtime L := { clearTimer r with watchedAddresses := .empty }

inductive Step (L : Type) where
  | watchDeposits (address : String) (onDeposit : L)
  | unsubscribe (address : String) (onDeposit : L)
  | destroy
  | started (answer : Option Nat)
  | tick (timer : Nat)
  | answered (i : Nat) (answer : Answer)

def step (r : Runtime L) : Step L → Runtime L
  | .watchDeposits address onDeposit => watchDeposits address onDeposit r
  | .unsubscribe address onDeposit => unsubscribe address onDeposit r
  | .destroy => destroy r
  | .started answer => started answer r
  | .tick timer => tick timer r
  | .answered i answer => answered i answer r

/-- What an answer to activation `i` makes of the client. -/
inductive Resumed (r : Runtime L) (i : Nat) (answer : Answer) : Runtime L → Prop
  | idle (hi : r.polls[i]? = none) : Resumed r i answer r
  | waits {poll poll' : Poll} {told : List (Delivery L)} (hi : r.polls[i]? = some poll)
      (hresume : resume r.toEVMChainClient poll answer = (.waits poll', told)) :
      Resumed r i answer { r with polls := r.polls.set i poll', delivered := r.delivered ++ told }
  | polled {poll : Poll} {current : Nat} {told : List (Delivery L)} (hi : r.polls[i]? = some poll)
      (hresume : resume r.toEVMChainClient poll answer = (.polled current, told)) :
      Resumed r i answer
        { r with
          polls := r.polls.eraseIdx i, delivered := r.delivered ++ told, lastBlockNumber := current }
  | ended {poll : Poll} {told : List (Delivery L)} (hi : r.polls[i]? = some poll)
      (hresume : resume r.toEVMChainClient poll answer = (.ended, told)) :
      Resumed r i answer { r with polls := r.polls.eraseIdx i, delivered := r.delivered ++ told }

omit [DecidableEq L] in
theorem answered_resumed (i : Nat) (answer : Answer) (r : Runtime L) :
    Resumed r i answer (answered i answer r) := by
  unfold answered
  split
  · rename_i hi
    exact .idle hi
  · rename_i poll hi
    rcases hresume : resume r.toEVMChainClient poll answer with ⟨progress, told⟩
    cases progress with
    | waits poll' => exact .waits hi hresume
    | polled current => exact .polled hi hresume
    | ended => exact .ended hi hresume

/-- Only an answer to a poll calls listeners. -/
theorem step_delivered (r : Runtime L) {x : Step L} (hx : ∀ i answer, x ≠ .answered i answer) :
    (step r x).delivered = r.delivered := by
  cases x with
  | watchDeposits | destroy => rfl
  | unsubscribe =>
    simp only [step, unsubscribe]
    split <;> rfl
  | started =>
    simp only [step, started]
    split <;> rfl
  | tick =>
    simp only [step, tick]
    split <;> rfl
  | answered i answer => exact absurd rfl (hx i answer)

/-! ## Who listens -/

/-- No address is kept without a listener. -/
def Listened (watched : Dict String (List L)) : Prop := ∀ entry ∈ watched.rows, entry.2 ≠ []

section
variable {watched : Dict String (List L)} {address address' : String} {listener listener' : L}

omit [DecidableEq L] in
theorem mem_listeners : listener ∈ (watched.get? address).getD [] ↔ Listens watched address listener := by
  cases hget : watched.get? address with
  | none =>
    refine iff_of_false List.not_mem_nil ?_
    rintro ⟨listeners, hentry, -⟩
    rw [Dict.get?_eq_some.2 hentry] at hget
    cases hget
  | some listeners =>
    constructor
    · exact fun h => ⟨listeners, Dict.get?_eq_some.1 hget, h⟩
    · rintro ⟨listeners', hentry, h⟩
      rw [Dict.get?_eq_some.2 hentry] at hget
      cases hget
      exact h

theorem listens_addListener : Listens (addListener address listener watched) address' listener' ↔
    Listens watched address' listener' ∨ address' = address ∧ listener' = listener := by
  rw [← mem_listeners, ← mem_listeners, addListener, Dict.get?_put]
  by_cases haddress : address = address'
  · subst haddress
    rw [if_pos rfl, Option.getD_some]
    split
    · rename_i hin
      constructor
      · exact .inl
      · rintro (h | ⟨-, rfl⟩)
        · exact h
        · exact hin
    · simp
  · simp [haddress, Ne.symm haddress]

theorem listens_deleteListener : Listens (deleteListener address listener watched) address' listener' ↔
    Listens watched address' listener' ∧ ¬ (address' = address ∧ listener' = listener) := by
  rw [← mem_listeners, ← mem_listeners]
  by_cases haddress : address = address'
  · subst haddress
    unfold deleteListener
    cases hget : watched.get? address with
    | none => simp [hget]
    | some listeners =>
      have hleft : listener' ∈ listeners.filter (fun x => x ≠ listener) ↔
          listener' ∈ listeners ∧ ¬ listener' = listener := by simp
      dsimp only
      split
      · rename_i hempty
        rw [hempty] at hleft
        simpa [Dict.get?_erase] using hleft
      · simp [Dict.get?_put]
  · have hother : (deleteListener address listener watched).get? address' = watched.get? address' := by
      unfold deleteListener
      split
      · rfl
      · dsimp only
        split
        · rw [Dict.get?_erase, if_neg haddress]
        · rw [Dict.get?_put, if_neg haddress]
    simp [hother, Ne.symm haddress]

theorem Listened.add (h : Listened watched) : Listened (addListener address listener watched) := by
  intro entry hentry
  rcases Table.mem_put.1 hentry with rfl | ⟨hentry, -⟩
  · dsimp only
    split
    · rename_i hin
      exact List.ne_nil_of_mem hin
    · simp
  · exact h entry hentry

theorem Listened.delete (h : Listened watched) : Listened (deleteListener address listener watched) := by
  unfold deleteListener
  split
  · exact h
  · dsimp only
    split
    · exact fun entry hentry => h entry (Table.mem_erase.1 hentry).1
    · rename_i hne
      intro entry hentry
      rcases Table.mem_put.1 hentry with rfl | ⟨hentry, -⟩
      · exact hne
      · exact h entry hentry

end

/-- A client that has watched nothing yet. -/
def fresh (L : Type) (chainId : String) : Runtime L := { chainId }

end NexoraGateway.Evm
