import Mathlib
import NexoraGateway.Evm.Cursor

/-!
# Which calls are for credits (evm-chain-client.ts:376-464)

A listener is told of every transaction that has its address at either end, whatever came of it, and of every log
that has `TRANSFER_TOPIC` first and its address third. `deposits_are_credits` says on which chains each call is
for a credit all the same.

* `Credits` — what an address is credited by a transaction.
* `Clean` — the chains.
* `step_credited` — what one step tells.
* `reachable_transaction` — each transaction of each block comes up in some run.
-/
namespace NexoraGateway.Evm

open Async Store

variable (chain : Chain)

/-- What a node answers is what the chain has, or `null`. -/
def Genuine : Poll → Answer → Prop
  | .block _ blockNum, .block block => ∀ b ∈ block, b = ⟨(chain blockNum).hashes⟩
  | .transaction _ blockNum txHash _, .transaction tx =>
    ∀ t ∈ tx, ∃ entry, (chain blockNum).find? txHash = some entry ∧ entry.1 = t
  | .receipt _ blockNum txHash _, .receipt receipt =>
    ∀ r ∈ receipt, ∃ entry, (chain blockNum).find? txHash = some entry ∧ entry.2 = r
  | _, _ => True

/-- An address of `watched` is watched, or the node answers. -/
def Watches {L : Type} (watched : Set String) (r : Runtime L) : Step L → Prop
  | .watchDeposits address _ => address ∈ watched
  | .answered i answer => ∀ poll ∈ r.polls[i]?, Genuine chain poll answer
  | _ => True

/-- What `transferOf` reads a log as, if its topics are those of ERC-20 and no more. -/
def Erc20 (address : String) (log : Log) : Prop :=
  ∃ sender recipient, log.topics = [transferTopic, sender, recipient] ∧ (topicAddress recipient).toLower = address

/-- A transaction that succeeded credits an address with a positive amount: of ether that it sends there, or of a
token whose contract has logged that. -/
inductive Credits (chainId : String) (entry : Transaction × Receipt) (address : String) : AssetInfo → Nat → Prop
  | ether (hsucceeded : entry.2.succeeded = true) (hpays : PaysNative address entry) (hpos : 0 < entry.1.value) :
      Credits chainId entry address (nativeAsset chainId) entry.1.value
  | token (hsucceeded : entry.2.succeeded = true) {log : Log} (hlog : log ∈ entry.2.logs) (herc20 : Erc20 address log)
      {amount : Nat} (hamount : log.amount = some amount) (hpos : 0 < amount) :
      Credits chainId entry address ⟨log.address, "UNKNOWN", 18, "Unknown Token"⟩ amount

/-- The event of a call is that of a credit of the address that is listened for. -/
def Credited {L : Type} (chainId : String) (d : Delivery L) : Prop :=
  ∃ entry ∈ (chain d.event.blockNumber).rows, entry.1.hash = d.event.txHash ∧ d.event.to.toLower = d.address ∧
    ∃ amount, d.event.amount = toString amount ∧ Credits chainId entry d.address d.event.asset amount

/-- Whatever involves one of the addresses credits it: a transaction that has it at either end, and each log that
is read as a transfer to it. -/
def Clean (watched : Set String) : Prop :=
  ∀ n, 0 < n → ∀ entry ∈ (chain n).rows, ∀ address ∈ String.toLower '' watched,
    (involves entry.1 address = true → PaysNative address entry ∧ 0 < entry.1.value ∧ entry.2.succeeded = true) ∧
    ∀ before log after sender amount, entry.2.logs = before ++ log :: after → Readable address before →
      transferOf log = some (sender, address) → log.amount = some amount →
        entry.2.succeeded = true ∧ 0 < amount ∧
          ∃ log' ∈ entry.2.logs, Erc20 address log' ∧ log'.address = log.address ∧ log'.amount = some amount

/-! ## What a step tells -/

theorem toLower_toLower (s : String) : s.toLower.toLower = s.toLower := by
  change (s.map Char.toLower).map Char.toLower = s.map Char.toLower
  rw [String.map_map]
  congr 1
  funext c
  exact Char.toLower_toLower_eq_toLower c

variable {chain : Chain} {watched : Set String} {L : Type}

theorem native_credited {chainId : String} {current n : Nat} {entry : Transaction × Receipt}
    (hentry : entry ∈ (chain n).rows) {d : Delivery L} (hevent : d.event = nativeEvent chainId current n entry.1)
    (hpays : PaysNative d.address entry) (hpos : 0 < entry.1.value) (hsucceeded : entry.2.succeeded = true) :
    Credited chain chainId d := by
  unfold Credited
  rw [hevent]
  refine ⟨entry, hentry, rfl, ?_, entry.1.value, rfl, .ether hsucceeded hpays hpos⟩
  -- the event has the recipient as the transaction writes it
  unfold PaysNative at hpays
  obtain ⟨recipient, hto, hrecipient⟩ := Option.map_eq_some_iff.1 hpays
  simp only [nativeEvent, hto, Option.getD_some]
  exact hrecipient

theorem token_credited {chainId : String} {current n : Nat} {entry : Transaction × Receipt}
    (hentry : entry ∈ (chain n).rows) {d : Delivery L} {sender : String} {log log' : Log} {amount : Nat}
    (hevent : d.event = tokenEvent current n entry.2.hash sender d.address log amount)
    (hlower : d.address.toLower = d.address) (hsucceeded : entry.2.succeeded = true) (hpos : 0 < amount)
    (hlog : log' ∈ entry.2.logs) (herc20 : Erc20 d.address log') (hcontract : log'.address = log.address)
    (hamount : log'.amount = some amount) : Credited chain chainId d := by
  unfold Credited
  rw [hevent]
  refine ⟨entry, hentry, ((chain n).receipts entry hentry).symm, hlower, amount, rfl, ?_⟩
  rw [tokenEvent, ← hcontract]
  exact .token hsucceeded hlog herc20 hamount hpos

theorem resume_receipt (client : EVMChainClient L) (current blockNum : Nat) (txHash : String) (rest : List String)
    (receipt : Receipt) : (resume client (.receipt current blockNum txHash rest) (.receipt (some receipt))).2 =
      (tellLogs client.watchedAddresses current blockNum receipt.hash receipt.logs).1 := by
  simp only [resume]
  split <;>
  · rename_i hlogs
    rw [hlogs]

/-- What a poll tells on a clean chain. -/
theorem resume_credited (hclean : Clean chain watched) {client : EVMChainClient L}
    (hwatched : ∀ address listener, Listens client.watchedAddresses address listener →
      address ∈ String.toLower '' watched)
    {poll : Poll} (hrange : poll.InRange) {answer : Answer} (hgenuine : Genuine chain poll answer) {d : Delivery L}
    (hd : d ∈ (resume client poll answer).2) : Credited chain client.chainId d := by
  have hnone {P : Prop} (h : d ∈ ([] : List (Delivery L))) : P := absurd h List.not_mem_nil
  unfold resume at hd
  split at hd
  · split at hd <;> exact hnone hd
  · exact hnone hd
  · exact hnone hd
  · exact hnone hd
  · rename_i current blockNum txHash rest tx
    obtain ⟨entry, hfind, rfl⟩ := hgenuine tx rfl
    obtain ⟨hentry, -⟩ := Table.find?_eq_some.1 hfind
    obtain ⟨hlistens, hinvolves, hevent⟩ := mem_tell.1 hd
    obtain ⟨hpays, hpos, hsucceeded⟩ :=
      (hclean blockNum hrange.1 entry hentry d.address (hwatched _ _ hlistens)).1 hinvolves
    exact native_credited hentry hevent hpays hpos hsucceeded
  · exact hnone hd
  · rename_i current blockNum txHash rest receipt
    obtain ⟨entry, hfind, rfl⟩ := hgenuine receipt rfl
    obtain ⟨hentry, -⟩ := Table.find?_eq_some.1 hfind
    change d ∈ (resume client (.receipt current blockNum txHash rest) (.receipt (some entry.2))).2 at hd
    rw [resume_receipt] at hd
    obtain ⟨hlistens, before, log, after, sender, amount, hlogs, hbefore, htransfer, hamount, hevent⟩ :=
      tellLogs_sound hd
    have haddress := hwatched _ _ hlistens
    obtain ⟨hsucceeded, hpos, log', hlog', herc20, hcontract, hamount'⟩ :=
      (hclean blockNum hrange.1 entry hentry d.address haddress).2 before log after sender amount hlogs hbefore
        htransfer hamount
    obtain ⟨w, -, hw⟩ := haddress
    have hlower : d.address.toLower = d.address := by rw [← hw, toLower_toLower]
    exact token_credited hentry hevent hlower hsucceeded hpos hlog' herc20 hcontract hamount'
  · exact hnone hd
  · exact hnone hd

/-- What has been told is credits, and only addresses of `watched` are watched. -/
structure AllCredited (chain : Chain) (watched : Set String) (chainId : String) (r : Runtime L) : Prop where
  id : r.chainId = chainId
  watched : ∀ address listener, Listens r.watchedAddresses address listener → address ∈ String.toLower '' watched
  polls : ∀ poll ∈ r.polls, poll.InRange
  delivered : ∀ d ∈ r.delivered, Credited chain chainId d

theorem answered_delivered (r : Runtime L) (i : Nat) (answer : Answer) :
    (answered i answer r).delivered = r.delivered ∨ ∃ poll ∈ r.polls[i]?,
      (answered i answer r).delivered = r.delivered ++ (resume r.toEVMChainClient poll answer).2 := by
  have hresumed := answered_resumed i answer r
  generalize answered i answer r = r' at hresumed
  cases hresumed with
  | idle => exact .inl rfl
  | waits hi hresume | polled hi hresume | ended hi hresume => exact .inr ⟨_, hi, by rw [hresume]⟩

theorem told_delivered {r : Runtime L} {i : Nat} {poll : Poll} (hi : r.polls[i]? = some poll) {answer : Answer}
    {d : Delivery L} (hd : d ∈ (resume r.toEVMChainClient poll answer).2) : d ∈ (answered i answer r).delivered := by
  have hresumed := answered_resumed i answer r
  generalize answered i answer r = r' at hresumed
  cases hresumed with
  | idle hidle =>
    rw [hi] at hidle
    cases hidle
  | waits hi' hresume | polled hi' hresume | ended hi' hresume =>
    obtain rfl := Option.some.inj (hi.symm.trans hi')
    rw [hresume] at hd
    exact List.mem_append_right _ hd

variable [DecidableEq L]

theorem step_listens {r : Runtime L} {x : Step L} {address : String} {listener : L}
    (h : Listens (step r x).watchedAddresses address listener) :
    Listens r.watchedAddresses address listener ∨ ∃ w, x = .watchDeposits w listener ∧ address = w.toLower := by
  cases x with
  | watchDeposits w onDeposit =>
    rcases listens_addListener.1 h with h | ⟨haddress, rfl⟩
    · exact .inl h
    · exact .inr ⟨w, rfl, haddress⟩
  | unsubscribe w onDeposit =>
    simp only [step, unsubscribe] at h
    split at h <;> exact .inl (listens_deleteListener.1 h).1
  | destroy =>
    obtain ⟨listeners, hentry, -⟩ := h
    exact absurd hentry List.not_mem_nil
  | started =>
    simp only [step, started] at h
    split at h <;> exact .inl h
  | tick =>
    simp only [step, tick] at h
    split at h <;> exact .inl h
  | answered i answer =>
    have hresumed := answered_resumed i answer r
    change Listens (answered i answer r).watchedAddresses address listener at h
    generalize answered i answer r = r' at hresumed h
    cases hresumed <;> exact .inl h

/-- **One step** on a clean chain. -/
theorem step_credited (hclean : Clean chain watched) {chainId : String} {r : Runtime L}
    (h : AllCredited chain watched chainId r) {x : Step L} (hx : Watches chain watched r x) :
    AllCredited chain watched chainId (step r x) := by
  refine ⟨(step_chainId r x).trans h.id, fun address listener hlistens => ?_, step_inRange h.polls x, ?_⟩
  · rcases step_listens hlistens with hlistens | ⟨w, rfl, rfl⟩
    · exact h.watched address listener hlistens
    · exact ⟨w, hx, rfl⟩
  · intro d hd
    cases x with
    | answered i answer =>
      rcases answered_delivered r i answer with hsame | ⟨poll, hi, hmore⟩
      · exact h.delivered d (hsame ▸ hd)
      · rcases List.mem_append.1 (hmore ▸ hd) with hd | hd
        · exact h.delivered d hd
        · rw [← h.id]
          exact resume_credited hclean h.watched (h.polls poll (List.mem_of_getElem? hi)) (hx poll hi) hd
    | watchDeposits | destroy | unsubscribe | started | tick =>
      rw [step_delivered] at hd
      · exact h.delivered d hd
      · exact fun _ _ => nofun

/-! ## What some run tells -/

section
variable [Inhabited L]

/-- The client that watches one address, has started at block `n`, and has one poll under way. -/
def polling (chainId address : String) (n : Nat) (poll : Poll) : Runtime L where
  chainId := chainId
  watchedAddresses := addListener address.toLower default .empty
  pollTimer := some 0
  lastBlockNumber := n
  timers := [0]
  nextTimer := 1
  polls := [poll]

variable {chainId address : String} {n : Nat}

/-- An answer that tells nothing. -/
theorem reachable_waits {r : Runtime L} {poll poll' : Poll} (answer : Answer)
    (h : Runs.Reachable step (Watches chain watched) r (polling chainId address n poll))
    (hgenuine : Genuine chain poll answer)
    (hresume : resume (polling (L := L) chainId address n poll).toEVMChainClient poll answer = (.waits poll', [])) :
    Runs.Reachable step (Watches chain watched) r (polling chainId address n poll') := by
  have hstep : step (polling chainId address n poll : Runtime L) (.answered 0 answer) =
      polling chainId address n poll' := by
    change answered 0 answer (polling chainId address n poll) = _
    simp only [answered, polling, List.getElem?_cons_zero] at hresume ⊢
    rw [hresume]
    rfl
  rw [← hstep]
  refine h.snoc fun poll'' hpoll => ?_
  cases hpoll
  exact hgenuine

theorem reachable_skip {txHash : String} {rest : List String} {r : Runtime L} (before : List String)
    {hash : String} {hashes : List String} (hhashes : hash :: hashes = before ++ txHash :: rest)
    (h : Runs.Reachable step (Watches chain watched) r
      (polling chainId address n (.transaction (n + 1) (n + 1) hash hashes))) :
    Runs.Reachable step (Watches chain watched) r
      (polling chainId address n (.transaction (n + 1) (n + 1) txHash rest)) := by
  induction before generalizing hash hashes with
  | nil =>
    cases hhashes
    exact h
  | cons skipped before ih =>
    injection hhashes with _ hhashes
    cases hashes with
    | nil => simp at hhashes
    | cons hash' hashes =>
      -- the node has not got the transaction yet
      exact ih hhashes (reachable_waits (.transaction none) h nofun rfl)

/-- Each transaction of each block comes up in some run. -/
theorem reachable_transaction (chainId : String) (haddress : address ∈ watched) {entry : Transaction × Receipt}
    (hentry : entry ∈ (chain (n + 1)).rows) : ∃ rest, Runs.Reachable step (Watches chain watched) (fresh L chainId)
      (polling chainId address n (.transaction (n + 1) (n + 1) entry.1.hash rest)) := by
  obtain ⟨before, rest, hhashes⟩ :=
    List.append_of_mem (show entry.1.hash ∈ (chain (n + 1)).hashes from List.mem_map_of_mem hentry)
  refine ⟨rest, ?_⟩
  have hticked : Runs.Reachable step (Watches chain watched) (fresh L chainId)
      (polling chainId address n .blockNumber) :=
    (((Runs.Reachable.refl _).snoc (x := Step.watchDeposits address default) haddress).snoc
      (x := Step.started (some n)) trivial).snoc (x := Step.tick 0) trivial
  have hhead : resume (polling (L := L) chainId address n .blockNumber).toEVMChainClient .blockNumber
      (.blockNumber (n + 1)) = (.waits (.block (n + 1) (n + 1)), []) := by
    simp [resume, polling, nextBlock]
  have hblock := reachable_waits (.blockNumber (n + 1)) hticked trivial hhead
  cases hall : (chain (n + 1)).hashes with
  | nil => simp [hall] at hhashes
  | cons hash hashes =>
    refine reachable_skip before (hall ▸ hhashes) ?_
    refine reachable_waits (.block (some ⟨(chain (n + 1)).hashes⟩)) hblock ?_ (by rw [hall]; rfl)
    rintro b ⟨⟩
    rfl

/-- A transfer log to the one watched address is told, if those before it could be read. -/
theorem tellLogs_reaches {current blockNum : Nat} {txHash : String} {before after : List Log} {log : Log}
    (hbefore : Readable address.toLower before) {sender : String}
    (htransfer : transferOf log = some (sender, address.toLower)) {amount : Nat} (hamount : log.amount = some amount) :
    ⟨address.toLower, default, tokenEvent current blockNum txHash sender address.toLower log amount⟩ ∈
      (tellLogs (addListener address.toLower (default : L) .empty) current blockNum txHash
        (before ++ log :: after)).1 := by
  have hget (recipient : String) : (addListener address.toLower (default : L) .empty).get? recipient =
      if address.toLower = recipient then some [default] else none := by
    have hnew : (Dict.get? .empty address.toLower).getD [] = ([] : List L) := rfl
    simp only [Dict.get?, addListener, Table.find?_put] at hnew ⊢
    simp only [hnew, List.not_mem_nil, if_false, List.nil_append]
    split <;> rfl
  induction before with
  | nil =>
    simp only [List.nil_append, tellLogs, htransfer, hget, if_pos, hamount, List.mem_append]
    exact .inl (mem_tell.2 ⟨listens_addListener.2 (.inr ⟨rfl, rfl⟩), decide_eq_true rfl, rfl⟩)
  | cons log' before ih =>
    have hread := ih fun log'' hlog'' => hbefore log'' (List.mem_cons_of_mem _ hlog'')
    rw [List.cons_append, tellLogs]
    split
    · exact hread
    · rename_i sender' recipient hother
      rw [hget]
      split
      · exact hread
      · rename_i hwatched hnone
        split at hwatched
        · rename_i haddress
          exact absurd hnone (hbefore log' List.mem_cons_self sender' (by rw [hother, haddress]))
        · cases hwatched
      · exact List.mem_append_right _ hread

/-- A transaction that involves the address is told in some run. -/
theorem reachable_native (chainId : String) (haddress : address ∈ watched) {entry : Transaction × Receipt}
    (hentry : entry ∈ (chain (n + 1)).rows) (hinvolves : involves entry.1 address.toLower = true) :
    ∃ r, Runs.Reachable step (Watches chain watched) (fresh L chainId) r ∧
      ⟨address.toLower, default, nativeEvent chainId (n + 1) (n + 1) entry.1⟩ ∈ r.delivered := by
  obtain ⟨rest, hreach⟩ := reachable_transaction (L := L) chainId haddress hentry
  refine ⟨_, hreach.snoc (x := .answered 0 (.transaction (some entry.1))) ?_, ?_⟩
  · intro poll hpoll
    cases hpoll
    intro tx htx
    cases htx
    exact ⟨entry, Table.find?_eq_some.2 ⟨hentry, rfl⟩, rfl⟩
  · refine told_delivered (i := 0) rfl ?_
    exact mem_tell.2 ⟨listens_addListener.2 (.inr ⟨rfl, rfl⟩), hinvolves, rfl⟩

/-- A log that is read as a transfer to the address is told in some run. -/
theorem reachable_token (chainId : String) (haddress : address ∈ watched) {entry : Transaction × Receipt}
    (hentry : entry ∈ (chain (n + 1)).rows) {before after : List Log} {log : Log}
    (hlogs : entry.2.logs = before ++ log :: after) (hbefore : Readable address.toLower before) {sender : String}
    (htransfer : transferOf log = some (sender, address.toLower)) {amount : Nat} (hamount : log.amount = some amount) :
    ∃ r, Runs.Reachable step (Watches chain watched) (fresh L chainId) r ∧
      ⟨address.toLower, default, tokenEvent (n + 1) (n + 1) entry.2.hash sender address.toLower log amount⟩ ∈
        r.delivered := by
  obtain ⟨rest, hreach⟩ := reachable_transaction (L := L) chainId haddress hentry
  have hfind : (chain (n + 1)).find? entry.1.hash = some entry := Table.find?_eq_some.2 ⟨hentry, rfl⟩
  have hreceipt := (hreach.snoc (x := .answered 0 (.transaction (some entry.1))) (by
    intro poll hpoll
    cases hpoll
    intro tx htx
    cases htx
    exact ⟨entry, hfind, rfl⟩)).snoc (x := .answered 0 (.receipt (some entry.2))) (by
      intro poll hpoll
      cases hpoll
      intro receipt hreceipt
      cases hreceipt
      exact ⟨entry, hfind, rfl⟩)
  refine ⟨_, hreceipt, told_delivered (i := 0) rfl ?_⟩
  rw [resume_receipt, hlogs]
  exact tellLogs_reaches hbefore htransfer hamount

end

/-! ## Runs -/

theorem row_eq {block : ChainBlock} {entry entry' : Transaction × Receipt} (h : entry ∈ block.rows)
    (h' : entry' ∈ block.rows) (hhash : entry.1.hash = entry'.1.hash) : entry = entry' :=
  Table.eq_of_key h h' hhash

theorem nativeAsset_ne (chainId address : String) :
    nativeAsset chainId ≠ ⟨address, "UNKNOWN", 18, "Unknown Token"⟩ := by
  unfold nativeAsset native
  split <;> simp

theorem Credits.of_native {chainId : String} {entry : Transaction × Receipt} {address : String} {amount : Nat}
    (h : Credits chainId entry address (nativeAsset chainId) amount) :
    PaysNative address entry ∧ 0 < entry.1.value ∧ entry.2.succeeded = true := by
  generalize hasset : nativeAsset chainId = asset at h
  cases h with
  | ether hsucceeded hpays hpos => exact ⟨hpays, hpos, hsucceeded⟩
  | token => exact absurd hasset (nativeAsset_ne chainId _)

theorem Credits.of_token {chainId : String} {entry : Transaction × Receipt} {address contract : String} {amount : Nat}
    (h : Credits chainId entry address ⟨contract, "UNKNOWN", 18, "Unknown Token"⟩ amount) :
    entry.2.succeeded = true ∧ 0 < amount ∧
      ∃ log ∈ entry.2.logs, Erc20 address log ∧ log.address = contract ∧ log.amount = some amount := by
  generalize hasset : (⟨contract, "UNKNOWN", 18, "Unknown Token"⟩ : AssetInfo) = asset at h
  cases h with
  | ether => exact absurd hasset.symm (nativeAsset_ne chainId contract)
  | @token hsucceeded log hlog herc20 amount hamount hpos =>
    injection hasset with hcontract
    exact ⟨hsucceeded, hpos, log, hlog, herc20, hcontract.symm, hamount⟩

/-- **Which calls are for credits**: on one chain and for one set of addresses, each call of a listener, in every
run that watches them, is for a credit of its address, if and only if whatever involves one of the addresses
credits it. -/
theorem deposits_are_credits [Inhabited L] (chain : Chain) (chainId : String) (watched : Set String) :
    (∀ r : Runtime L, Runs.Reachable step (Watches chain watched) (fresh L chainId) r →
      ∀ d ∈ r.delivered, Credited chain chainId d) ↔ Clean chain watched := by
  constructor
  · rintro h n hn entry hentry _ ⟨address, haddress, rfl⟩
    obtain ⟨n, rfl⟩ : ∃ m, n = m + 1 := ⟨n - 1, by omega⟩
    constructor
    · intro hinvolves
      obtain ⟨r, hreach, hd⟩ := reachable_native (L := L) chainId haddress hentry hinvolves
      obtain ⟨entry', hentry', hhash, -, amount, hamount, hcredits⟩ := h r hreach _ hd
      obtain rfl := row_eq hentry' hentry hhash
      exact hcredits.of_native
    · intro before log after sender amount hlogs hbefore htransfer hamount
      obtain ⟨r, hreach, hd⟩ :=
        reachable_token (L := L) chainId haddress hentry hlogs hbefore htransfer hamount
      obtain ⟨entry', hentry', hhash, -, amount', hsame, hcredits⟩ := h r hreach _ hd
      obtain rfl := row_eq hentry' hentry (hhash.trans ((chain (n + 1)).receipts entry hentry))
      obtain rfl := Nat.repr_injective hsame
      exact hcredits.of_token
  · intro hclean r hreach
    have hinv := hreach.inv (I := AllCredited chain watched chainId) (fun r x hr hx => step_credited hclean hr hx)
      ⟨rfl, fun address listener ⟨_, hentry, _⟩ => absurd hentry List.not_mem_nil,
        fun poll hpoll => absurd hpoll List.not_mem_nil, fun d hd => absurd hd List.not_mem_nil⟩
    exact hinv.delivered

theorem receipt_of_spent :
    (⟨"0xa", true, []⟩ : Receipt).hash = (⟨"0xa", "0xA", some "0xC", 5⟩ : Transaction).hash := rfl

/-- One block, in which the address sends ether. -/
def spent : Chain := fun n =>
  if n = 11 then .single ⟨"0xa", "0xA", some "0xC", 5⟩ ⟨"0xa", true, []⟩ receipt_of_spent else .empty

/-- The run that is told of it. -/
def spending : List (Step Nat) :=
  [.watchDeposits "0xA" 0, .started (some 10), .tick 0, .answered 0 (.blockNumber 11),
    .answered 0 (.block (some ⟨["0xa"]⟩)), .answered 0 (.transaction (some ⟨"0xa", "0xA", some "0xC", 5⟩))]

/-- The ether that the watched address sends to another is told as its deposit. -/
theorem outgoing_told :
    Runs.Along step (Watches spent {"0xA"}) (fresh Nat "1") spending ∧
    (Runs.exec step (fresh Nat "1") spending).delivered =
      [⟨"0xa", 0, ⟨"0xa", 11, "0xA", "0xC", native "ETH" "Ether", "5", 1⟩⟩] ∧
    ∀ d ∈ (Runs.exec step (fresh Nat "1") spending).delivered, ¬ Credited spent "1" d := by
  have hdelivered : (Runs.exec step (fresh Nat "1") spending).delivered =
      [⟨"0xa", 0, ⟨"0xa", 11, "0xA", "0xC", native "ETH" "Ether", "5", 1⟩⟩] := by decide +kernel
  refine ⟨⟨rfl, trivial, trivial, ?_, ?_, ?_, trivial⟩, hdelivered, ?_⟩
  · rintro poll ⟨⟩
    trivial
  · rintro poll ⟨⟩ block ⟨⟩
    rfl
  · rintro poll ⟨⟩ tx ⟨⟩
    exact ⟨_, rfl, rfl⟩
  · intro d hd
    rw [hdelivered, List.mem_singleton] at hd
    subst hd
    rintro ⟨entry, hentry, -, hto, -⟩
    exact absurd hto (by decide +kernel)

end NexoraGateway.Evm
