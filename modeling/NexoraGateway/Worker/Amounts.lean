import NexoraGateway.Store.Sorting
import NexoraGateway.Worker.Durable

/-!
# What a transfer is recorded as (evm-chain-client.ts:384-446, deposit-watcher.ts:72, :193)

A client tells its listeners of a payment as `Payment.event` says: an amount in base units, an `AssetInfo` to
convert it with, and a recipient. The asset of a token is never asked for; the recipient of ether is spelled as the
node spells it, and that of a token in lower case.

* `resume_payment` — what is told is the event of a payment.
* `recorded_in_units_iff` — when the job has the amount in the units of the asset.
* `attributed_iff` — when the intent that awaits the payment is found.
-/
namespace NexoraGateway.Worker

open Async
open Intent (PaymentIntent)

/-! ## What is told of a payment -/

/-- What a payment is made in: the native asset of the chain, or the token of a contract. -/
inductive Asset where
  | native
  | token (contract : String)

def asset : Evm.Payment → Asset
  | .ether => .native
  | .token log _ _ => .token log.address

/-- The base units that a payment moves. -/
def value (entry : Evm.Transaction × Evm.Receipt) : Evm.Payment → Nat
  | .ether => entry.1.value
  | .token _ _ amount => amount

/-- The payment is read from the answer: the ether of a transaction, or a log that `transferOf` reads as a transfer to
the address, with the amount that its data decodes to. -/
def Reads (answer : Evm.Answer) (address : String) (entry : Evm.Transaction × Evm.Receipt) : Evm.Payment → Prop
  | .ether => answer = .transaction (some entry.1)
  | .token log sender amount => answer = .receipt (some entry.2) ∧ log ∈ entry.2.logs ∧
      Evm.transferOf log = some (sender, address) ∧ log.amount = some amount

/-- What a listener is told is the event of a payment that was read from the answer. -/
theorem resume_payment {L : Type} {client : Evm.EVMChainClient L} {poll : Evm.Poll} {answer : Evm.Answer}
    {d : Evm.Delivery L} (hd : d ∈ (Evm.resume client poll answer).2) : ∃ current n entry payment,
      Reads answer d.address entry payment ∧
      d.event = Evm.Payment.event client.chainId current n entry d.address payment := by
  unfold Evm.resume at hd
  split at hd
  · split at hd <;> exact absurd hd List.not_mem_nil
  · exact absurd hd List.not_mem_nil
  · exact absurd hd List.not_mem_nil
  · exact absurd hd List.not_mem_nil
  · rename_i current n txHash rest tx
    obtain ⟨-, -, hevent⟩ := Evm.mem_tell.1 hd
    exact ⟨current, n, (tx, ⟨tx.hash, true, []⟩), .ether, rfl, hevent⟩
  · exact absurd hd List.not_mem_nil
  · rename_i current n txHash rest receipt
    have htold : d ∈ (Evm.tellLogs client.watchedAddresses current n receipt.hash receipt.logs).1 := by
      split at hd
      · rename_i told heq
        rw [heq]
        exact hd
      · rename_i told heq
        rw [heq]
        exact hd
    obtain ⟨-, before, log, after, sender, amount, hlogs, -, htransfer, hamount, hevent⟩ := Evm.tellLogs_sound htold
    have hlog : log ∈ receipt.logs := by
      rw [hlogs]
      exact List.mem_append_right before List.mem_cons_self
    exact ⟨current, n, (⟨receipt.hash, "", none, 0⟩, receipt), .token log sender amount,
      ⟨rfl, hlog, htransfer, hamount⟩, hevent⟩
  · exact absurd hd List.not_mem_nil
  · exact absurd hd List.not_mem_nil

/-! ## The amount of the job -/

/-- What an asset's contract reports, or what the native asset is. -/
structure Token where
  decimals : Nat
  symbol : String

/-- The symbol that the client gives an asset. -/
def label (chainId : String) : Asset → String
  | .native => (Evm.nativeAsset chainId).symbol
  | .token _ => "UNKNOWN"

/-- The payload of the job that a program enqueues first. -/
def enqueuedPayload : Task Unit → Option Payload
  | .call (.enqueue _ _ payload _ _ _) _ => some payload
  | _ => none

variable (options : Jobs.JobQueueOptions)

/-- `onDeposit` records `amount` of `symbol` for the intent that it finds: they are in the payload of the job, and
the job's handler calls `recordDeposit` with them. -/
def Records (chainId : String) (event : DepositEvent) (intent : PaymentIntent) (amount : ℚ) (symbol : String) : Prop :=
  ∃ payload, enqueuedPayload (enqueueDeposit options chainId event (some intent)) = some payload ∧
    payload.get? "amount" = some (.num amount) ∧ payload.get? "sourceAsset" = some (.str symbol) ∧
    ∀ job : Jobs.JobRecord, job.payload = payload → intent.id ≠ "" → event.txHash ≠ "" → chainId ≠ "" →
      handleDepositRecord job =
        (service (Intent.recordDeposit intent.id event.txHash amount chainId symbol)).bind fun _ => .ret ()

theorem Records.unique {chainId : String} {event : DepositEvent} {intent : PaymentIntent} {amount amount' : ℚ}
    {symbol symbol' : String} (h : Records options chainId event intent amount symbol)
    (h' : Records options chainId event intent amount' symbol') : amount = amount' ∧ symbol = symbol' := by
  obtain ⟨payload, hpayload, hamount, hsymbol, -⟩ := h
  obtain ⟨payload', hpayload', hamount', hsymbol', -⟩ := h'
  obtain rfl : payload = payload' := Option.some.inj (hpayload.symm.trans hpayload')
  exact ⟨Json.num.inj (Option.some.inj (hamount.symm.trans hamount')),
    Json.str.inj (Option.some.inj (hsymbol.symm.trans hsymbol'))⟩

theorem requireString_eq {payload : Payload} {key : String} (value : String) (h : payload.get? key = some (.str value))
    (hne : value ≠ "") : requireString payload key = .ok value := by
  simp only [requireString, h, if_neg hne]

/-- What is recorded of an event: its amount by its own decimals, and its own symbol. -/
theorem records_event {chainId : String} {event : DepositEvent} (intent : PaymentIntent) {value : Nat}
    (hamount : event.amount = toString value) (hsymbol : event.asset.symbol ≠ "") :
    Records options chainId event intent (value / 10 ^ event.asset.decimals) event.asset.symbol := by
  have hnormal : normalizeAmount event.amount event.asset.decimals = some (value / 10 ^ event.asset.decimals : ℚ) := by
    rw [normalizeAmount, hamount, Text.Numerals.number?_toString]
    rfl
  refine ⟨_, rfl, ?_, rfl, fun job hpayload hintent htx hchain => ?_⟩
  · rw [hnormal]
    rfl
  · have hget : job.payload.get? "amount" = some (.num (value / 10 ^ event.asset.decimals)) := by
      rw [hpayload, hnormal]
      rfl
    unfold handleDepositRecord
    rw [requireString_eq intent.id (by rw [hpayload]; rfl) hintent,
      requireString_eq event.txHash (by rw [hpayload]; rfl) htx,
      requireString_eq chainId (by rw [hpayload]; rfl) hchain,
      requireString_eq event.asset.symbol (by rw [hpayload]; rfl) hsymbol]
    simp only [requireNumber, hget]
    rfl

section
variable (own : Asset → Token)

/-- A client takes every asset for one of 18 decimals, under its own label. -/
theorem event_units (chainId : String) (current n : Nat) (entry : Evm.Transaction × Evm.Receipt) (address : String)
    (payment : Evm.Payment) :
    let event := observed (payment.event chainId current n entry address)
    event.amount = toString (value entry payment) ∧ event.asset.decimals = 18 ∧
      event.asset.symbol = label chainId (asset payment) := by
  cases payment with
  | ether =>
    refine ⟨rfl, ?_, rfl⟩
    show (Evm.nativeAsset chainId).decimals = 18
    unfold Evm.nativeAsset
    split <;> rfl
  | token log sender amount => exact ⟨rfl, rfl, rfl⟩

theorem label_ne (chainId : String) (asset : Asset) : label chainId asset ≠ "" := by
  cases asset with
  | native =>
    show (Evm.nativeAsset chainId).symbol ≠ ""
    unfold Evm.nativeAsset
    split <;> exact by decide
  | token contract =>
    show "UNKNOWN" ≠ ""
    decide

/-- Only nothing is the same amount by other decimals. -/
theorem div_pow_eq_iff (value decimals decimals' : Nat) :
    (value / 10 ^ decimals : ℚ) = value / 10 ^ decimals' ↔ value = 0 ∨ decimals = decimals' := by
  by_cases hvalue : value = 0
  · simp [hvalue]
  · have hpos : (value : ℚ) ≠ 0 := by exact_mod_cast hvalue
    rw [div_eq_mul_inv, div_eq_mul_inv, mul_right_inj' hpos, inv_inj, pow_right_inj₀ (by norm_num) (by norm_num)]
    simp [hvalue]

/-- **A payment is recorded in the units of its asset exactly when it moves nothing or the asset has 18 decimals, and
under the asset's own symbol exactly when that is the client's label**: `own` says what the contracts report. -/
theorem recorded_in_units_iff {L : Type} (client : Evm.EVMChainClient L) (poll : Evm.Poll) (answer : Evm.Answer)
    (d : Evm.Delivery L) (hd : d ∈ (Evm.resume client poll answer).2) : ∃ current n entry payment,
      Reads answer d.address entry payment ∧ d.event = payment.event client.chainId current n entry d.address ∧
      ∀ intent, Records options client.chainId (observed d.event) intent
          (value entry payment / 10 ^ (own (asset payment)).decimals) (own (asset payment)).symbol ↔
        (value entry payment = 0 ∨ (own (asset payment)).decimals = 18) ∧
          (own (asset payment)).symbol = label client.chainId (asset payment) := by
  obtain ⟨current, n, entry, payment, hreads, hevent⟩ := resume_payment hd
  refine ⟨current, n, entry, payment, hreads, hevent, fun intent => ?_⟩
  obtain ⟨hamount, hdecimals, hsymbol⟩ := event_units client.chainId current n entry d.address payment
  rw [← hevent] at hamount hdecimals hsymbol
  have hne : (observed d.event).asset.symbol ≠ "" := by
    rw [hsymbol]
    exact label_ne client.chainId (asset payment)
  have hrecords := @records_event options client.chainId (observed d.event) intent _ hamount hne
  rw [hdecimals, hsymbol] at hrecords
  constructor
  · intro h
    obtain ⟨hvalue, hlabel⟩ := h.unique options hrecords
    exact ⟨(div_pow_eq_iff _ _ _).1 hvalue, hlabel⟩
  · rintro ⟨hvalue, hlabel⟩
    rw [(div_pow_eq_iff _ _ 18).2 hvalue, hlabel]
    exact hrecords

end

/-- A contract of 6 decimals beside ether. -/
def usdc : Asset → Token
  | .native => ⟨18, "ETH"⟩
  | .token _ => ⟨6, "USDC"⟩

/-- A client that listens for one address. -/
def listening : Evm.EVMChainClient Nat where
  chainId := "1"
  watchedAddresses := Evm.addListener "0xab" 0 .empty

/-- One unit of the contract's, in base units. -/
def usdcLog : Evm.Log where
  address := "0xusdc"
  topics := [Evm.transferTopic, "0x000000000000000000000000c0", "0x000000000000000000000000ab"]
  amount := some 1000000

def usdcReceipt : Evm.Receipt := ⟨"0xt", true, [usdcLog]⟩

/-- What is told of it. -/
def usdcDelivery : Evm.Delivery Nat := ⟨"0xab", 0, Evm.tokenEvent 11 11 "0xt" "0xc0" "0xab" usdcLog 1000000⟩

/-- The rule for it. -/
theorem recorded_in_units_iff_usdc : ∃ current n entry payment,
    Reads (.receipt (some usdcReceipt)) usdcDelivery.address entry payment ∧
    usdcDelivery.event = payment.event listening.chainId current n entry usdcDelivery.address ∧
    ∀ intent, Records (queueOptions mainnet) listening.chainId (observed usdcDelivery.event) intent
        (value entry payment / 10 ^ (usdc (asset payment)).decimals) (usdc (asset payment)).symbol ↔
      (value entry payment = 0 ∨ (usdc (asset payment)).decimals = 18) ∧
        (usdc (asset payment)).symbol = label listening.chainId (asset payment) :=
  recorded_in_units_iff (queueOptions mainnet) usdc listening (.receipt 11 11 "0xt" []) (.receipt (some usdcReceipt))
    usdcDelivery
    (by decide +kernel)

/-- A million base units of it are recorded as 10⁻¹² of an unknown asset, and not as 1 USDC. -/
theorem usdc_misrecorded :
    usdcDelivery ∈ (Evm.resume listening (.receipt 11 11 "0xt" []) (.receipt (some usdcReceipt))).2 ∧
    ∀ intent, ¬ Records (queueOptions mainnet) "1" (observed usdcDelivery.event) intent (1000000 / 10 ^ 6) "USDC" ∧
      Records (queueOptions mainnet) "1" (observed usdcDelivery.event) intent (1 / 10 ^ 12) "UNKNOWN" := by
  refine ⟨by decide +kernel, fun intent => ?_⟩
  have hrecords := @records_event (queueOptions mainnet) "1" (observed usdcDelivery.event) intent 1000000
    (by decide +kernel) (by decide)
  have hunits : ((1000000 : ℕ) / 10 ^ (observed usdcDelivery.event).asset.decimals : ℚ) = 1 / 10 ^ 12 := by
    show ((1000000 : ℕ) / 10 ^ 18 : ℚ) = 1 / 10 ^ 12
    norm_num
  rw [hunits] at hrecords
  refine ⟨fun h => ?_, hrecords⟩
  have hsymbol := (h.unique (queueOptions mainnet) hrecords).2
  exact absurd hsymbol (by decide)

/-! ## Whose payment it is -/

/-- The intent awaits a deposit there. -/
def Awaits (chainId address : String) (row : PaymentIntent) : Prop :=
  row.depositChain = some chainId ∧ row.depositAddress = some address ∧ row.state ∈ Intent.acceptsDeposit

instance (chainId address : String) : DecidablePred (Awaits chainId address) := fun _ =>
  inferInstanceAs (Decidable (_ ∧ _))

/-- No intent that awaits a deposit there was created later: the lookup takes the youngest, and of several the first. -/
def Youngest (db : Intent.Db) (chainId address : String) : PaymentIntent → Prop :=
  Store.Leads PaymentIntent.createdAt (db.intents.rows.filter fun row => Awaits chainId address row)

/-- The event of the payment has the spelling: ether is announced to the recipient as the node spells it, a token to
the lower case. -/
def Spelled (spelling : String) (entry : Evm.Transaction × Evm.Receipt) : Evm.Payment → Prop
  | .ether => entry.1.to = some spelling
  | .token .. => spelling.toLower = spelling

/-- The lookup finds an intent by its exact spelling, and the youngest. -/
theorem findAwaitingDepositAt_eq_some {db : Intent.Db} {chainId address : String} {row : PaymentIntent}
    (hrow : row ∈ db.intents.rows) :
    findAwaitingDepositAt chainId address db = some (Intent.mapRow row) ↔ Youngest db chainId address row := by
  have hhead (a : PaymentIntent) : ((db.intents.rows.filter fun row =>
      row.depositChain = some chainId ∧ row.depositAddress = some address ∧
        row.state ∈ Intent.acceptsDeposit).insertionSort fun a b => b.createdAt ≤ a.createdAt).head? = some a ↔
      Youngest db chainId address a := Store.head?_insertionSort_iff
  unfold findAwaitingDepositAt
  rw [Option.map_eq_some_iff]
  constructor
  · rintro ⟨row', hhead', hmap⟩
    have hyoungest := (hhead row').1 hhead'
    have hrow' := List.mem_of_mem_filter hyoungest.mem
    -- the identifier tells the row
    obtain rfl : row' = row := db.intents.eq_of_key hrow' hrow (congrArg (fun row => row.id) hmap)
    exact hyoungest
  · exact fun h => ⟨row, (hhead row).2 h, rfl⟩

theorem event_to_eq {stored : String} {entry : Evm.Transaction × Evm.Receipt} {payment : Evm.Payment}
    (hpays : Evm.Pays stored.toLower entry payment) (chainId : String) (current n : Nat) :
    (observed (payment.event chainId current n entry stored.toLower)).to = stored ↔ Spelled stored entry payment := by
  cases payment with
  | ether =>
    show entry.1.to.getD Evm.zeroAddress = stored ↔ entry.1.to = some stored
    cases hto : entry.1.to with
    | none =>
      have hpays : entry.1.to.map String.toLower = some stored.toLower := hpays
      rw [hto] at hpays
      cases hpays
    | some recipient => simp
  | token log sender amount => exact Iff.rfl

/-- **A payment to an address that an intent awaits is found to be the intent's exactly when its event spells the
address as the intent does** and the intent is the youngest of those. -/
theorem attributed_iff (db : Intent.Db) (chainId stored : String) (row : PaymentIntent) (hrow : row ∈ db.intents.rows)
    (hawaits : Awaits chainId stored row) (entry : Evm.Transaction × Evm.Receipt) (payment : Evm.Payment)
    (hpays : Evm.Pays stored.toLower entry payment) (current n : Nat) :
    findAwaitingDepositAt chainId (observed (payment.event chainId current n entry stored.toLower)).to db =
        some (Intent.mapRow row) ↔
      Spelled stored entry payment ∧ Youngest db chainId stored row := by
  rw [findAwaitingDepositAt_eq_some hrow, ← event_to_eq hpays chainId current n]
  constructor
  · intro h
    have hfound : Awaits chainId _ row := of_decide_eq_true (List.mem_filter.1 h.mem).2
    have hto := Option.some.inj (hfound.2.1.symm.trans hawaits.2.1)
    refine ⟨hto, ?_⟩
    rwa [hto] at h
  · rintro ⟨hto, h⟩
    rwa [hto]

/-- The rule for ether to the spelling that the intent has. -/
theorem attributed_iff_ether : ∃ row ∈ awaitingDb.intents.rows,
    findAwaitingDepositAt "1" (observed (Evm.Payment.event "1" 11 11 paidEntry "0xA".toLower .ether)).to awaitingDb =
        some (Intent.mapRow row) ↔
      Spelled "0xA" paidEntry .ether ∧ Youngest awaitingDb "1" "0xA" row := by
  have hawaits : ∃ row ∈ awaitingDb.intents.rows, Awaits "1" "0xA" row := by decide +kernel
  obtain ⟨row, hrow, hawaits⟩ := hawaits
  exact ⟨row, hrow, attributed_iff awaitingDb "1" "0xA" row hrow hawaits paidEntry .ether
    (show Evm.PaysNative "0xA".toLower paidEntry by decide +kernel) 11 11⟩

/-- A token that is paid to the same intent. -/
def tokenLog : Evm.Log where
  address := "0xusdc"
  topics := [Evm.transferTopic, "0x000000000000000000000000c0", "0x000000000000000000000000A"]
  amount := some 5

def tokenEntry : Evm.Transaction × Evm.Receipt := (⟨"0xt", "0xc", some "0xusdc", 0⟩, ⟨"0xt", true, [tokenLog]⟩)

/-- It is announced in lower case, by which no intent is found. -/
theorem token_unattributed :
    (∃ row ∈ awaitingDb.intents.rows, Awaits "1" "0xA" row) ∧
    Evm.Pays "0xA".toLower tokenEntry (.token tokenLog "0xc0" 5) ∧
    findAwaitingDepositAt "1"
      (observed (Evm.Payment.event "1" 11 11 tokenEntry "0xA".toLower (.token tokenLog "0xc0" 5))).to awaitingDb =
        none := by
  refine ⟨by decide +kernel, ⟨List.mem_cons_self, by decide +kernel, rfl⟩, ?_⟩
  have hnone : (findAwaitingDepositAt "1"
      (observed (Evm.Payment.event "1" 11 11 tokenEntry "0xA".toLower (.token tokenLog "0xc0" 5))).to
        awaitingDb).isNone := by decide +kernel
  exact Option.isNone_iff_eq_none.1 hnone

end NexoraGateway.Worker
