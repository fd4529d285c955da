import NexoraGateway.Api.Routes
import NexoraGateway.Async.Pool
import NexoraGateway.Intent.Deposits
import NexoraGateway.Worker.Calls

/-!
# Whose deposit address it is (ADR-005, public-intents.ts:94, payment-intent.repository.ts:258)

A transfer is attributed by the address that it goes to, and of two intents at one address to the newer one.
The public route quotes every intent of a merchant the merchant's own address, so two of them clash
(`public_intents_share`).

* `mayAccept` — the states that lead to one in which deposits are accepted; a clash can begin in any of them.
* `row_origin` — where a row and its address come from, call by call.
* `addresses_unshared` — the law in every run whose quotes hand out no address twice.
-/
namespace NexoraGateway.Api

open Async Store
open Intent (Db IntentState MerchantConfig Oracle PaymentIntent WebhookDelivery acceptsDeposit mapRow)

/-- Where an intent is to be paid: the chain, and the address there. -/
def place (row : PaymentIntent) : Option (String × String) :=
  row.depositChain.bind fun chain => row.depositAddress.map fun address => (chain, address)

theorem place_eq_some {row : PaymentIntent} {chain address : String} :
    place row = some (chain, address) ↔ row.depositChain = some chain ∧ row.depositAddress = some address := by
  simp only [place, Option.bind_eq_some_iff, Option.map_eq_some_iff, Prod.mk.injEq]
  constructor
  · rintro ⟨chain', hchain, address', haddress, rfl, rfl⟩
    exact ⟨hchain, haddress⟩
  · rintro ⟨hchain, haddress⟩
    exact ⟨chain, hchain, address, haddress, rfl, rfl⟩

/-- The states of an intent that accepts deposits or can still come to do so. -/
def mayAccept : List IntentState := [.created, .quoted, .awaitingPayment, .detected, .underpaid]

theorem mayAccept_of_accepts {state : IntentState} (h : state ∈ acceptsDeposit) : state ∈ mayAccept := by
  cases state <;> simp_all [acceptsDeposit, mayAccept]

/-- No valid transition leads back. -/
theorem mayAccept_of_valid {source target : IntentState} (h : Intent.Valid source target)
    (htarget : target ∈ mayAccept) : source ∈ mayAccept := by
  simp only [mayAccept, List.mem_cons, List.not_mem_nil, or_false] at htarget
  rcases htarget with rfl | rfl | rfl | rfl | rfl <;> revert h <;> cases source <;> decide

/-- No two intents that may accept a deposit are to be paid at one place. -/
def Distinct (db : Db) : Prop :=
  ∀ u ∈ db.intents.rows, ∀ v ∈ db.intents.rows, u.state ∈ mayAccept → v.state ∈ mayAccept →
    ∀ p, place u = some p → place v = some p → u.id = v.id

/-- Another intent that may accept a deposit is to be paid there. -/
def Taken (db : Db) (id : Id) (p : String × String) : Prop :=
  ∃ other ∈ db.intents.rows, other.id ≠ id ∧ other.state ∈ mayAccept ∧ place other = some p

instance (db : Db) (id : Id) (p : String × String) : Decidable (Taken db id p) :=
  inferInstanceAs (Decidable (∃ other ∈ db.intents.rows, _))

/-- A quote hands an intent that may accept a deposit no place of another such intent. -/
def Fresh (db : Db) : Call → Prop
  | .service (.updateQuote id _ _ (some deposit)) =>
    ∀ row ∈ db.intents.find? id, row.state ∈ mayAccept → ¬ Taken db id (deposit.chain, deposit.address)
  | _ => True

instance (db : Db) : (a : Call) → Decidable (Fresh db a)
  | .service (.updateQuote id _ _ (some deposit)) => inferInstanceAs (Decidable
      (∀ row ∈ db.intents.find? id, row.state ∈ mayAccept → ¬ Taken db id (deposit.chain, deposit.address)))
  | .service (.updateQuote _ _ _ none) | .service .now | .service (.findById _) | .service (.create _)
  | .service (.transition ..) | .service .findExpiredIntents | .service (.getById _)
  | .service (.upsertDelivery ..) | .service (.getDelivery _) | .service (.updateDeliveryStatus ..)
  | .service .pendingRetries | .service (.fetch ..) | .getAll => inferInstanceAs (Decidable True)

/-! ## One call -/

variable {o : Oracle} {db : Db}

theorem create_rows (data : Intent.NewPaymentIntent) :
    (Intent.create o data db).2.intents.rows = db.intents.rows ∨
      ∃ row, place row = none ∧ (Intent.create o data db).2.intents.rows = db.intents.rows ++ [row] := by
  refine atomically_cases
    (fun t : Db => t.intents.rows = db.intents.rows ∨
      ∃ row, place row = none ∧ t.intents.rows = db.intents.rows ++ [row]) (.inl rfl) fun intent db' hb => ?_
  simp only [bind_eq_ok] at hb
  obtain ⟨_, -, _, -, r, ⟨_, -, hb⟩, _, -, hr⟩ := hb
  cases hr
  split at hb
  · split at hb
    · rename_i intents hins
      simp only [bind_eq_ok] at hb
      obtain ⟨_, -, hb⟩ := hb
      cases hb
      exact .inr ⟨_, rfl, Table.rows_insert? hins⟩
    · cases hb
  · cases hb

theorem transition_origin {id : Id} {eventType : Intent.EventType} {payload : Payload} {intent v : PaymentIntent}
    (h : (Intent.transition o id eventType payload db).1 = .ok intent)
    (hv : v ∈ (Intent.transition o id eventType payload db).2.intents.rows) :
    ∃ u ∈ db.intents.rows, u.id = v.id ∧ (v.state ∈ mayAccept → u.state ∈ mayAccept) ∧ place u = place v := by
  obtain ⟨row, hrow, hedge, -, hdb⟩ := Intent.transition_ok h
  rw [hdb] at hv
  obtain ⟨u, hu, rfl⟩ := Intent.Tables.mem_record.1 hv
  refine ⟨u, hu, ?_⟩
  split
  · rename_i h
    obtain rfl : u = row := Table.eq_of_key hu (Table.find?_eq_some.1 hrow).1 h.1
    exact ⟨rfl, mayAccept_of_valid hedge, rfl⟩
  · exact ⟨rfl, fun h => h, rfl⟩

theorem updateQuote_origin {id : Id} {rate : ℚ} {expires : Time} {deposit : Option Intent.Deposit}
    {intent v : PaymentIntent} (h : (Intent.updateQuote o id rate expires deposit db).1 = .ok intent)
    (hv : v ∈ (Intent.updateQuote o id rate expires deposit db).2.intents.rows) :
    (∃ u ∈ db.intents.rows, u.id = v.id ∧ (v.state ∈ mayAccept → u.state ∈ mayAccept) ∧ place u = place v) ∨
      ∃ d, deposit = some d ∧ id = v.id ∧ place v = some (d.chain, d.address) ∧
        ∃ u, db.intents.find? v.id = some u ∧ u.state = v.state := by
  obtain ⟨row, hrow, -, hdb⟩ := Intent.updateQuote_ok h
  rw [hdb, Table.mem_updateWhere] at hv
  obtain ⟨u, hu, rfl⟩ := hv
  by_cases hid : u.id = id
  · subst hid
    have hfind : db.intents.find? u.id = some u := Table.find?_eq_some.2 ⟨hu, rfl⟩
    simp only [decide_true, if_true]
    cases deposit with
    | none => exact .inl ⟨u, hu, rfl, fun h => h, rfl⟩
    | some d => exact .inr ⟨d, rfl, rfl, rfl, u, hfind, rfl⟩
  · simp only [hid, decide_false, Bool.false_eq_true, if_false]
    exact .inl ⟨u, hu, rfl, fun h => h, rfl⟩

/-- **Where a row comes from**: it has just been created, or it was there with the same place and no further
from accepting, or a quote has just given it its place. -/
theorem row_origin (a : Intent.Call) {v : PaymentIntent} (hv : v ∈ (Intent.handle a o db).2.intents.rows) :
    place v = none ∨
    (∃ u ∈ db.intents.rows, u.id = v.id ∧ (v.state ∈ mayAccept → u.state ∈ mayAccept) ∧ place u = place v) ∨
    ∃ rate expires deposit, a = .updateQuote v.id rate expires (some deposit) ∧
      place v = some (deposit.chain, deposit.address) ∧
      ∃ u, db.intents.find? v.id = some u ∧ u.state = v.state := by
  have hkept (hmem : v ∈ db.intents.rows) : ∃ u ∈ db.intents.rows, u.id = v.id ∧
      (v.state ∈ mayAccept → u.state ∈ mayAccept) ∧ place u = place v := ⟨v, hmem, rfl, fun h => h, rfl⟩
  have hunwritten (hkeeps : a.KeepsIntents) : v ∈ db.intents.rows := by
    have hsame := (Intent.handle_effect a o db).keepsIntents hkeeps
    rwa [← hsame]
  cases hr : (Intent.handle a o db).1 with
  | error e =>
    rw [Intent.handle_error hr] at hv
    exact .inr (.inl (hkept hv))
  | ok x =>
    cases a with
    | create data =>
      rcases @create_rows o db data with h | ⟨row, hplace, h⟩
      · exact .inr (.inl (hkept (h ▸ hv)))
      · have hv' : v ∈ db.intents.rows ++ [row] := h ▸ hv
        rcases List.mem_append.1 hv' with hmem | hmem
        · exact .inr (.inl (hkept hmem))
        · rw [List.mem_singleton.1 hmem]
          exact .inl hplace
    | transition id eventType payload => exact .inr (.inl (transition_origin hr hv))
    | updateQuote id rate expires deposit =>
      rcases updateQuote_origin hr hv with hsame | ⟨deposit, rfl, rfl, hplace, hstate⟩
      · exact .inr (.inl hsame)
      · exact .inr (.inr ⟨rate, expires, deposit, rfl, hplace, hstate⟩)
    | now | fetch | findById | findExpiredIntents | getById | upsertDelivery | getDelivery
      | updateDeliveryStatus | pendingRetries => exact .inr (.inl (hkept (hunwritten trivial)))

theorem handle_distinct {a : Call} (hdb : Distinct db) (ha : Fresh db a) : Distinct (handle a o db).2 := by
  cases a with
  | getAll =>
    rw [show (handle .getAll o db).2 = db from Intent.query_read _]
    exact hdb
  | service a =>
    -- the intent that is quoted has been given a place that no other has
    have hquoted {u v : PaymentIntent} (hv : v ∈ (Intent.handle a o db).2.intents.rows)
        (hustate : u.state ∈ mayAccept) (hvstate : v.state ∈ mayAccept) {p : String × String}
        (hup : place u = some p) (hvp : place v = some p) {rate : ℚ} {expires : Time} {deposit : Intent.Deposit}
        (hcall : a = .updateQuote u.id rate expires (some deposit))
        (hplace : place u = some (deposit.chain, deposit.address)) {row : PaymentIntent}
        (hrow : db.intents.find? u.id = some row) (hstate : row.state = u.state) : u.id = v.id := by
      subst hcall
      obtain rfl : p = (deposit.chain, deposit.address) := Option.some.inj (hup.symm.trans hplace)
      by_contra hne
      refine ha row hrow (hstate ▸ hustate) ?_
      rcases row_origin _ hv with hnone | ⟨w, hw, hid, hmay, hwp⟩ | ⟨_, _, _, hcall, -⟩
      · rw [hnone] at hvp
        cases hvp
      · exact ⟨w, hw, fun h => hne (h.symm.trans hid), hmay hvstate, hwp.trans hvp⟩
      · injection hcall with hid
        exact absurd hid hne
    intro u hu v hv hustate hvstate p hup hvp
    rcases row_origin a hu with hnone | ⟨u', hu', huid, humay, hup'⟩ | ⟨_, _, _, hcall, hplace, row, hrow, hstate⟩
    · rw [hnone] at hup
      cases hup
    · rcases row_origin a hv with hnone | ⟨v', hv', hvid, hvmay, hvp'⟩ | ⟨_, _, _, hcall, hplace, row, hrow, hstate⟩
      · rw [hnone] at hvp
        cases hvp
      · have hsame := hdb u' hu' v' hv' (humay hustate) (hvmay hvstate) p (hup'.trans hup) (hvp'.trans hvp)
        exact huid.symm.trans (hsame.trans hvid)
      · exact (hquoted hu hvstate hustate hvp hup hcall hplace hrow hstate).symm
    · exact hquoted hv hustate hvstate hup hvp hcall hplace hrow hstate

/-! ## Runs -/

theorem head?_of_only {xs : List PaymentIntent} {x : PaymentIntent} (h : ∀ y, y ∈ xs ↔ y = x) :
    xs.head? = some x := by
  cases xs with
  | nil => exact absurd ((h x).2 rfl) List.not_mem_nil
  | cons y ys => rw [(h y).1 List.mem_cons_self, List.head?_cons]

/-- An intent that alone accepts deposits at its place is the one that a transfer there is attributed to. -/
theorem attributed_of_distinct (hdb : Distinct db) {row : PaymentIntent} (hrow : row ∈ db.intents.rows)
    (hstate : row.state ∈ acceptsDeposit) {chain address : String} (hplace : place row = some (chain, address)) :
    Worker.findAwaitingDepositAt chain address db = some (mapRow row) := by
  obtain ⟨hchain, haddress⟩ := place_eq_some.1 hplace
  have hmem (u : PaymentIntent) : u ∈ ((db.intents.rows.filter fun row => row.depositChain = some chain ∧
      row.depositAddress = some address ∧ row.state ∈ acceptsDeposit).insertionSort
        fun a b => b.createdAt ≤ a.createdAt) ↔ u = row := by
    simp only [List.mem_insertionSort, List.mem_filter, decide_eq_true_eq]
    constructor
    · rintro ⟨hu, huchain, huaddress, hustate⟩
      exact Table.eq_of_key hu hrow (hdb u hu row hrow (mayAccept_of_accepts hustate)
        (mayAccept_of_accepts hstate) _ (place_eq_some.2 ⟨huchain, huaddress⟩) hplace)
    · rintro rfl
      exact ⟨hrow, hchain, haddress, hstate⟩
  exact congrArg (Option.map mapRow) (head?_of_only hmem)

/-- A service that no intent was created with yet. -/
def opened (merchants : Table MerchantConfig.id) (deliveries : Table WebhookDelivery.key) : Db :=
  { intents := .empty, events := [], merchants, deliveries }

/-- Requests and operations of the service, interleaved. -/
abbrev Site := Pool Call Answer Intent.IntentError Reply Db

abbrev Schedule := List (Choice Call Answer Intent.IntentError Reply Oracle)

/-- **When an address belongs to one intent**: in every run of whatever requests and operations, each of whose
quotes hands out a place that no other intent which may still accept a deposit has, no two intents accept
deposits at one place, and a transfer is attributed to the intent whose place it went to. -/
theorem addresses_unshared (merchants : Table MerchantConfig.id) (deliveries : Table WebhookDelivery.key)
    (cs : Schedule) (hcs : Pool.Guarded handle Fresh (⟨opened merchants deliveries, []⟩ : Site) cs) :
    let db := (Pool.exec handle (⟨opened merchants deliveries, []⟩ : Site) cs).store
    (∀ u ∈ db.intents.rows, ∀ v ∈ db.intents.rows, u.state ∈ acceptsDeposit → v.state ∈ acceptsDeposit →
      ∀ p, place u = some p → place v = some p → u = v) ∧
    ∀ row ∈ db.intents.rows, row.state ∈ acceptsDeposit → ∀ chain address, place row = some (chain, address) →
      Worker.findAwaitingDepositAt chain address db = some (mapRow row) := by
  intro db
  have hopened : Distinct (opened merchants deliveries) := fun u hu => absurd hu List.not_mem_nil
  have hdb : Distinct db :=
    Pool.exec_store_inv (h := handle) (I := Distinct) (fun db a o hdb ha => handle_distinct hdb ha) hopened hcs
  refine ⟨fun u hu v hv hustate hvstate p hup hvp => ?_, fun row hrow hstate chain address hplace => ?_⟩
  · exact Table.eq_of_key hu hv
      (hdb u hu v hv (mayAccept_of_accepts hustate) (mayAccept_of_accepts hvstate) p hup hvp)
  · exact attributed_of_distinct hdb hrow hstate hplace

/-- A customer of the shop asks for 100 USDC on Ethereum. -/
def ask (orderRef : String) : Task Reply :=
  postPublicIntent (some "shop")
    { orderRef := some orderRef, targetAmount := some 100, targetAsset := some "USDC"
      targetChain := some "ethereum" }

/-- The shop itself asks for an intent. -/
def order : Task Reply :=
  postIntent (some "shop")
    { orderRef := some "order-3", targetAmount := some 100, targetAsset := some "USDC"
      targetChain := some "ethereum", acceptedAssets := some ["USDC"] }

/-- The shop quotes its intent an address of its own. -/
def quote : Task Reply :=
  postQuote "pi-2"
    { rate := some 1, depositAddress := some "0xown", depositAsset := some "USDC"
      depositChain := some "ethereum" }

/-- The request `i` alone, from its start to its reply. -/
def served (i : Nat) (request : Task Reply) (uuid : Id) (now : Time) : Schedule :=
  .spawn request :: List.replicate 10 (.step i { now, uuid })

theorem shop_alone : ([Intent.shop].map Intent.MerchantConfig.id).Nodup := List.nodup_singleton _

abbrev shop : Site := ⟨opened ⟨[Intent.shop], shop_alone⟩ .empty, []⟩

def placesOf (db : Db) : List (Id × IntentState × Option (String × String)) :=
  db.intents.rows.map fun row => (row.id, row.state, place row)

/-- The rule at a shop with a customer's intent and one of its own. -/
theorem addresses_unshared_owned :
    let cs := served 0 (ask "order-1") "pi-1" 1 ++ served 1 order "pi-2" 2 ++ served 2 quote "" 3
    let db := (shop.exec handle cs).store
    placesOf db =
      [("pi-1", .quoted, some ("ethereum", "0xshop")), ("pi-2", .quoted, some ("ethereum", "0xown"))] ∧
    ∃ row ∈ db.intents.rows, Worker.findAwaitingDepositAt "ethereum" "0xshop" db = some (mapRow row) := by
  intro cs db
  have hcs : shop.Guarded handle Fresh cs := by decide +kernel
  have hrow : ∃ row ∈ db.intents.rows, row.state ∈ acceptsDeposit ∧ place row = some ("ethereum", "0xshop") := by
    decide +kernel
  obtain ⟨row, hmem, hstate, hplace⟩ := hrow
  exact ⟨by decide +kernel, row, hmem, (addresses_unshared _ _ cs hcs).2 row hmem hstate _ _ hplace⟩

/-- Two customers of the shop are quoted its settlement address, and what either of them pays there is
attributed to the later one. -/
theorem public_intents_share :
    let db := (shop.exec handle (served 0 (ask "order-1") "pi-1" 1 ++ served 1 (ask "order-2") "pi-2" 2)).store
    placesOf db =
      [("pi-1", .quoted, some ("ethereum", "0xshop")), ("pi-2", .quoted, some ("ethereum", "0xshop"))] ∧
    (Worker.findAwaitingDepositAt "ethereum" "0xshop" db).map PaymentIntent.id = some "pi-2" := by
  decide +kernel

end NexoraGateway.Api
