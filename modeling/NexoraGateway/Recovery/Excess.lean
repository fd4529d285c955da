import Mathlib.Tactic.Linarith
import NexoraGateway.Async.Amid
import NexoraGateway.Recovery.Ownership

/-!
# What is paid for an overpayment (recovery.service.ts:128, :422, :453)

`detectOverpayment` is told what was expected and what was received, and the case keeps the second alone; a refund and
a credit are of the amount of the case. So the paid part of the invoice goes out with the excess.

* `resolve_pays` — a resolution pays the amount that the case was created with, whatever happens meanwhile.
* `excess_iff` — when that is the excess.
-/
namespace NexoraGateway.Recovery

open Async Store

/-- What the message says was refunded or credited. -/
def ResolutionResult.paid? (result : ResolutionResult) : Option ℚ :=
  match result.message with
  | .refunded amount _ _ | .credited amount _ => some amount
  | _ => none

/-- What is performed is performed for a case of this amount. -/
def Call.Of (amount : ℚ) : Call → Prop
  | .perform _ recoveryCase => recoveryCase.amount = amount
  | _ => True

/-- The case is read with this amount. -/
def paying (caseId : Id) (amount : ℚ) : Protocol Call Answer Unit where
  ok _ := Call.Of amount
  rely
    | .findById id, r => id = caseId → ∀ row, r = .ok (some row) → row.amount = amount
    | _, _ => True
  next g _ _ := g

variable {service : RecoveryService} {caseId : Id} {amount : ℚ} {action : ResolutionAction} {db : Db}
  {recoveryCase : RecoveryCase}

/-! ## The program -/

/-- A program that makes such calls only, whatever it reads. -/
theorem obeys_paying {α : Type} {p : Task α} (hp : p.Only (Call.Of amount) fun _ => True) :
    p.Obeys (paying caseId amount) (fun _ _ => True) () := hp.obeys (fun _ _ ha => ha) ()

theorem updateCase_paying (params : UpdateRecoveryCaseParams) :
    (updateCase caseId params).Obeys (paying caseId amount) (fun _ _ => True) () :=
  obeys_paying (updateCase_only trivial trivial)

theorem resolvedAt_paying (result : ResolutionResult) :
    (resolvedAt result).Obeys (paying caseId amount) (fun _ _ => True) () := by
  refine obeys_paying ?_
  unfold resolvedAt
  split
  · exact Prog.Only.bind (Prog.Only.await trivial) fun now => Prog.Only.ret _
  · exact Prog.Only.ret _

/-- A result that reports success reports this amount. -/
def Pays (amount : ℚ) (out : Except RecoveryError ResolutionResult) : Prop :=
  ∀ result, out = .ok result → result.success = true → result.paid? = some amount

theorem pays_error (e : RecoveryError) : Pays amount (.error e) := fun _ h => by cases h

theorem pays_failure (action : ResolutionAction) (txHash : Option Id) (message : Message) :
    Pays amount (.ok ⟨action, false, txHash, message⟩) := by
  rintro result ⟨⟩ hsuccess
  cases hsuccess

/-- A refund and a credit are of the amount of the case. -/
theorem execute_pays (hpays : action.pays = true) (hamount : recoveryCase.amount = amount) :
    (execute service action recoveryCase).Obeys (paying caseId amount) (fun _ => Pays amount) () := by
  cases action with
  | autoRefund =>
    simp only [execute, executeAutoRefund]
    split
    · exact pays_failure _ _ _
    · refine Prog.Obeys.bind (Prog.obeys_await.2 ⟨hamount, fun r _ => ?_⟩)
      cases r with
      | error e => exact pays_error e
      | ok done =>
        refine Prog.Obeys.bind (Prog.obeys_await.2 ⟨trivial, fun uuid _ => ?_⟩)
        cases uuid with
        | error e => exact pays_error e
        | ok uuid =>
          rintro result ⟨⟩ -
          exact congrArg some hamount
  | autoCredit =>
    refine Prog.Obeys.bind (Prog.obeys_await.2 ⟨hamount, fun r _ => ?_⟩)
    cases r with
    | error e => exact pays_error e
    | ok done =>
      rintro result ⟨⟩ -
      exact congrArg some hamount
  | topUpLink | reQuote | feeBump | relayerAcceleration | other name => cases hpays

/-- **A refund or a credit** pays the amount with which the case is read. -/
theorem resolve_pays (service : RecoveryService) (caseId : Id) (hpays : action.pays = true) (amount : ℚ) :
    (resolve service caseId action).Obeys (paying caseId amount) (fun _ => Pays amount) () := by
  refine Prog.Obeys.bind (Prog.obeys_await.2 ⟨trivial, fun found hfound => ?_⟩)
  rcases found with e | _ | recoveryCase
  · exact pays_error e
  · exact pays_failure _ _ _
  have hamount : recoveryCase.amount = amount := hfound rfl recoveryCase rfl
  -- the mark, the result and the failure are updates
  have hfailed (error : RecoveryError) : ((updateCase caseId { status := some .failed }).bind fun _ =>
      (.ret ⟨action, false, none, .error error.message⟩ : Task ResolutionResult)).Obeys
        (paying caseId amount) (fun _ => Pays amount) () := by
    refine Prog.Obeys.bind ((updateCase_paying _).mono fun _ out _ => ?_)
    cases out with
    | error e => exact pays_error e
    | ok row => exact pays_failure _ _ _
  refine Prog.Obeys.bind ((updateCase_paying _).mono fun _ out _ => ?_)
  cases out with
  | error e => exact pays_error e
  | ok row =>
    refine Prog.Obeys.tryCatch (Prog.Obeys.bind ((execute_pays hpays hamount).mono fun _ out hout => ?_))
    cases out with
    | error e => exact hfailed e
    | ok result =>
      refine Prog.Obeys.bind ((resolvedAt_paying result).mono fun _ out _ => ?_)
      cases out with
      | error e => exact hfailed e
      | ok date =>
        refine Prog.Obeys.bind ((updateCase_paying _).mono fun _ out _ => ?_)
        cases out with
        | error e => exact hfailed e
        | ok row => exact hout

/-! ## The table -/

/-- What a case was created with stays, also the amount. -/
theorem handle_stands (a : Call) (o : Oracle) (db : Db) (h : Stands db (fun row => row.amount = amount) caseId) :
    Stands (handle a o db).2 (fun row => row.amount = amount) caseId :=
  h.mono (handle_effect a o db) fun _ _ _ hparams hrow => (congrArg CreateRecoveryCaseParams.amount hparams).trans hrow

theorem handle_rely (a : Call) (o : Oracle) (db : Db) (h : Stands db (fun row => row.amount = amount) caseId) :
    (paying caseId amount).rely a (handle a o db).1 := by
  cases a with
  | findById id =>
    rintro rfl row hrow
    obtain ⟨row', hfind, hamount⟩ := h
    have hread := (request_ok hrow).2
    obtain rfl := Option.some.inj (hread.symm.trans hfind)
    exact hamount
  | now | randomUUID | create | update | findStuckTransactions | perform => trivial

/-- A case of any type that is detected is in the table with the amount that was reported, to eight places. -/
theorem detected_stands {ω : Nat → Turn Call Oracle} {n m : Nat} {db' : Db} {caseType : RecoveryCaseType}
    {params : Detection} (h : (detect caseType params).run (amid handle) ω n db = (.ok recoveryCase, m, db')) :
    Stands db' (fun row => row.amount = decimal8 params.amount) recoveryCase.id := by
  have hcall := Prog.ok_of_run_await ω h
  obtain ⟨hanswer, rfl⟩ := Prod.ext_iff.1 hcall
  refine amid_of_own (I := fun db => Stands db _ recoveryCase.id) (fun a o db => handle_stands a o db) ?_
  simp only [amid, handle, create] at hanswer ⊢
  split at hanswer
  · cases hanswer
  · rename_i cases hins
    obtain ⟨hstored, rfl⟩ := request_ok hanswer
    rw [hstored]
    exact ⟨_, (Table.find?_insert? hins _).trans (if_pos rfl), rfl⟩

/-! ## The excess -/

/-- What the column drops of an amount of whole units of the eighth decimal: nothing. -/
theorem dropped_units (units : ℤ) : (units / 10 ^ 8 : ℚ) - decimal8 (units / 10 ^ 8) = 0 := by
  rw [decimal8_units, sub_self]

/-- **The excess is paid just when** what was expected is what the column drops of the amount that was received: for
amounts of at most eight decimals, when nothing was expected. Others may call what they like in between. -/
theorem excess_iff (service : RecoveryService) (ω : Nat → Turn Call Oracle) {n m k : Nat} {db db' db'' : Db}
    (intentId : Id) (params : Detection) (expectedAmount receivedAmount : ℚ) (_hover : expectedAmount < receivedAmount)
    (hpays : action.pays = true) {result : ResolutionResult}
    (hdetected : (detectOverpayment intentId params expectedAmount receivedAmount).run (amid handle) ω n db =
      (.ok recoveryCase, m, db'))
    (hresolved : (resolve service recoveryCase.id action).run (amid handle) ω m db' = (.ok result, k, db''))
    (hsuccess : result.success = true) :
    (result.paid? = some (receivedAmount - expectedAmount) ∧
        ∀ c ∈ (resolve service recoveryCase.id action).calls (amid handle) ω m db',
          c.call.Of (receivedAmount - expectedAmount)) ↔
      expectedAmount = receivedAmount - decimal8 receivedAmount := by
  obtain ⟨⟨_, hout⟩, hcalls⟩ := (resolve_pays service recoveryCase.id hpays (decimal8 receivedAmount)).amid
    (h := amid handle) (I := fun db => Stands db (fun row => row.amount = decimal8 receivedAmount) recoveryCase.id)
    (fun _ a turn db hdb _ => ⟨handle_rely a turn.own db hdb,
      amid_inv (I := fun db => Stands db _ recoveryCase.id) (fun a o db => handle_stands a o db) a turn db hdb⟩)
    ω m (detected_stands hdetected)
  rw [hresolved] at hout
  have hpaid : result.paid? = some (decimal8 receivedAmount) := hout result rfl hsuccess
  have hiff : receivedAmount - expectedAmount = decimal8 receivedAmount ↔
      expectedAmount = receivedAmount - decimal8 receivedAmount := by
    constructor <;> intro h <;> linarith
  rw [← hiff]
  constructor
  · rintro ⟨hresult, -⟩
    exact Option.some.inj (hresult.symm.trans hpaid)
  · intro h
    rw [h]
    exact ⟨hpaid, fun c hc => (hcalls c hc).choose_spec⟩

/-- What is reported of an overpayment besides the amounts. -/
def deposited : Detection := ⟨none, "0xabc", "1", "1", "USDC", 0, "0x1"⟩

def quiet : Nat → Turn Call Oracle := fun n => { own := { uuid := toString n } }

def noCases : Db := ⟨Table.empty, [], 0⟩

/-- A payment of `received` for an invoice of `expected` is reported and its case resolved; others do nothing. -/
def resolvedAs (action : ResolutionAction) (expected received : ℚ) : Except RecoveryError ResolutionResult :=
  (((detectOverpayment "pi" deposited expected received).bind fun recoveryCase =>
    resolve ethereum recoveryCase.id action).run (amid handle) quiet 0 noCases).1

/-- The rule on 150 that are received for an invoice of nothing, which are credited. -/
theorem excess_iff_gift : (resolvedAs .autoCredit 0 150).toOption.bind ResolutionResult.paid? = some (150 - 0) := by
  have hover : (0 : ℚ) < 150 := by norm_num
  have hdropped : (0 : ℚ) = 150 - decimal8 150 := by
    have h := dropped_units (150 * 10 ^ 8)
    norm_num at h
    exact h.symm
  have hdetected : (detectOverpayment "pi" deposited 0 150).run (amid handle) quiet 0 noCases = (.ok _, _, _) := rfl
  exact ((excess_iff ethereum quiet "pi" deposited 0 150 hover (rfl : ResolutionAction.autoCredit.pays = true) hdetected
    rfl rfl).2 hdropped).1

/-- 150 are received for an invoice of 100, and 150 are refunded or credited. -/
theorem invoice_paid_out :
    (resolvedAs .autoRefund 100 150).toOption.bind ResolutionResult.paid? = some 150 ∧
      (resolvedAs .autoCredit 100 150).toOption.bind ResolutionResult.paid? = some 150 := by
  decide +kernel

end NexoraGateway.Recovery
