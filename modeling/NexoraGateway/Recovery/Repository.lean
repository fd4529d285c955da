import NexoraGateway.Async.Prog
import NexoraGateway.Json
import NexoraGateway.Store.Atomic
import NexoraGateway.Store.Table
import Mathlib.Data.List.Sort

/-!
# Recovery cases and the calls on them (`recovery/src/recovery.repository.ts`)

Every `await` of the package that can be followed by another task is one `Call`; `handle` answers it. A query may be
rejected by the database, and then it may still have been executed, only its answer being lost.

* `RecoveryCase` — shared/src/types/recovery.ts:22, migration 006; `mapRow` (recovery.repository.ts:214) is the
  identity on it.
* `create`, `findById`, `findStuckTransactions` — recovery.repository.ts:52, :129, :178.
* `update` — the `UPDATE` of `update` (:112), which looks at nothing but the id.
* `perform` — what an action does outside the table. The five `execute…` functions only simulate it, so nothing comes
  back and nothing can go wrong.
-/
namespace NexoraGateway.Recovery

open Store

inductive RecoveryCaseType where
  | misdirected | underpaid | overpaid | stuck
  deriving DecidableEq, Repr

inductive RecoveryStatus where
  | detected | verifying | resolving | resolved | failed
  deriving DecidableEq, Repr

/-- `ResolutionAction`; `resolve` also answers an action that is none of them. -/
inductive ResolutionAction where
  | autoRefund | autoCredit | topUpLink | reQuote | feeBump | relayerAcceleration
  | other (name : String)
  deriving DecidableEq, Repr

/-- `CreateRecoveryCaseParams` (recovery.repository.ts:17). -/
structure CreateRecoveryCaseParams where
  relatedIntentId : Option Id
  caseType : RecoveryCaseType
  customerAddress : String
  customerChain : String
  intendedChain : String
  asset : String
  amount : ℚ
  txHash : Option Id
  deriving DecidableEq

/-- A `recovery_cases` row. -/
structure RecoveryCase extends CreateRecoveryCaseParams where
  id : Id
  status : RecoveryStatus := .detected
  resolutionAction : Option ResolutionAction := none
  resolutionTxHash : Option Id := none
  createdAt : Time
  updatedAt : Time
  resolvedAt : Option Time := none
  deriving DecidableEq

/-- `UpdateRecoveryCaseParams` (:31): `none` is what is left out, `some none` what is set to `null`. -/
structure UpdateRecoveryCaseParams where
  status : Option RecoveryStatus := none
  resolutionAction : Option ResolutionAction := none
  resolutionTxHash : Option (Option Id) := none
  resolvedAt : Option (Option Time) := none

def UpdateRecoveryCaseParams.set (params : UpdateRecoveryCaseParams) (now : Time) : RecoveryCase → RecoveryCase :=
  fun row => { row with
    status := params.status.getD row.status
    resolutionAction := params.resolutionAction.or row.resolutionAction
    resolutionTxHash := params.resolutionTxHash.getD row.resolutionTxHash
    resolvedAt := params.resolvedAt.getD row.resolvedAt
    updatedAt := now }

@[simp] theorem set_id (params : UpdateRecoveryCaseParams) (now : Time) (row : RecoveryCase) :
    (params.set now row).id = row.id := rfl

@[simp] theorem set_status (params : UpdateRecoveryCaseParams) (now : Time) (row : RecoveryCase) :
    (params.set now row).status = params.status.getD row.status := rfl

/-- An action that was carried out, for the case as it had been read. -/
structure Execution where
  action : ResolutionAction
  recoveryCase : RecoveryCase
  deriving DecidableEq

structure Db where
  cases : Table RecoveryCase.id
  executions : List Execution
  clock : Time

inductive RecoveryError where
  | notFound (id : Id)
  | notFoundAfterUpdate (id : Id)
  | rejected (message : String)
  deriving DecidableEq, Repr

def RecoveryError.message : RecoveryError → String
  | notFound id => "Recovery case not found: " ++ id
  | notFoundAfterUpdate id => "Recovery case not found after update: " ++ id
  | rejected message => message

/-- What a call meets outside the program: how long it takes, a fresh UUID, whether the database rejects it and with
which message, and whether a rejected query was executed. -/
structure Oracle where
  took : Nat := 0
  uuid : Id := ""
  rejects : Option String := none
  lost : Bool := false

/-- A query that was executed is answered. -/
def Oracle.Answers (o : Oracle) : Prop := o.rejects.isSome = true → o.lost = false

instance (o : Oracle) : Decidable o.Answers := inferInstanceAs (Decidable (_ → _))

inductive Call : Type where
  | now
  | randomUUID
  | create (params : CreateRecoveryCaseParams)
  | findById (id : Id)
  | update (id : Id) (params : UpdateRecoveryCaseParams)
  | findStuckTransactions (maxAgeMs : ℚ)
  | perform (action : ResolutionAction) (recoveryCase : RecoveryCase)

def Call.Ans : Call → Type
  | now => Time
  | randomUUID => Id
  | create _ => RecoveryCase
  | findById _ | update .. => Option RecoveryCase
  | findStuckTransactions _ => List RecoveryCase
  | perform .. => Unit

abbrev Answer (a : Call) : Type := Except RecoveryError a.Ans

abbrev request {α : Type} (o : Oracle) (result : α × Db) (db : Db) : Except RecoveryError α × Db :=
  Store.request (o.rejects.map .rejected) o.lost result db

def create (o : Oracle) (params : CreateRecoveryCaseParams) (db : Db) : Except RecoveryError RecoveryCase × Db :=
  let row : RecoveryCase :=
    { params with amount := decimal8 params.amount, id := o.uuid, createdAt := db.clock, updatedAt := db.clock }
  match db.cases.insert? row with
  | none => (.error (.rejected "duplicate key value violates unique constraint \"recovery_cases_pkey\""), db)
  | some cases => request o (row, { db with cases }) db

def findById (o : Oracle) (id : Id) (db : Db) : Except RecoveryError (Option RecoveryCase) × Db :=
  request o (db.cases.find? id, db) db

def update (o : Oracle) (id : Id) (params : UpdateRecoveryCaseParams) (db : Db) :
    Except RecoveryError (Option RecoveryCase) × Db :=
  let result := db.cases.returning (fun row => row.id = id) (params.set db.clock)
  let cases := db.cases.updateWhere (fun row => row.id = id) (params.set db.clock) (set_id params db.clock)
  request o (result.head?, { db with cases }) db

def findStuckTransactions (o : Oracle) (maxAgeMs : ℚ) (db : Db) : Except RecoveryError (List RecoveryCase) × Db :=
  let cutoff := toTime (db.clock - maxAgeMs)
  let stuck := db.cases.rows.filter fun row =>
    row.caseType = .stuck ∧ (row.status = .detected ∨ row.status = .verifying) ∧ row.createdAt < cutoff
  request o (stuck.insertionSort fun a b => a.createdAt ≤ b.createdAt, db) db

def handle : Async.Handler Call Answer Oracle Db := fun a o db =>
  let db := { db with clock := db.clock + o.took }
  match a with
  | .now => (.ok db.clock, db)
  | .randomUUID => (.ok o.uuid, db)
  | .create params => create o params db
  | .findById id => findById o id db
  | .update id params => update o id params db
  | .findStuckTransactions maxAgeMs => findStuckTransactions o maxAgeMs db
  | .perform action recoveryCase => (.ok (), { db with executions := db.executions ++ [⟨action, recoveryCase⟩] })

/-! ## What a call does -/

/-- A call only lets time pass, or it is executed. -/
inductive Effect (db : Db) : Call → Db → Prop
  | idle (a : Call) (clock : Time) : Effect db a { db with clock }
  | created {params : CreateRecoveryCaseParams} {row : RecoveryCase} {cases : Table RecoveryCase.id} (clock : Time)
      (hstatus : row.status = .detected) (hins : db.cases.insert? row = some cases) :
      Effect db (.create params) { db with cases, clock }
  | updated (id : Id) (params : UpdateRecoveryCaseParams) (clock : Time) :
      Effect db (.update id params)
        { db with
          cases := db.cases.updateWhere (fun row => row.id = id) (params.set clock) (set_id params clock)
          clock }
  | performed (action : ResolutionAction) (recoveryCase : RecoveryCase) (clock : Time) :
      Effect db (.perform action recoveryCase)
        { db with executions := db.executions ++ [⟨action, recoveryCase⟩], clock }

/-- A request that is not answered was not executed, or its answer is lost. -/
theorem request_error {α : Type} {o : Oracle} {result : α × Db} {db : Db} {e : RecoveryError}
    (h : (request o result db).1 = .error e) (hanswers : o.Answers) :
    (request o result db).2 = db := by
  refine request_not_executed ?_
  rintro (haccepted | hlost)
  · rw [request, haccepted] at h
    cases h
  · cases hrejects : o.rejects with
    | none =>
      rw [request, hrejects] at h
      cases h
    | some message =>
      have hkept := hanswers (Option.isSome_of_eq_some hrejects)
      rw [hlost] at hkept
      cases hkept

theorem handle_effect (a : Call) (o : Oracle) (db : Db) : Effect db a (handle a o db).2 := by
  have idle : Effect db a { db with clock := db.clock + o.took } := .idle a _
  cases a with
  | now => exact idle
  | randomUUID => exact idle
  | create params =>
    simp only [handle, create]
    split
    · exact idle
    · rename_i cases hins
      exact request_rule (.created _ rfl hins) idle
  | findById id => exact request_rule idle idle
  | update id params => exact request_rule (.updated id params _) idle
  | findStuckTransactions maxAgeMs => exact request_rule idle idle
  | perform action recoveryCase => exact .performed action recoveryCase _

end NexoraGateway.Recovery
