import NexoraGateway.Worker.Calls

/-!
# The job handlers (`worker/src/job-handlers.ts`, `worker/src/job-types.ts`)

Each handler reads what it needs from the job's payload and calls the service. A payload is read back from
the database, where a date is a plain string.
-/
namespace NexoraGateway.Worker

open Async
open Jobs (JobRecord JsError Handlers)

/-- `QUEUE_DEPOSITS`. -/
def queueDeposits : String := "deposits"

/-- `JOB_DEPOSIT_RECORD`. -/
def jobDepositRecord : String := "deposit.record"

/-- `JOB_DEPOSIT_CONFIRM`. -/
def jobDepositConfirm : String := "deposit.confirm"

/-- `JOB_DEPOSIT_UNATTRIBUTED`. -/
def jobDepositUnattributed : String := "deposit.unattributed"

/-- job-handlers.ts:22. -/
def requireString (payload : Payload) (key : String) : Except JsError String :=
  match payload.get? key with
  | some (.str value) =>
    if value = "" then .error { message := "Job payload missing required string field \"" ++ key ++ "\"" }
    else .ok value
  | _ => .error { message := "Job payload missing required string field \"" ++ key ++ "\"" }

theorem requireString_ok {payload : Payload} {key value : String} (h : requireString payload key = .ok value) :
    payload.get? key = some (.str value) := by
  unfold requireString at h
  split at h
  · rename_i value' hget
    split at h
    · cases h
    · cases h
      exact hget
  · cases h

/-- job-handlers.ts:30. -/
def requireNumber (payload : Payload) (key : String) : Except JsError ℚ :=
  match payload.get? key with
  | some (.num value) => .ok value
  | _ => .error { message := "Job payload missing required numeric field \"" ++ key ++ "\"" }

/-- job-handlers.ts:45. -/
def handleDepositRecord (job : JobRecord) : Routine Unit := do
  let intentId ← Prog.ofExcept (requireString job.payload "intentId")
  let txHash ← Prog.ofExcept (requireString job.payload "txHash")
  let sourceChain ← Prog.ofExcept (requireString job.payload "sourceChain")
  let sourceAsset ← Prog.ofExcept (requireString job.payload "sourceAsset")
  let amount ← Prog.ofExcept (requireNumber job.payload "amount")
  let _ ← service (Intent.recordDeposit intentId txHash amount sourceChain sourceAsset)

/-- job-handlers.ts:73. -/
def handleDepositConfirm (job : JobRecord) : Routine Unit := do
  let intentId ← Prog.ofExcept (requireString job.payload "intentId")
  let confirmations ← Prog.ofExcept (requireNumber job.payload "confirmations")
  let _ ← service (Intent.confirmDeposit intentId confirmations)

/-- job-handlers.ts:93: it only logs. -/
def handleDepositUnattributed (_job : JobRecord) : Routine Unit := return

/-- `registerJobHandlers` (job-handlers.ts:107). -/
def jobHandlers : Handlers worker := fun jobType =>
  if jobType = jobDepositRecord then some handleDepositRecord
  else if jobType = jobDepositConfirm then some handleDepositConfirm
  else if jobType = jobDepositUnattributed then some handleDepositUnattributed
  else none

end NexoraGateway.Worker
