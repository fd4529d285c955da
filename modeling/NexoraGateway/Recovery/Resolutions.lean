import NexoraGateway.Async.Leases
import NexoraGateway.Async.Pool
import NexoraGateway.Recovery.Service

/-!
# How often a case is resolved (recovery.service.ts:234)

The package under any interleaving of its operations is the pool of `Op.task`s. `resolve` looks neither at the status
of its case nor at what was done for it before, and the `UPDATE` looks at the id alone, though the repository calls
this optimistic locking: a second `autoRefund` refunds again (`refunded_twice`). `paid_once_resolved` is what remains.

The invariant: the task that marks a case `RESOLVING` has a lease on it until it writes the result, with the permit to
pay if its action pays.
-/
namespace NexoraGateway.Recovery

open Async Store

abbrev Resolutions := Pool Call Answer RecoveryError Unit Db

/-- The action is a refund or a credit. -/
def ResolutionAction.pays : ResolutionAction → Bool
  | autoRefund | autoCredit => true
  | topUpLink | reQuote | feeBump | relayerAcceleration | other _ => false

/-- The refunds and credits that were executed for a case. -/
def Db.paid (db : Db) (caseId : Id) : Nat :=
  db.executions.countP fun e => e.action.pays && e.recoveryCase.id = caseId

def Db.statusOf (db : Db) (caseId : Id) : Option RecoveryStatus := (db.cases.find? caseId).map RecoveryCase.status

/-- A case is marked `RESOLVING` only if it is neither that nor `RESOLVED`, and for an action that pays only if nothing
was paid for it; and a result that is written is also answered. -/
def OneByOne (db : Db) : Call → Oracle → Prop
  | .update caseId params, o =>
    (params.status = some .resolving →
      db.statusOf caseId ≠ some .resolving ∧ db.statusOf caseId ≠ some .resolved ∧
        (params.resolutionAction.any ResolutionAction.pays = true → db.paid caseId = 0)) ∧
    (params.resolutionTxHash.isSome = true → o.Answers)
  | _, _ => True

instance (db : Db) (a : Call) (o : Oracle) : Decidable (OneByOne db a o) :=
  match a with
  | .update .. => inferInstanceAs (Decidable (_ ∧ _))
  | .now | .randomUUID | .create _ | .findById _ | .findStuckTransactions _ | .perform .. =>
    inferInstanceAs (Decidable True)

/-! ## Leases on cases -/

/-- Marking a case gives the lease, writing the result takes it, paying takes the permit. The failure is written last,
and nothing is done afterwards with the lease. -/
def leases : Protocol Call Answer (Option (Lease Id)) where
  ok lease
    | .update caseId params => params.status = some .resolving ∨ ∃ permit, lease = some ⟨caseId, permit⟩
    | .perform action recoveryCase => action.pays = true → lease = some ⟨recoveryCase.id, true⟩
    | _ => True
  rely
    | .findById caseId, r => ∀ row, r = .ok (some row) → row.id = caseId
    | _, _ => True
  next lease
    | .update caseId params, r =>
      if params.status = some .resolving then
        match r with
        | .ok (some _) => some ⟨caseId, params.resolutionAction.any ResolutionAction.pays⟩
        | _ => none
      else if params.resolutionTxHash.isSome then
        match r with
        | .ok (some _) => none
        | _ => lease
      else none
    | .perform action _, _ => if action.pays then lease.map fun l => ⟨l.key, false⟩ else lease
    | _, _ => lease

section
variable {lease : Option (Lease Id)} {caseId : Id} {params : UpdateRecoveryCaseParams} {recoveryCase : RecoveryCase}
  {action : ResolutionAction} {permit : Bool}

/-- An update: the case is looked up, then written; if there is no such row, that is an error. -/
theorem updateCase_obeys {Q : Option (Lease Id) → Except RecoveryError RecoveryCase → Prop}
    (hok : leases.ok lease (.update caseId params)) (hunread : ∀ e, Q lease (.error e))
    (hwritten : ∀ row, Q (leases.next lease (.update caseId params) (.ok (some row))) (.ok row))
    (hunwritten : ∀ e, Q (leases.next lease (.update caseId params) (.ok none)) (.error e)) :
    (updateCase caseId params).Obeys leases Q lease := by
  refine Prog.Obeys.bind (Prog.obeys_await.2 ⟨trivial, fun existing _ => ?_⟩)
  rcases existing with e | _ | row
  · exact hunread e
  · exact hunread _
  · refine Prog.Obeys.bind (Prog.obeys_await.2 ⟨hok, fun r _ => ?_⟩)
    rcases r with e | _ | row
    · exact hunwritten e
    · exact hunwritten _
    · exact hwritten row

/-- A call that neither updates nor pays. -/
def Call.Aside : Call → Prop
  | .update .. => False
  | .perform action _ => action.pays = false
  | _ => True

/-- A program of such calls leaves the lease as it is. -/
theorem obeys_aside {α : Type} {p : Task α} (hp : p.Only Call.Aside fun _ => True) :
    p.Obeys leases (fun lease' _ => lease' = lease) lease := by
  refine hp.obeys_still fun a ha => ?_
  cases a with
  | update => exact ha.elim
  | perform action recoveryCase =>
    have haside : action.pays = false := ha
    exact ⟨fun hpays => absurd (haside.symm.trans hpays) Bool.false_ne_true, fun r => by simp [leases, haside]⟩
  | now | randomUUID | create | findById | findStuckTransactions => exact ⟨trivial, fun _ => rfl⟩

theorem generateTopUpLink_aside (service : RecoveryService) :
    (generateTopUpLink service caseId).Only Call.Aside fun _ => True := by
  refine Prog.Only.bind (Prog.Only.await trivial) fun found => ?_
  cases found with
  | none => exact Prog.Only.ret none
  | some recoveryCase =>
    dsimp only
    split
    · exact Prog.Only.ret none
    · exact Prog.Only.ret none

/-- The task has the lease on a case, with or without the permit. -/
def Holds (caseId : Id) (lease : Option (Lease Id)) : Prop := ∃ permit, lease = some ⟨caseId, permit⟩

/-- An action is performed, under the lease and with the permit if it pays, and nothing else happens. -/
theorem perform_obeys {f : Unit → Task ResolutionResult} (hf : (f ()).Only Call.Aside fun _ => True) :
    ((Task.perform action recoveryCase).bind f).Obeys leases (fun lease _ => Holds recoveryCase.id lease)
      (some ⟨recoveryCase.id, action.pays⟩) := by
  refine Prog.Obeys.bind (Prog.obeys_await.2 ⟨fun hpays => by rw [hpays], fun r _ => ?_⟩)
  have hnext : Holds recoveryCase.id
      (leases.next (some ⟨recoveryCase.id, action.pays⟩) (.perform action recoveryCase) r) := by
    by_cases hpays : action.pays = true
    · exact ⟨false, if_pos hpays⟩
    · exact ⟨action.pays, if_neg hpays⟩
  cases r with
  | error e => exact hnext
  | ok done => exact (obeys_aside hf).mono fun lease _ hlease => hlease ▸ hnext

theorem execute_obeys (service : RecoveryService) (action : ResolutionAction) (recoveryCase : RecoveryCase) :
    (execute service action recoveryCase).Obeys leases (fun lease _ => Holds recoveryCase.id lease)
      (some ⟨recoveryCase.id, action.pays⟩) := by
  cases action with
  | autoRefund =>
    simp only [execute, executeAutoRefund]
    split
    · exact ⟨_, rfl⟩
    · exact perform_obeys (Prog.Only.bind (Prog.Only.await trivial) fun uuid => Prog.Only.ret _)
  | relayerAcceleration =>
    simp only [execute, executeRelayerAcceleration]
    split
    · exact ⟨_, rfl⟩
    · exact perform_obeys (Prog.Only.bind (Prog.Only.await trivial) fun uuid => Prog.Only.ret _)
  | topUpLink =>
    refine (obeys_aside (Prog.Only.bind (generateTopUpLink_aside service) fun link => ?_)).mono
      fun lease _ hlease => ⟨_, hlease⟩
    cases link with
    | none => exact Prog.Only.ret _
    | some link => exact Prog.Only.ret _
  | autoCredit => exact perform_obeys (Prog.Only.ret _)
  | reQuote => exact perform_obeys (Prog.Only.ret _)
  | feeBump => exact perform_obeys (Prog.Only.ret _)
  | other name => exact ⟨_, rfl⟩

theorem resolvedAt_aside (result : ResolutionResult) : (resolvedAt result).Only Call.Aside fun _ => True := by
  unfold resolvedAt
  split
  · exact Prog.Only.bind (Prog.Only.await trivial) fun now => Prog.Only.ret _
  · exact Prog.Only.ret _

/-- A failure is written last. -/
theorem fail_obeys {α : Type} (hlease : Holds caseId lease) (result : α) :
    ((updateCase caseId { status := some .failed }).bind fun _ => .ret result).Obeys leases (fun _ _ => True) lease :=
  Prog.Obeys.bind (updateCase_obeys (.inr hlease) (fun _ => trivial) (fun _ => trivial) fun _ => trivial)

/-- Under any lease a resolution may begin: marking its case, it forgets the one it had. -/
theorem resolve_obeys (service : RecoveryService) (caseId : Id) (action : ResolutionAction) :
    (resolve service caseId action).Obeys leases (fun _ _ => True) lease := by
  refine Prog.Obeys.bind (Prog.obeys_await.2 ⟨trivial, fun found hfound => ?_⟩)
  rcases found with e | _ | recoveryCase
  · trivial
  · trivial
  obtain rfl : recoveryCase.id = caseId := hfound recoveryCase rfl
  refine Prog.Obeys.bind (updateCase_obeys (.inl rfl) (fun _ => trivial) (fun row => ?_) fun _ => trivial)
  have hexecuted := execute_obeys service action recoveryCase
  refine Prog.Obeys.tryCatch (Prog.Obeys.bind (hexecuted.mono fun lease out hlease => ?_))
  cases out with
  | error e => exact fail_obeys hlease _
  | ok result =>
    refine Prog.Obeys.bind ((obeys_aside (resolvedAt_aside result)).mono fun lease' out hsame => ?_)
    subst hsame
    cases out with
    | error e => exact fail_obeys hlease _
    | ok resolvedAt =>
      have hstatus : ¬ some (if result.success = true then RecoveryStatus.resolved else .failed) = some .resolving := by
        split <;> decide
      refine Prog.Obeys.bind
        (updateCase_obeys (.inr hlease) (fun e => fail_obeys hlease _) (fun _ => trivial) fun e => ?_)
      -- a result that is not written leaves the lease for the failure
      refine fail_obeys ?_ _
      simp only [leases, if_neg hstatus]
      exact hlease

/-- So does one stuck case after the other. -/
theorem processStuck_obeys (service : RecoveryService) (cases : List RecoveryCase) (processed : Nat) :
    (processStuck service cases processed).Obeys leases (fun _ _ => True) lease := by
  induction cases generalizing processed lease with
  | nil => trivial
  | cons stuckCase rest ih =>
    have hresolve : (resolve service stuckCase.id .relayerAcceleration).Obeys leases (fun _ _ => True) lease :=
      resolve_obeys service stuckCase.id .relayerAcceleration
    refine Prog.Obeys.bind (Prog.Obeys.tryCatch (Prog.Obeys.bind (hresolve.mono fun lease' out _ => ?_)))
    cases out with
    | error e => exact ih _
    | ok result => exact ih _

theorem op_obeys (service : RecoveryService) (op : Op) (lease : Option (Lease Id)) :
    (op.task service).Obeys leases (fun _ _ => True) lease := by
  have hdone {α : Type} {p : Task α} (hp : p.Obeys leases (fun _ _ => True) lease) :
      (p.bind fun _ => .ret ()).Obeys leases (fun _ _ => True) lease :=
    Prog.Obeys.bind (hp.mono fun _ out _ => by cases out <;> trivial)
  cases op with
  | detect caseType params => exact hdone (Prog.obeys_await.2 ⟨trivial, fun _ _ => trivial⟩)
  | resolve caseId action => exact hdone (resolve_obeys service caseId action)
  | autoRefund caseId => exact hdone (resolve_obeys service caseId .autoRefund)
  | autoCredit caseId => exact hdone (resolve_obeys service caseId .autoCredit)
  | processStuckTransactions =>
    refine hdone (Prog.Obeys.bind (Prog.obeys_await.2 ⟨trivial, fun found _ => ?_⟩))
    cases found with
    | error e => trivial
    | ok stuckCases => exact processStuck_obeys service stuckCases 0

end

/-! ## What a call does to a case -/

section
variable {db db' : Db} {a : Call} {o : Oracle} {caseId : Id} {params : UpdateRecoveryCaseParams} {row : RecoveryCase}
  {lease : Option (Lease Id)} {gs₁ gs₂ : List (Option (Lease Id))}

/-- Only an update of a case changes it. -/
theorem Effect.find? (h : Effect db a db') (hrow : db.cases.find? caseId = some row)
    (hother : ∀ params, a ≠ .update caseId params) : db'.cases.find? caseId = some row := by
  cases h with
  | @created params new cases clock hstatus hins =>
    have hnew : new.id ≠ caseId := by
      rintro rfl
      have hfree := Table.insert?_isSome.1 (Option.isSome_iff_exists.2 ⟨cases, hins⟩)
      cases hrow.symm.trans hfree
    rw [Table.find?_insert? hins, if_neg hnew, hrow]
  | updated id params clock =>
    have hid : ¬ row.id = id := fun hid => by
      obtain rfl := (Table.find?_eq_some.1 hrow).2
      exact hother params (by rw [hid])
    rw [Table.find?_updateWhere, hrow, Option.map_some, if_neg (by simpa using hid)]
  | idle | performed => exact hrow

theorem statusOf_eq_some {status : RecoveryStatus} :
    db.statusOf caseId = some status ↔ ∃ row, db.cases.find? caseId = some row ∧ row.status = status :=
  Option.map_eq_some_iff

theorem Effect.statusOf {status : RecoveryStatus} (h : Effect db a db') (hstatus : db.statusOf caseId = some status)
    (hother : ∀ params, a ≠ .update caseId params) : db'.statusOf caseId = some status := by
  obtain ⟨row, hrow, hs⟩ := statusOf_eq_some.1 hstatus
  exact statusOf_eq_some.2 ⟨row, h.find? hrow hother, hs⟩

/-- Only what is performed pays. -/
theorem Effect.paid (h : Effect db a db') (hother : ∀ action recoveryCase, a ≠ .perform action recoveryCase) :
    db'.paid = db.paid := by
  cases h with
  | performed action recoveryCase => exact absurd rfl (hother action recoveryCase)
  | idle | created | updated => rfl

/-- An update answers the row as it has written it. -/
theorem update_answer {answer : Option RecoveryCase} (h : (handle (.update caseId params) o db).1 = .ok answer) :
    (handle (.update caseId params) o db).2.cases.find? caseId = answer ∧
      answer = (db.cases.find? caseId).map (params.set (db.clock + o.took)) := by
  have hanswer : (db.cases.returning (fun row => row.id = caseId) (params.set (db.clock + o.took))).head? =
      (db.cases.find? caseId).map (params.set (db.clock + o.took)) := by
    rw [Table.returning, List.head?_map, List.head?_filter]
    rfl
  obtain ⟨hdone, rfl⟩ := request_ok h
  refine ⟨?_, hanswer⟩
  have hstored : (handle (.update caseId params) o db).2 = _ := hdone
  rw [hstored, hanswer, Table.find?_updateWhere]
  refine Option.map_congr fun row hrow => if_pos ?_
  simpa using (Table.find?_eq_some.1 hrow).2

/-- An update that is not answered was not executed, or its answer is lost. -/
theorem update_error {e : RecoveryError} (h : (handle (.update caseId params) o db).1 = .error e)
    (hanswers : o.Answers) :
    (handle (.update caseId params) o db).2 = { db with clock := db.clock + o.took } :=
  request_error h hanswers

theorem findById_answer {answer : Option RecoveryCase} (h : (handle (.findById caseId) o db).1 = .ok answer) :
    db.cases.find? caseId = answer :=
  (request_ok h).2

theorem paid_performed {action : ResolutionAction} {recoveryCase : RecoveryCase} (j : Id) :
    (handle (.perform action recoveryCase) o db).2.paid j =
      db.paid j + if action.pays && recoveryCase.id = j then 1 else 0 := by
  simp only [handle, Db.paid, List.countP_append, List.countP_singleton]

/-! ## The invariant -/

/-- A case is leased only while it is `RESOLVING`, and paid for at most once. -/
def Sound (db : Db) : List (Option (Lease Id)) → Prop :=
  Lease.Exclusive (fun caseId => db.statusOf caseId = some .resolving) db.paid

/-- What an update does to the other cases, and to what was paid. -/
theorem update_others (j : Id) (hj : j ≠ caseId) (hheld : db.statusOf j = some .resolving) :
    (handle (.update caseId params) o db).2.statusOf j = some .resolving :=
  (handle_effect (.update caseId params) o db).statusOf hheld fun _ he => by
    cases he
    exact hj rfl

theorem update_paid : (handle (.update caseId params) o db).2.paid = db.paid :=
  (handle_effect (.update caseId params) o db).paid fun _ _ he => by cases he

/-- Marking a case that nobody holds, and for which nothing was paid if the permit goes with it. -/
theorem mark_sound (h : Sound db (gs₁ ++ lease :: gs₂)) (hmark : params.status = some .resolving)
    (hone : OneByOne db (.update caseId params) o) :
    Sound (handle (.update caseId params) o db).2
      (gs₁ ++ leases.next lease (.update caseId params) (handle (.update caseId params) o db).1 :: gs₂) := by
  obtain ⟨hfree, -, hunpaid⟩ := hone.1 hmark
  have hkeep (j : Id) (hheld : db.statusOf j = some .resolving) :
      (handle (.update caseId params) o db).2.statusOf j = some .resolving :=
    update_others j (fun hj => hfree (hj ▸ hheld)) hheld
  unfold Sound
  rw [update_paid]
  simp only [leases, if_pos hmark]
  split
  · rename_i row hanswer
    obtain ⟨hfind, hset⟩ := update_answer hanswer
    refine h.take hfree (statusOf_eq_some.2 ⟨row, hfind, ?_⟩) hkeep hunpaid
    obtain ⟨old, -, rfl⟩ := Option.map_eq_some_iff.1 hset.symm
    rw [set_status, hmark, Option.getD_some]
  · exact h.drop.mono hkeep fun _ => Nat.le_refl _

/-- A result that is not answered was not written, for the case is there. -/
theorem unwritten (hheld : db.statusOf caseId = some .resolving) (hanswers : o.Answers)
    (hno : ∀ row, (handle (.update caseId params) o db).1 ≠ .ok (some row)) :
    (handle (.update caseId params) o db).2 = { db with clock := db.clock + o.took } := by
  cases hanswer : (handle (.update caseId params) o db).1 with
  | error e => exact update_error hanswer hanswers
  | ok answer =>
    obtain ⟨row, hrow, -⟩ := statusOf_eq_some.1 hheld
    rw [(update_answer hanswer).2, hrow] at hanswer
    exact absurd hanswer (hno _)

theorem update_sound (h : Sound db (gs₁ ++ lease :: gs₂)) (hok : leases.ok lease (.update caseId params))
    (hone : OneByOne db (.update caseId params) o) :
    Sound (handle (.update caseId params) o db).2
      (gs₁ ++ leases.next lease (.update caseId params) (handle (.update caseId params) o db).1 :: gs₂) := by
  by_cases hmark : params.status = some .resolving
  · exact mark_sound h hmark hone
  · obtain ⟨permit, rfl⟩ := hok.resolve_left hmark
    have hrelease : Sound (handle (.update caseId params) o db).2 (gs₁ ++ none :: gs₂) := by
      unfold Sound
      rw [update_paid]
      exact h.release update_others
    simp only [leases, if_neg hmark]
    split
    · rename_i hresult
      split
      · exact hrelease
      · rename_i hunwritten
        rw [unwritten h.held_of_lease (hone.2 hresult) hunwritten]
        exact h
    · exact hrelease

theorem handle_sound (h : Sound db (gs₁ ++ lease :: gs₂)) (hok : leases.ok lease a) (hone : OneByOne db a o) :
    leases.rely a (handle a o db).1 ∧
      Sound (handle a o db).2 (gs₁ ++ leases.next lease a (handle a o db).1 :: gs₂) := by
  have heff := handle_effect a o db
  have haside (hpaid : (handle a o db).2.paid = db.paid) (hother : ∀ caseId params, a ≠ .update caseId params) :
      Sound (handle a o db).2 (gs₁ ++ lease :: gs₂) :=
    h.mono (fun j hj => heff.statusOf hj (hother j)) fun j => by rw [hpaid]
  cases a with
  | update caseId params => exact ⟨trivial, update_sound h hok hone⟩
  | findById caseId =>
    refine ⟨fun row hanswer => ?_, haside (heff.paid fun _ _ he => by cases he) fun _ _ he => by cases he⟩
    exact (Table.find?_eq_some.1 (findById_answer hanswer)).2
  | perform action recoveryCase =>
    refine ⟨trivial, ?_⟩
    simp only [leases]
    split
    · rename_i hpays
      obtain rfl : lease = some ⟨recoveryCase.id, true⟩ := hok hpays
      exact h.spend fun j => (paid_performed j).trans_le (Nat.add_le_add_left (by simp [hpays, eq_comm]) _)
    · rename_i hpays
      exact h.mono (fun _ hj => hj) fun j => (paid_performed j).trans_le (by simp [hpays])
  | now | randomUUID | create | findStuckTransactions =>
    exact ⟨trivial, haside (heff.paid fun _ _ he => by cases he) fun _ _ he => by cases he⟩

/-- The case is `RESOLVED`, with this transaction. -/
def Db.ResolvedBy (db : Db) (caseId : Id) (txHash : Option Id) : Prop :=
  ∃ row ∈ db.cases.find? caseId, row.status = .resolved ∧ row.resolutionTxHash = txHash

instance (db : Db) (caseId : Id) (txHash : Option Id) : Decidable (db.ResolvedBy caseId txHash) :=
  inferInstanceAs (Decidable (∃ row ∈ _, _))

/-- No update is made of a case that is `RESOLVED`. -/
theorem handle_resolved {txHash : Option Id} (h : Sound db (gs₁ ++ lease :: gs₂)) (hok : leases.ok lease a)
    (hone : OneByOne db a o) (hresolved : db.ResolvedBy caseId txHash) :
    (handle a o db).2.ResolvedBy caseId txHash := by
  obtain ⟨row, hrow, hstatus, htx⟩ := hresolved
  have hdone : db.statusOf caseId = some .resolved := statusOf_eq_some.2 ⟨row, hrow, hstatus⟩
  refine ⟨row, (handle_effect a o db).find? hrow ?_, hstatus, htx⟩
  rintro params rfl
  rcases hok with hmark | ⟨permit, rfl⟩
  · exact (hone.1 hmark).2.1 hdone
  · cases hdone.symm.trans h.held_of_lease

end

/-- **A case is paid for at most once and stays as it was resolved**, in every run of the service in which a case is
marked `RESOLVING` only if it is neither that nor `RESOLVED` nor, for an action that pays, paid for, and in which the
answer of a written result is not lost. -/
theorem paid_once_resolved (service : RecoveryService) (w : Resolutions) (htasks : w.tasks = [])
    (hexecutions : w.store.executions = []) (cs later : List (Choice Call Answer RecoveryError Unit Oracle))
    (hops : ∀ p, .spawn p ∈ cs ++ later → ∃ op : Op, p = op.task service)
    (hcs : w.Careful handle OneByOne (cs ++ later)) (caseId : Id) (txHash : Option Id) :
    (w.exec handle (cs ++ later)).store.paid caseId ≤ 1 ∧
      ((w.exec handle cs).store.ResolvedBy caseId txHash →
        (w.exec handle (cs ++ later)).store.ResolvedBy caseId txHash) := by
  have hspawn {I : Db → List (Option (Lease Id)) → Prop} (hgrow : ∀ db gs, I db gs → I db (gs ++ [none]))
      (p : Task Unit) (hp : ∃ op : Op, p = op.task service) :
      ∃ lease, p.Obeys leases (fun _ _ => True) lease ∧ ∀ db gs, I db gs → I db (gs ++ [lease]) := by
    obtain ⟨op, rfl⟩ := hp
    exact ⟨none, op_obeys service op none, hgrow⟩
  obtain ⟨hfirst, hlater⟩ := Pool.careful_append.1 hcs
  have hinit : w.GhostInv leases Sound := by
    refine ⟨[], by rw [htasks]; exact .nil, Lease.Exclusive.nil fun j => ?_⟩
    simp [Db.paid, hexecutions]
  have hmid : (w.exec handle cs).GhostInv leases Sound :=
    Pool.exec_careful_inv (hspawn (I := Sound) fun db gs h => h.grow)
      (fun db gs₁ lease gs₂ a o => handle_sound) hinit (fun p hp => hops p (List.mem_append_left _ hp)) hfirst
  obtain ⟨leases₀, hobey, hsound⟩ := hmid
  rw [Pool.exec_append]
  have hend : ((w.exec handle cs).exec handle later).GhostInv leases fun db gs =>
      Sound db gs ∧ ((w.exec handle cs).store.ResolvedBy caseId txHash → db.ResolvedBy caseId txHash) := by
    refine Pool.exec_careful_inv (hspawn fun db gs h => ⟨h.1.grow, h.2⟩)
      (fun db gs₁ lease gs₂ a o h hok hone => ?_) ⟨leases₀, hobey, hsound, id⟩
      (fun p hp => hops p (List.mem_append_right _ hp)) hlater
    obtain ⟨hrely, hsound'⟩ := handle_sound h.1 hok hone
    exact ⟨hrely, hsound', fun hresolved => handle_resolved h.1 hok hone (h.2 hresolved)⟩
  obtain ⟨leases₁, -, hsound₁, hresolved⟩ := hend
  exact ⟨Nat.le_trans (Nat.le_add_right _ _) (hsound₁.once caseId), hresolved⟩

/-! ## Two refunds of an overpayment -/

def overpayment : RecoveryCase :=
  { id := "case", relatedIntentId := some "pi", caseType := .overpaid, customerAddress := "0xabc", customerChain := "1"
    intendedChain := "1", asset := "USDC", amount := 120, txHash := some "0x01", createdAt := 0, updatedAt := 0 }

def ethereum : RecoveryService := { chainClients := fun chain => if chain = "1" then some ⟨fun _ => true⟩ else none }

def oneCase : Resolutions := ⟨⟨⟨[overpayment], by decide⟩, [], 0⟩, []⟩

/-- An operation as task `i`, which runs to its end with one UUID. -/
def running (i : Nat) (op : Op) (uuid : Id) : List (Choice Call Answer RecoveryError Unit Oracle) :=
  .spawn (op.task ethereum) :: List.replicate 8 (.step i { uuid })

/-- The rule on a refund, after which stuck transactions are looked for. -/
theorem paid_once_resolved_refund :
    (oneCase.exec handle (running 0 (.autoRefund "case") "aa-1" ++ running 1 .processStuckTransactions "bb")).store.paid
        "case" ≤ 1 ∧
      ((oneCase.exec handle (running 0 (.autoRefund "case") "aa-1")).store.ResolvedBy "case" (some "0xaa1") →
        (oneCase.exec handle (running 0 (.autoRefund "case") "aa-1" ++
          running 1 .processStuckTransactions "bb")).store.ResolvedBy "case" (some "0xaa1")) := by
  refine paid_once_resolved ethereum oneCase rfl rfl _ _ (fun p hp => ?_) (by decide +kernel) "case" _
  simp only [running, List.replicate, List.cons_append, List.nil_append, List.mem_cons, Choice.spawn.injEq,
    reduceCtorEq, List.not_mem_nil, or_false, false_or] at hp
  rcases hp with rfl | rfl
  · exact ⟨_, rfl⟩
  · exact ⟨_, rfl⟩

/-- A case that was refunded is refunded again, and its transaction is another one. -/
theorem refunded_twice :
    (oneCase.exec handle (running 0 (.autoRefund "case") "aa-1" ++ running 1 (.autoRefund "case") "bb-2")).store.paid
        "case" = 2 ∧
      (oneCase.exec handle (running 0 (.autoRefund "case") "aa-1")).store.ResolvedBy "case" (some "0xaa1") ∧
      ¬ (oneCase.exec handle (running 0 (.autoRefund "case") "aa-1" ++
        running 1 (.autoRefund "case") "bb-2")).store.ResolvedBy "case" (some "0xaa1") := by
  decide +kernel

end NexoraGateway.Recovery
