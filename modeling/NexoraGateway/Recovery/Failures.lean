import NexoraGateway.Recovery.Resolutions

/-!
# Failures inside a resolution (recovery.service.ts:234)

`resolve` marks the case `RESOLVING`, acts, and writes the result; one `catch` around the last two writes `FAILED`,
and the mark is outside of it. `resolve_kept_iff` is what a resolution leaves behind whatever queries fail in it, of
which a single failure is an instance.

The calls of a resolution are numbered from 0: the lookup is call 0, the mark calls 1 and 2 (`update` looks the case up
first), the action begins with call 3, and its transaction gets its hash from the UUID of call 4.

* `refusal`, `attemptRefusal` — which query fails first, in one `update` and inside the `try`.
* `resultAt` — the call with which the writing of the result begins.
-/
namespace NexoraGateway.Recovery

open Async Store

/-- The first query that is rejected of the two of an `update` that begins with call `n`. -/
def refusal (ω : Nat → Oracle) (n : Nat) : Option Nat :=
  if (ω n).rejects ≠ none then some n else if (ω (n + 1)).rejects ≠ none then some (n + 1) else none

/-- The action is a transaction on a chain that has a client. -/
def sends (service : RecoveryService) (row : RecoveryCase) : ResolutionAction → Bool
  | .autoRefund | .relayerAcceleration => (service.chainClients row.customerChain).isSome
  | .autoCredit | .topUpLink | .reQuote | .feeBump | .other _ => false

/-- The call with which the writing of the result begins. -/
def resultAt (service : RecoveryService) (row : RecoveryCase) : ResolutionAction → Nat
  | .autoRefund | .relayerAcceleration => if (service.chainClients row.customerChain).isSome then 6 else 3
  | .autoCredit | .reQuote | .feeBump => 5
  | .topUpLink => 4
  | .other _ => 3

/-- The first query that is rejected inside the `try`: the lookup for a top-up link, or one of the result's. -/
def attemptRefusal (service : RecoveryService) (ω : Nat → Oracle) (row : RecoveryCase) (action : ResolutionAction) :
    Option Nat :=
  if action = .topUpLink ∧ (ω 3).rejects ≠ none then some 3 else refusal ω (resultAt service row action)

/-- Neither the lookup nor the mark fails; and if something inside the `try` does, then the failure is written and no
transaction was sent. -/
def Survives (service : RecoveryService) (ω : Nat → Oracle) (row : RecoveryCase) (action : ResolutionAction) : Prop :=
  (ω 0).rejects = none ∧ refusal ω 1 = none ∧
    ∀ k ∈ attemptRefusal service ω row action, refusal ω (k + 1) = none ∧ sends service row action = false

instance (service : RecoveryService) (ω : Nat → Oracle) (row : RecoveryCase) (action : ResolutionAction) :
    Decidable (Survives service ω row action) :=
  inferInstanceAs (Decidable (_ ∧ _ ∧ ∀ k ∈ _, _))

/-- What `findStuckTransactions` looks for. -/
def RecoveryCase.Awaits (row : RecoveryCase) : Prop := row.status = .detected ∨ row.status = .verifying

/-- A refund or an acceleration was executed. -/
def Sent (db db' : Db) : Prop :=
  ∃ e, db'.executions = db.executions ++ [e] ∧ (e.action = .autoRefund ∨ e.action = .relayerAcceleration)

/-- A result is returned, the case is not left `RESOLVING`, and if a transaction was sent then the case records it and
is neither left `FAILED` nor to be picked up again. -/
structure Kept (ω : Nat → Oracle) (db : Db) (caseId : Id) (out : Except RecoveryError ResolutionResult × Nat × Db) :
    Prop where
  returned : ∃ result, out.1 = .ok result
  left : ∀ row, out.2.2.cases.find? caseId = some row → row.status ≠ .resolving
  recorded : Sent db out.2.2 → ∃ row, out.2.2.cases.find? caseId = some row ∧
    row.resolutionTxHash = some (hexOf (ω 4).uuid 64) ∧ row.status ≠ .failed ∧ ¬ row.Awaits

/-! ## The parts of a resolution -/

section
variable {service : RecoveryService} {ω : Nat → Oracle} {db : Db} {row : RecoveryCase} {caseId : Id}
  {params : UpdateRecoveryCaseParams} {action : ResolutionAction} {n k : Nat}

theorem findById_answered (caseId : Id) (db : Db) (hn : (ω n).rejects = none) :
    handle (.findById caseId) (ω n) db = (.ok (db.cases.find? caseId), { db with clock := db.clock + (ω n).took }) := by
  simp only [handle, findById, request, hn, Option.map_none, Store.request]
  rfl

theorem findById_refused (caseId : Id) (db : Db) (hn : (ω n).rejects ≠ none) : ∃ e,
    handle (.findById caseId) (ω n) db = (.error e, { db with clock := db.clock + (ω n).took }) := by
  obtain ⟨message, hrejects⟩ := Option.ne_none_iff_exists'.1 hn
  refine ⟨.rejected message, ?_⟩
  simp only [handle, findById, request, hrejects, Option.map_some, Store.request, ite_self]
  rfl

theorem refusal_eq_none : refusal ω n = none ↔ (ω n).rejects = none ∧ (ω (n + 1)).rejects = none := by
  simp [refusal, ite_eq_iff]

theorem refusal_eq_some : refusal ω n = some k ↔
    ((ω n).rejects = none ∧ (ω (n + 1)).rejects ≠ none ∧ n + 1 = k) ∨ ((ω n).rejects ≠ none ∧ n = k) := by
  simp [refusal, ite_eq_iff]

theorem executions_update {o : Oracle} : (handle (.update caseId params) o db).2.executions = db.executions :=
  request_rule (P := fun db' : Db => db'.executions = db.executions) rfl rfl

/-- An update has written the case or not. -/
theorem update_written (params : UpdateRecoveryCaseParams) (o : Oracle) (hrow : db.cases.find? caseId = some row) :
    ∃ row', (handle (.update caseId params) o db).2.cases.find? caseId = some row' ∧
      (row' = row ∨ ∃ now, row' = params.set now row) := by
  refine request_rule (P := fun db' : Db => ∃ row', db'.cases.find? caseId = some row' ∧
    (row' = row ∨ ∃ now, row' = params.set now row)) ⟨params.set (db.clock + o.took) row, ?_, .inr ⟨_, rfl⟩⟩
    ⟨row, hrow, .inl rfl⟩
  rw [Table.find?_updateWhere, hrow, Option.map_some, if_pos]
  simpa using (Table.find?_eq_some.1 hrow).2

/-- An update of a case that is there. -/
def writeCase (caseId : Id) (params : UpdateRecoveryCaseParams) : Task RecoveryCase := do
  let some row ← Task.update caseId params | throw (.notFoundAfterUpdate caseId)
  return row

theorem updateCase_found (hrow : db.cases.find? caseId = some row) (hn : (ω n).rejects = none) :
    (updateCase caseId params).run handle ω n db =
      (writeCase caseId params).run handle ω (n + 1) { db with clock := db.clock + (ω n).took } := by
  have hlookup := findById_answered caseId db hn
  rw [hrow] at hlookup
  exact (Prog.run_await_bind_of_ok ω hlookup _).trans rfl

/-- An update that is answered has written the case. -/
theorem updateCase_answered (params : UpdateRecoveryCaseParams) (hrow : db.cases.find? caseId = some row)
    (hn : refusal ω n = none) :
    ∃ now db', (updateCase caseId params).run handle ω n db = (.ok (params.set now row), n + 2, db') ∧
      db'.cases.find? caseId = some (params.set now row) ∧ db'.executions = db.executions := by
  obtain ⟨hfind, hupdate⟩ := refusal_eq_none.1 hn
  rw [updateCase_found hrow hfind]
  let later : Db := { db with clock := db.clock + (ω n).took }
  have hanswer : (handle (.update caseId params) (ω (n + 1)) later).1 =
      .ok (some (params.set (later.clock + (ω (n + 1)).took) row)) := by
    simp only [handle, update, request, hupdate, Option.map_none, Store.request]
    rw [Table.returning_of_find? hrow]
    rfl
  obtain ⟨hfind', -⟩ := update_answer hanswer
  refine ⟨_, _, ?_, hfind', executions_update⟩
  exact Prog.run_await_bind_of_ok ω (Prod.ext hanswer rfl) _

/-- One that is refused has written the case or not, and its error comes with the next call. -/
theorem updateCase_refused (params : UpdateRecoveryCaseParams) (hrow : db.cases.find? caseId = some row)
    (hn : refusal ω n = some k) :
    ∃ e db' row', (updateCase caseId params).run handle ω n db = (.error e, k + 1, db') ∧
      db'.cases.find? caseId = some row' ∧ (row' = row ∨ ∃ now, row' = params.set now row) ∧
      db'.executions = db.executions := by
  rcases refusal_eq_some.1 hn with ⟨hfind, hupdate, rfl⟩ | ⟨hfind, rfl⟩
  · rw [updateCase_found hrow hfind]
    let later : Db := { db with clock := db.clock + (ω n).took }
    obtain ⟨message, hrejects⟩ := Option.ne_none_iff_exists'.1 hupdate
    have hanswer : (handle (.update caseId params) (ω (n + 1)) later).1 = .error (.rejected message) := by
      simp only [handle, update, request, hrejects, Option.map_some, Store.request]
      rfl
    have hfound : later.cases.find? caseId = some row := hrow
    obtain ⟨row', hrow', hwritten⟩ := update_written params (ω (n + 1)) hfound
    refine ⟨.rejected message, _, row', ?_, hrow', hwritten, executions_update⟩
    exact Prog.run_await_bind_of_error ω (Prod.ext hanswer rfl) _
  · obtain ⟨e, hlookup⟩ := findById_refused caseId db hfind
    exact ⟨e, _, row, Prog.run_await_bind_of_error ω hlookup _, hrow, .inl rfl, rfl⟩

theorem sent_performed {db' : Db} (h : db'.executions = db.executions ++ [⟨action, row⟩]) :
    Sent db db' ↔ action = .autoRefund ∨ action = .relayerAcceleration := by
  constructor
  · rintro ⟨e, he, haction⟩
    rw [h, List.append_cancel_left_eq, List.singleton_inj] at he
    rwa [← he] at haction
  · intro haction
    exact ⟨_, h, haction⟩

theorem not_sent {db' : Db} (h : db'.executions = db.executions) : ¬ Sent db db' := by
  rintro ⟨e, he, -⟩
  rw [h, List.self_eq_append_right] at he
  cases he

/-- No top-up link is made. -/
theorem topUpLink_run (service : RecoveryService) (db : Db) (row : RecoveryCase) (hanswered : (ω 3).rejects = none) :
    ∃ db', (executeTopUpLink service row).run handle ω 3 db =
      (.ok ⟨.topUpLink, false, none, .topUpLinkFailed⟩, 4, db') ∧ db'.cases = db.cases ∧
        db'.executions = db.executions := by
  have hfound := findById_answered row.id db hanswered
  have hlink : ∃ db', (generateTopUpLink service row.id).run handle ω 3 db = (.ok none, 4, db') ∧
      db'.cases = db.cases ∧ db'.executions = db.executions := by
    refine ⟨{ db with clock := db.clock + (ω 3).took }, (Prog.run_await_bind_of_ok ω hfound _).trans ?_, rfl, rfl⟩
    cases db.cases.find? row.id with
    | none => rfl
    | some recoveryCase =>
      dsimp only
      split
      · rfl
      · rfl
  obtain ⟨db', hrun, hcases, hexecutions⟩ := hlink
  exact ⟨db', Prog.run_bind_of_ok handle ω _ hrun, hcases, hexecutions⟩

/-- Nothing is said to be sent, and nothing was. -/
theorem unsent {db' : Db} {p : Prop} (h : ¬ Sent db db') : (Sent db db' ↔ false = true) ∧ (false = true → p) :=
  ⟨iff_of_false h Bool.false_ne_true, fun hsends => absurd hsends Bool.false_ne_true⟩

/-- An action is carried out, unless it is a top-up link that is refused its lookup. -/
theorem act_run {α : Type} (service : RecoveryService) (db : Db) (row : RecoveryCase)
    (hlookup : ¬ (action = .topUpLink ∧ (ω 3).rejects ≠ none)) (f : ResolutionResult → Option Time → Task α) :
    ∃ result date db', ((execute service action row).bind fun result => (resolvedAt result).bind (f result)).run handle
        ω 3 db = (f result date).run handle ω (resultAt service row action) db' ∧ db'.cases = db.cases ∧
      (Sent db db' ↔ sends service row action = true) ∧
      (sends service row action = true → result.success = true ∧ result.txHash = some (hexOf (ω 4).uuid 64)) := by
  cases action with
  | autoRefund =>
    cases hclient : service.chainClients row.customerChain with
    | none =>
      simp only [execute, executeAutoRefund, resultAt, sends, hclient]
      exact ⟨_, _, _, rfl, rfl, unsent (not_sent rfl)⟩
    | some chainClient =>
      simp only [execute, executeAutoRefund, resultAt, sends, hclient]
      exact ⟨_, _, _, rfl, rfl, iff_of_true ((sent_performed rfl).2 (.inl rfl)) rfl, fun _ => ⟨rfl, rfl⟩⟩
  | relayerAcceleration =>
    cases hclient : service.chainClients row.customerChain with
    | none =>
      simp only [execute, executeRelayerAcceleration, resultAt, sends, hclient]
      exact ⟨_, _, _, rfl, rfl, unsent (not_sent rfl)⟩
    | some chainClient =>
      simp only [execute, executeRelayerAcceleration, resultAt, sends, hclient]
      exact ⟨_, _, _, rfl, rfl, iff_of_true ((sent_performed rfl).2 (.inr rfl)) rfl, fun _ => ⟨rfl, rfl⟩⟩
  | topUpLink =>
    have hanswered : (ω 3).rejects = none := by simpa using hlookup
    obtain ⟨db', hrun, hcases, hexecutions⟩ := topUpLink_run service db row hanswered
    exact ⟨⟨.topUpLink, false, none, .topUpLinkFailed⟩, none, db', Prog.run_bind_of_ok handle ω _ hrun, hcases,
      unsent (not_sent hexecutions)⟩
  | autoCredit | reQuote | feeBump =>
    refine ⟨_, _, _, rfl, rfl, unsent ?_⟩
    exact mt (sent_performed rfl).1 (by decide)
  | other name => exact ⟨_, _, _, rfl, rfl, unsent (not_sent rfl)⟩

/-- What the result writes. -/
def ResolutionResult.updates (result : ResolutionResult) (date : Option Time) : UpdateRecoveryCaseParams :=
  { status := some (if result.success then .resolved else .failed), resolutionTxHash := some result.txHash
    resolvedAt := some date }

/-- The body of the `try`. -/
def attempt (service : RecoveryService) (action : ResolutionAction) (row : RecoveryCase) : Task ResolutionResult := do
  let result ← execute service action row
  let resolvedAt ← resolvedAt result
  let _ ← updateCase row.id (result.updates resolvedAt)
  pure result

/-- The `catch`. -/
def rescue (caseId : Id) (action : ResolutionAction) (error : RecoveryError) : Task ResolutionResult := do
  let _ ← updateCase caseId { status := some .failed }
  pure ⟨action, false, none, .error error.message⟩

/-- Where nothing is refused the result is written. -/
theorem attempt_answered {marked : RecoveryCase} (hmarked : db.cases.find? row.id = some marked)
    (h : attemptRefusal service ω row action = none) :
    ∃ result m db' row', (attempt service action row).run handle ω 3 db = (.ok result, m, db') ∧
      db'.cases.find? row.id = some row' ∧ (row'.status = .resolved ∨ row'.status = .failed) ∧
      (Sent db db' → row'.status = .resolved ∧ row'.resolutionTxHash = some (hexOf (ω 4).uuid 64)) := by
  unfold attemptRefusal at h
  split at h
  · cases h
  rename_i hlookup
  obtain ⟨result, date, acted, hrun, hcases, hsent, hresult⟩ := act_run service db row hlookup
    fun result date => (updateCase row.id (result.updates date)).bind fun _ => .ret result
  rw [← hcases] at hmarked
  obtain ⟨now, db', hwrite, hrow', hexecutions⟩ := updateCase_answered (result.updates date) hmarked h
  refine ⟨result, _, db', _, hrun.trans (Prog.run_bind_of_ok handle ω _ hwrite), hrow', ?_, fun hdone => ?_⟩
  · by_cases hsuccess : result.success = true
    · exact .inl (if_pos hsuccess)
    · exact .inr (if_neg hsuccess)
  · have hacted : Sent db acted := by rwa [Sent, ← hexecutions]
    obtain ⟨hsuccess, htxHash⟩ := hresult (hsent.1 hacted)
    exact ⟨if_pos hsuccess, htxHash⟩

/-- Where something is, the error comes with the next call, and what was executed is not undone. -/
theorem attempt_refused {marked : RecoveryCase} (hmarked : db.cases.find? row.id = some marked)
    (h : attemptRefusal service ω row action = some k) :
    ∃ e db' row', (attempt service action row).run handle ω 3 db = (.error e, k + 1, db') ∧
      db'.cases.find? row.id = some row' ∧ (Sent db db' ↔ sends service row action = true) := by
  unfold attemptRefusal at h
  split at h
  · rename_i hlookup
    obtain ⟨rfl, hrejects⟩ := hlookup
    obtain rfl := Option.some.inj h
    obtain ⟨e, hfound⟩ := findById_refused row.id db hrejects
    have hlink : (generateTopUpLink service row.id).run handle ω 3 db = _ := Prog.run_await_bind_of_error ω hfound _
    have hexecute : (executeTopUpLink service row).run handle ω 3 db = _ := Prog.run_bind_of_error handle ω _ hlink
    exact ⟨e, _, marked, Prog.run_bind_of_error handle ω _ hexecute, hmarked, iff_of_false (not_sent rfl) nofun⟩
  · rename_i hlookup
    obtain ⟨result, date, acted, hrun, hcases, hsent, -⟩ := act_run service db row hlookup
      fun result date => (updateCase row.id (result.updates date)).bind fun _ => .ret result
    rw [← hcases] at hmarked
    obtain ⟨e, db', row', hwrite, hrow', -, hexecutions⟩ :=
      updateCase_refused (result.updates date) hmarked h
    refine ⟨e, db', row', hrun.trans (Prog.run_bind_of_error handle ω _ hwrite), hrow', ?_⟩
    rwa [Sent, hexecutions]

theorem not_kept_of_error {e : RecoveryError} {m : Nat} {db' : Db} : ¬ Kept ω db caseId (.error e, m, db') := by
  rintro ⟨⟨result, hresult⟩, -, -⟩
  cases hresult

/-- What the `try` and its `catch` leave behind. -/
theorem guarded_kept_iff {marked : RecoveryCase} (hmarked : db.cases.find? row.id = some marked) :
    Kept ω db row.id (((attempt service action row).tryCatch (rescue row.id action)).run handle ω 3 db) ↔
      ∀ k ∈ attemptRefusal service ω row action, refusal ω (k + 1) = none ∧ sends service row action = false := by
  cases hattempt : attemptRefusal service ω row action with
  | none =>
    obtain ⟨result, m, db', row', hbody, hrow', hstatus, hsent⟩ := attempt_answered hmarked hattempt
    rw [Prog.run_tryCatch_of_ok handle ω _ hbody]
    refine iff_of_true ⟨⟨result, rfl⟩, fun last hlast => ?_, fun hdone => ?_⟩ nofun
    · obtain rfl := Option.some.inj (hrow'.symm.trans hlast)
      rcases hstatus with hstatus | hstatus
      · rw [hstatus]
        exact nofun
      · rw [hstatus]
        exact nofun
    · obtain ⟨hresolved, htxHash⟩ := hsent hdone
      refine ⟨row', hrow', htxHash, by rw [hresolved]; exact nofun, ?_⟩
      rw [RecoveryCase.Awaits, hresolved]
      exact nofun
  | some k =>
    obtain ⟨e, db', row', hbody, hrow', hsent⟩ := attempt_refused hmarked hattempt
    rw [Prog.run_tryCatch_of_error handle ω _ hbody]
    simp only [Option.mem_def, Option.some.injEq, forall_eq']
    cases hrescue : refusal ω (k + 1) with
    | some j =>
      obtain ⟨e', db'', row'', hfail, -⟩ := updateCase_refused { status := some .failed } hrow' hrescue
      have hout : (rescue row.id action e).run handle ω (k + 1) db' = _ := Prog.run_bind_of_error handle ω _ hfail
      rw [hout]
      exact iff_of_false not_kept_of_error fun h => nomatch h.1
    | none =>
      obtain ⟨now, db'', hfail, hfailed, hkept⟩ :=
        updateCase_answered { status := some .failed } hrow' hrescue
      have hout : (rescue row.id action e).run handle ω (k + 1) db' = _ := Prog.run_bind_of_ok handle ω _ hfail
      have hsent' : Sent db db'' ↔ sends service row action = true := by rw [← hsent, Sent, Sent, hkept]
      rw [hout, ← Bool.not_eq_true, ← hsent']
      constructor
      · refine fun h => ⟨rfl, fun hdone => ?_⟩
        -- the hash may be there, but the case is left `FAILED`
        obtain ⟨last, hlast, -, hnot, -⟩ := h.recorded hdone
        obtain rfl := Option.some.inj (hfailed.symm.trans hlast)
        exact hnot rfl
      · refine fun h => ⟨⟨_, rfl⟩, fun last hlast => ?_, fun hdone => absurd hdone h.2⟩
        obtain rfl := Option.some.inj (hfailed.symm.trans hlast)
        exact nofun

end

/-- **What a resolution leaves behind**, whatever queries fail in it: it returns, leaves no case `RESOLVING` and
records what was sent exactly if it survives the failures. -/
theorem resolve_kept_iff (service : RecoveryService) (ω : Nat → Oracle) (db : Db) (row : RecoveryCase)
    (hrow : db.cases.find? row.id = some row) (action : ResolutionAction) :
    Kept ω db row.id ((resolve service row.id action).run handle ω 0 db) ↔ Survives service ω row action := by
  by_cases hlookup : (ω 0).rejects = none
  · have hfound := findById_answered row.id db hlookup
    rw [hrow] at hfound
    let found : Db := { db with clock := db.clock + (ω 0).took }
    let mark : UpdateRecoveryCaseParams := { status := some .resolving, resolutionAction := some action }
    have hrun : (resolve service row.id action).run handle ω 0 db =
        ((updateCase row.id mark).bind fun _ => (attempt service action row).tryCatch (rescue row.id action)).run handle
          ω 1 found := Prog.run_await_bind_of_ok ω hfound _
    have hrow' : found.cases.find? row.id = some row := hrow
    rw [hrun, Survives, and_iff_right hlookup]
    cases hmark : refusal ω 1 with
    | some k =>
      obtain ⟨e, db', row', hwrite, -⟩ := updateCase_refused mark hrow' hmark
      rw [Prog.run_bind_of_error handle ω _ hwrite]
      exact iff_of_false not_kept_of_error fun h => nomatch h.1
    | none =>
      obtain ⟨now, marked, hwrite, hmarked, hexecutions⟩ := updateCase_answered mark hrow' hmark
      rw [Prog.run_bind_of_ok handle ω _ hwrite, and_iff_right rfl, ← guarded_kept_iff hmarked]
      have hsent (db' : Db) : Sent db db' ↔ Sent marked db' := by rw [Sent, Sent, hexecutions]
      exact ⟨fun h => ⟨h.returned, h.left, fun hdone => h.recorded ((hsent _).2 hdone)⟩,
        fun h => ⟨h.returned, h.left, fun hdone => h.recorded ((hsent _).1 hdone)⟩⟩
  · obtain ⟨e, hfound⟩ := findById_refused row.id db hlookup
    have hrun : (resolve service row.id action).run handle ω 0 db = _ := Prog.run_await_bind_of_error ω hfound _
    rw [hrun]
    exact iff_of_false not_kept_of_error fun h => hlookup h.1

/-! ## One failure -/

/-- Call `k` alone is rejected, before it is executed. -/
def failingAt (k : Nat) : Nat → Oracle := fun n => { uuid := "aa-1", rejects := if n = k then some "refused" else none }

theorem resolve_kept_iff_credit : Kept (failingAt 5) oneCase.store "case"
    ((resolve ethereum "case" .autoCredit).run handle (failingAt 5) 0 oneCase.store) ↔
      Survives ethereum (failingAt 5) overpayment .autoCredit :=
  resolve_kept_iff ethereum (failingAt 5) oneCase.store overpayment (by decide +kernel) .autoCredit

/-- The resolution rejects when the mark fails, and leaves the case `FAILED` when the result of a refund does. -/
theorem refund_unrecorded :
    ¬ Kept (failingAt 2) oneCase.store "case"
      ((resolve ethereum "case" .autoRefund).run handle (failingAt 2) 0 oneCase.store) ∧
    ¬ Kept (failingAt 7) oneCase.store "case"
      ((resolve ethereum "case" .autoRefund).run handle (failingAt 7) 0 oneCase.store) := by
  have hrejects :
      ((resolve ethereum "case" .autoRefund).run handle (failingAt 2) 0 oneCase.store).1.toOption = none := by
    decide +kernel
  have hexecuted : ((resolve ethereum "case" .autoRefund).run handle (failingAt 7) 0 oneCase.store).2.2.executions =
      [⟨.autoRefund, overpayment⟩] := by decide +kernel
  have hfailed : ((resolve ethereum "case" .autoRefund).run handle (failingAt 7) 0 oneCase.store).2.2.statusOf "case" =
      some .failed := by decide +kernel
  refine ⟨fun h => ?_, fun h => ?_⟩
  · obtain ⟨result, hresult⟩ := h.returned
    rw [hresult] at hrejects
    cases hrejects
  · obtain ⟨row, hrow, -, hstatus, -⟩ := h.recorded ⟨_, hexecuted, .inl rfl⟩
    rw [Db.statusOf, hrow] at hfailed
    exact hstatus (Option.some.inj hfailed)

end NexoraGateway.Recovery
