import NexoraGateway.Async.Runs
import NexoraGateway.Recovery.Resolutions

/-!
# Who asks for a refund (recovery.service.ts:181, :347, :422)

`verifyOwnership` "is required before auto-refund", but its answer is stored nowhere and `resolve` does not ask for it;
and it accepts every string of 130 hexadecimal digits, whoever's signature it is. `refunds_verified` is what remains.

* `System` — the pool of operations with the proofs that `verifyOwnership` has answered; it awaits nothing, so that
  answering is one step.
* `signed address signature message` says that the signature is by that address, `bound message caseId` that the message
  is about that case. The code looks at neither.

The invariant: what a task has read, what it has marked for a refund and what it has refunded are facts about the table
and the proofs that nothing undoes (`Fact`, `Backed`).
-/
namespace NexoraGateway.Recovery

open Async Store

/-- An answer of `verifyOwnership`, and the chain it was asked for. -/
structure Verification where
  proof : OwnershipProof
  chain : String
  deriving DecidableEq

/-- What an operation answers about a case. -/
abbrev Reply := Option (Id × ResolutionResult)

def Op.reply (service : RecoveryService) : Op → Task Reply
  | detect caseType params => (Recovery.detect caseType params).bind fun _ => .ret none
  | resolve caseId action => (Recovery.resolve service caseId action).bind fun result => .ret (some (caseId, result))
  | autoRefund caseId => (Recovery.autoRefund service caseId).bind fun result => .ret (some (caseId, result))
  | autoCredit caseId => (Recovery.autoCredit service caseId).bind fun result => .ret (some (caseId, result))
  | processStuckTransactions => (Recovery.processStuckTransactions service).bind fun _ => .ret none

structure System where
  pool : Pool Call Answer RecoveryError Reply Db
  proofs : List Verification

inductive Input where
  | start (op : Op)
  | step (i : Nat) (o : Oracle)
  | verifyOwnership (address signature message chain : String) (o : Oracle)

def System.next (service : RecoveryService) (w : System) : Input → System
  | .start op => { w with pool := w.pool.next handle (.spawn (op.reply service)) }
  | .step i o => { w with pool := w.pool.next handle (.step i o) }
  | .verifyOwnership address signature message chain o =>
    match (Recovery.verifyOwnership service address signature message chain).run handle (fun _ => o) 0 w.pool.store with
    | (.ok proof, _, db) => ⟨{ w.pool with store := db }, w.proofs ++ [⟨proof, chain⟩]⟩
    | (.error _, _, db) => { w with pool := { w.pool with store := db } }

section
variable (signed : String → String → String → Bool) (bound : String → Id → Bool)

/-- The customer of the case was verified, on the case's chain and over a message about the case. -/
def Verified (proofs : List Verification) (row : RecoveryCase) : Prop :=
  ∃ v ∈ proofs, v.proof.verified = true ∧ v.proof.address = row.customerAddress ∧ v.chain = row.customerChain ∧
    bound v.proof.message row.id = true

instance (proofs : List Verification) (row : RecoveryCase) : Decidable (Verified bound proofs row) :=
  inferInstanceAs (Decidable (∃ v ∈ proofs, _))

/-- Who was verified has signed, and every refund, executed or reported, is to one who was verified for it. -/
structure Owned (w : System) : Prop where
  genuine : ∀ v ∈ w.proofs, v.proof.verified = true →
    signed v.proof.address v.proof.signature v.proof.message = true
  executed : ∀ e ∈ w.pool.store.executions, e.action = .autoRefund → Verified bound w.proofs e.recoveryCase
  succeeded : ∀ caseId result, .ret (some (caseId, result)) ∈ w.pool.tasks → result.action = .autoRefund →
    result.success = true → ∃ row, w.pool.store.cases.find? caseId = some row ∧ Verified bound w.proofs row

/-- The update marks a case `RESOLVING` for a refund. -/
def UpdateRecoveryCaseParams.Refunds (params : UpdateRecoveryCaseParams) : Prop :=
  params.status = some .resolving ∧ params.resolutionAction = some .autoRefund

instance (params : UpdateRecoveryCaseParams) : Decidable params.Refunds := inferInstanceAs (Decidable (_ ∧ _))

variable (service : RecoveryService)

/-- A case that is marked for a refund on a chain with a client is one whose customer was verified. -/
def Cleared (proofs : List Verification) (db : Db) : Call → Prop
  | .update caseId params => params.Refunds → ∀ row ∈ db.cases.find? caseId,
      (service.chainClients row.customerChain).isSome = true → Verified bound proofs row
  | _ => True

instance (proofs : List Verification) (db : Db) (a : Call) : Decidable (Cleared bound service proofs db a) :=
  match a with
  | .update .. => inferInstanceAs (Decidable (_ → ∀ row ∈ _, _))
  | .now | .randomUUID | .create _ | .findById _ | .findStuckTransactions _ | .perform .. =>
    inferInstanceAs (Decidable True)

/-- And what is offered to `verifyOwnership` in the form it looks at is signed. -/
def Required (w : System) : Input → Prop
  | .start _ => True
  | .step i _ => ∀ a ∈ w.pool.pending i, Cleared bound service w.proofs w.pool.store a
  | .verifyOwnership address signature message chain _ => ∀ chainClient ∈ service.chainClients chain,
      isValidSignature signature = true → chainClient.validateAddress address = true → 0 < message.length →
        signed address signature message = true

instance (w : System) : (x : Input) → Decidable (Required signed bound service w x)
  | .start _ => inferInstanceAs (Decidable True)
  | .step .. => inferInstanceAs (Decidable (∀ a ∈ _, _))
  | .verifyOwnership .. => inferInstanceAs (Decidable (∀ chainClient ∈ _, _))

end

/-! ## What the tasks know -/

inductive Fact where
  | read (recoveryCase : RecoveryCase)
  | cleared (caseId : Id)
  | refunded (caseId : Id)

/-- A refund is executed for a case that was read and marked, on a chain that has a client. -/
def facts (service : RecoveryService) : Protocol Call Answer (List Fact) where
  ok known
    | .perform action row => action = .autoRefund →
        .read row ∈ known ∧ .cleared row.id ∈ known ∧ (service.chainClients row.customerChain).isSome = true
    | _ => True
  rely
    | .findById caseId, r => ∀ row, r = .ok (some row) → row.id = caseId
    | _, _ => True
  next known
    | .findById _, r =>
      match r with
      | .ok (some row) => .read row :: known
      | _ => known
    | .update caseId params, r =>
      match r with
      | .ok (some _) => if params.Refunds then .cleared caseId :: known else known
      | _ => known
    | .perform action row, _ => if action = .autoRefund then .refunded row.id :: known else known
    | _, _ => known

section
variable {service : RecoveryService} {known : List Fact} {a : Call} {caseId : Id} {action : ResolutionAction}
  {recoveryCase : RecoveryCase}

/-- Nothing that is known is forgotten. -/
theorem facts_subset (r : Answer a) : known ⊆ (facts service).next known a r := by
  cases a with
  | findById caseId =>
    simp only [facts]
    split
    · exact List.subset_cons_self _ _
    · exact List.Subset.refl _
  | update caseId params =>
    simp only [facts]
    split
    · split
      · exact List.subset_cons_self _ _
      · exact List.Subset.refl _
    · exact List.Subset.refl _
  | perform action row =>
    simp only [facts]
    split
    · exact List.subset_cons_self _ _
    · exact List.Subset.refl _
  | now | randomUUID | create | findStuckTransactions => exact List.Subset.refl _

/-- A call that does not refund. -/
def Call.Unpaid : Call → Prop
  | .perform action _ => action ≠ .autoRefund
  | _ => True

theorem obeys_unpaid {α : Type} {p : Task α} (hp : p.Only Call.Unpaid fun _ => True) :
    p.Obeys (facts service) (fun known' _ => known ⊆ known') known := by
  refine hp.obeys_along List.Subset.refl (fun _ _ _ => List.Subset.trans) (fun known a ha => ⟨?_, facts_subset⟩) known
  cases a with
  | perform action row => exact fun hrefund => absurd hrefund ha
  | now | randomUUID | create | findById | update | findStuckTransactions => trivial

/-- An update looks the case up and writes it. -/
theorem updateCase_only {ok : Call → Prop} {params : UpdateRecoveryCaseParams} (hfind : ok (.findById caseId))
    (hupdate : ok (.update caseId params)) : (updateCase caseId params).Only ok fun _ => True := by
  refine Prog.Only.bind (Prog.Only.await hfind) fun existing => ?_
  cases existing with
  | none => exact Prog.Only.throw trivial
  | some row =>
    refine Prog.Only.bind (Prog.Only.await hupdate) fun row => ?_
    cases row with
    | none => exact Prog.Only.throw trivial
    | some row => exact Prog.Only.ret row

theorem updateCase_unpaid (params : UpdateRecoveryCaseParams) :
    (updateCase caseId params).Only Call.Unpaid fun _ => True := updateCase_only trivial trivial

/-- A refund that is reported as a success was executed. -/
def Told (caseId : Id) (known : List Fact) : Except RecoveryError ResolutionResult → Prop
  | .ok result => result.action = .autoRefund → result.success = true → .refunded caseId ∈ known
  | .error _ => True

theorem Told.mono {known known' : List Fact} {out : Except RecoveryError ResolutionResult}
    (h : Told caseId known out) (hknown : known ⊆ known') : Told caseId known' out := by
  cases out with
  | error e => trivial
  | ok result => exact fun haction hsuccess => hknown (h haction hsuccess)

/-- An action other than a refund performs at most itself, and answers that it did. -/
theorem perform_told (hother : action ≠ .autoRefund) {f : Unit → Task ResolutionResult}
    (hf : (f ()).Obeys (facts service) (Told caseId) known) :
    ((Task.perform action recoveryCase).bind f).Obeys (facts service) (Told caseId) known := by
  refine Prog.Obeys.bind (Prog.obeys_await.2 ⟨fun hrefund => absurd hrefund hother, fun r _ => ?_⟩)
  simp only [facts, if_neg hother]
  cases r with
  | error e => trivial
  | ok done => exact hf

/-- A refund is executed for a case that was read and marked. -/
theorem execute_told (hread : .read recoveryCase ∈ known)
    (hcleared : action = .autoRefund → .cleared recoveryCase.id ∈ known) :
    (execute service action recoveryCase).Obeys (facts service) (Told recoveryCase.id) known := by
  cases action with
  | autoRefund =>
    simp only [execute, executeAutoRefund]
    split
    · exact fun _ h => by cases h
    · rename_i chainClient hclient
      have hok : (facts service).ok known (.perform .autoRefund recoveryCase) :=
        fun _ => ⟨hread, hcleared rfl, by rw [hclient]; rfl⟩
      refine Prog.Obeys.bind (Prog.obeys_await.2 ⟨hok, fun r _ => ?_⟩)
      cases r with
      | error e => trivial
      | ok done =>
        refine Prog.Obeys.bind (Prog.obeys_await.2 ⟨trivial, fun uuid _ => ?_⟩)
        cases uuid with
        | error e => trivial
        | ok uuid => exact fun _ _ => List.mem_cons_self
  | relayerAcceleration =>
    simp only [execute, executeRelayerAcceleration]
    split
    · exact fun _ h => by cases h
    · refine perform_told (by decide) ?_
      refine Prog.Obeys.bind (Prog.obeys_await.2 ⟨trivial, fun uuid _ => ?_⟩)
      cases uuid with
      | error e => trivial
      | ok uuid => exact fun h => by cases h
  | topUpLink =>
    refine Prog.Obeys.bind (Prog.Obeys.bind (Prog.obeys_await.2 ⟨trivial, fun found _ => ?_⟩))
    rcases found with e | _ | row
    · trivial
    · exact fun _ h => by cases h
    · dsimp only [Prog.BindPost]
      split
      · exact fun _ h => by cases h
      · exact fun _ h => by cases h
  | autoCredit => exact perform_told (by decide) fun haction => by cases haction
  | reQuote => exact perform_told (by decide) fun haction => by cases haction
  | feeBump => exact perform_told (by decide) fun haction => by cases haction
  | other name => exact fun _ h => by cases h

/-- A failure is no success. -/
theorem fail_told (error : RecoveryError) :
    ((updateCase caseId { status := some .failed }).bind fun _ =>
      .ret ⟨action, false, none, .error error.message⟩).Obeys (facts service) (Told caseId) known := by
  refine Prog.Obeys.bind ((obeys_unpaid (updateCase_unpaid _)).mono fun known' out _ => ?_)
  cases out with
  | error e => trivial
  | ok row => exact nofun

theorem resolvedAt_unpaid (result : ResolutionResult) : (resolvedAt result).Only Call.Unpaid fun _ => True := by
  unfold resolvedAt
  split
  · exact Prog.Only.bind (Prog.Only.await trivial) fun now => Prog.Only.ret _
  · exact Prog.Only.ret _

/-- Marking a case, what was known before stays known. -/
theorem mark_told :
    (updateCase caseId { status := some .resolving, resolutionAction := some action }).Obeys (facts service)
      (fun known' out => ∀ row, out = .ok row →
        known ⊆ known' ∧ (action = .autoRefund → .cleared caseId ∈ known')) known := by
  refine Prog.Obeys.bind (Prog.obeys_await.2 ⟨trivial, fun existing _ => ?_⟩)
  rcases existing with e | _ | row
  · exact fun _ h => nomatch h
  · exact fun _ h => nomatch h
  · refine Prog.Obeys.bind (Prog.obeys_await.2 ⟨trivial, fun written _ => ?_⟩)
    rcases written with e | _ | row'
    · exact fun _ h => nomatch h
    · exact fun _ h => nomatch h
    · refine fun _ _ => ⟨fun fact hfact => facts_subset _ (List.mem_cons_of_mem _ hfact), fun hrefund => ?_⟩
      have hrefunds : UpdateRecoveryCaseParams.Refunds
          { status := some .resolving, resolutionAction := some action } := ⟨rfl, congrArg some hrefund⟩
      simp only [facts, if_pos hrefunds]
      exact List.mem_cons_self

theorem resolve_told (service : RecoveryService) (caseId : Id) (action : ResolutionAction) (known : List Fact) :
    (resolve service caseId action).Obeys (facts service) (Told caseId) known := by
  refine Prog.Obeys.bind (Prog.obeys_await.2 ⟨trivial, fun found hfound => ?_⟩)
  rcases found with e | _ | recoveryCase
  · trivial
  · exact nofun
  obtain rfl : recoveryCase.id = caseId := hfound recoveryCase rfl
  refine Prog.Obeys.bind (mark_told.mono fun marked out hmarked => ?_)
  cases out with
  | error e => trivial
  | ok row =>
    obtain ⟨hknown, hcleared⟩ := hmarked row rfl
    have hread : .read recoveryCase ∈ marked := hknown List.mem_cons_self
    refine Prog.Obeys.tryCatch (Prog.Obeys.bind
      ((execute_told hread hcleared).mono fun executed out htold => ?_))
    cases out with
    | error e => exact fail_told e
    | ok result =>
      refine Prog.Obeys.bind ((obeys_unpaid (resolvedAt_unpaid result)).mono fun dated out hdated => ?_)
      cases out with
      | error e => exact fail_told e
      | ok resolvedAt =>
        refine Prog.Obeys.bind ((obeys_unpaid (updateCase_unpaid _)).mono fun written out hwritten => ?_)
        cases out with
        | error e => exact fail_told e
        | ok row => exact htold.mono (List.Subset.trans hdated hwritten)

/-- What a task that has ended answers is known. -/
def ToldBy (known : List Fact) : Except RecoveryError Reply → Prop
  | .ok (some (caseId, result)) => Told caseId known (.ok result)
  | _ => True

theorem processStuck_told (service : RecoveryService) (stuckCases : List RecoveryCase) (processed : Nat)
    (known : List Fact) :
    (processStuck service stuckCases processed).Obeys (facts service) (fun _ _ => True) known := by
  induction stuckCases generalizing processed known with
  | nil => trivial
  | cons stuckCase rest ih =>
    refine Prog.Obeys.bind (Prog.Obeys.tryCatch (Prog.Obeys.bind
      ((resolve_told service stuckCase.id .relayerAcceleration known).mono fun known' out _ => ?_)))
    cases out with
    | error e => exact ih _ _
    | ok result => exact ih _ _

theorem reply_told (service : RecoveryService) (op : Op) :
    (op.reply service).Obeys (facts service) ToldBy [] := by
  have hresolve (caseId : Id) (action : ResolutionAction) :
      ((resolve service caseId action).bind fun result => .ret (some (caseId, result))).Obeys (facts service) ToldBy
        [] := by
    refine Prog.Obeys.bind ((resolve_told service caseId action []).mono fun known out htold => ?_)
    cases out with
    | error e => trivial
    | ok result => exact htold
  cases op with
  | detect caseType params =>
    refine Prog.Obeys.bind (Prog.obeys_await.2 ⟨trivial, fun row _ => ?_⟩)
    cases row with
    | error e => trivial
    | ok row => trivial
  | resolve caseId action => exact hresolve caseId action
  | autoRefund caseId => exact hresolve caseId .autoRefund
  | autoCredit caseId => exact hresolve caseId .autoCredit
  | processStuckTransactions =>
    refine Prog.Obeys.bind (Prog.Obeys.bind (Prog.obeys_await.2 ⟨trivial, fun found _ => ?_⟩))
    cases found with
    | error e => trivial
    | ok stuckCases =>
      exact (processStuck_told service stuckCases 0 []).mono fun known out _ => by cases out <;> trivial

end

/-! ## What the table and the proofs say -/

section
variable {db db' : Db} {a : Call} {caseId : Id} {row row' : RecoveryCase} {bound : String → Id → Bool}
  {proofs proofs' : List Verification} {service : RecoveryService} {o : Oracle} {known : List Fact} {fact : Fact}

/-- What a case was created with stays. -/
theorem Effect.params (h : Effect db a db') (hrow : db.cases.find? caseId = some row) :
    ∃ row', db'.cases.find? caseId = some row' ∧
      row'.toCreateRecoveryCaseParams = row.toCreateRecoveryCaseParams := by
  cases h with
  | @created params new cases clock hstatus hins =>
    have hnew : new.id ≠ caseId := by
      rintro rfl
      have hfree := Table.insert?_isSome.1 (Option.isSome_iff_exists.2 ⟨cases, hins⟩)
      cases hrow.symm.trans hfree
    exact ⟨row, by rw [Table.find?_insert? hins, if_neg hnew, hrow], rfl⟩
  | updated id params clock =>
    refine ⟨_, by rw [Table.find?_updateWhere, hrow, Option.map_some], ?_⟩
    split
    · rfl
    · rfl
  | idle | performed => exact ⟨row, hrow, rfl⟩

theorem Verified.mono (h : Verified bound proofs row) (hproofs : proofs ⊆ proofs') : Verified bound proofs' row := by
  obtain ⟨v, hv, hmatch⟩ := h
  exact ⟨v, hproofs hv, hmatch⟩

theorem Verified.congr (h : Verified bound proofs row) (hid : row'.id = row.id)
    (hparams : row'.toCreateRecoveryCaseParams = row.toCreateRecoveryCaseParams) : Verified bound proofs row' := by
  obtain ⟨v, hv, hverified, haddress, hchain, hbound⟩ := h
  refine ⟨v, hv, hverified, ?_, ?_, ?_⟩
  · rw [haddress, hparams]
  · rw [hchain, hparams]
  · rwa [hid]

/-- The case is in the table, where `P` holds of it. -/
def Stands (db : Db) (P : RecoveryCase → Prop) (caseId : Id) : Prop := ∃ row, db.cases.find? caseId = some row ∧ P row

theorem Stands.mono {P : RecoveryCase → Prop} (h : Stands db P caseId) (heff : Effect db a db')
    (hP : ∀ row row' : RecoveryCase, row'.id = row.id →
      row'.toCreateRecoveryCaseParams = row.toCreateRecoveryCaseParams → P row → P row') : Stands db' P caseId := by
  obtain ⟨row, hrow, hProw⟩ := h
  obtain ⟨row', hrow', hparams⟩ := heff.params hrow
  have hid := (Table.find?_eq_some.1 hrow').2.trans (Table.find?_eq_some.1 hrow).2.symm
  exact ⟨row', hrow', hP row row' hid hparams hProw⟩

variable (service bound) in
def Backed (proofs : List Verification) (db : Db) : Fact → Prop
  | .read row => Stands db (fun cur => cur.toCreateRecoveryCaseParams = row.toCreateRecoveryCaseParams) row.id
  | .cleared caseId => Stands db (fun cur => (service.chainClients cur.customerChain).isSome = true →
      Verified bound proofs cur) caseId
  | .refunded caseId => Stands db (Verified bound proofs) caseId

theorem Backed.mono (h : Backed bound service proofs db fact) (heff : Effect db a db') :
    Backed bound service proofs db' fact := by
  cases fact with
  | read row => exact Stands.mono h heff fun _ _ _ hparams hcur => hparams.trans hcur
  | cleared caseId =>
    refine Stands.mono h heff fun cur cur' hid hparams hverified hclient => ?_
    rw [hparams] at hclient
    exact (hverified hclient).congr hid hparams
  | refunded caseId => exact Stands.mono h heff fun _ _ hid hparams hcur => hcur.congr hid hparams

theorem Backed.grow (h : Backed bound service proofs db fact) (hproofs : proofs ⊆ proofs') :
    Backed bound service proofs' db fact := by
  cases fact with
  | read row => exact h
  | cleared caseId =>
    obtain ⟨cur, hcur, hverified⟩ := h
    exact ⟨cur, hcur, fun hclient => (hverified hclient).mono hproofs⟩
  | refunded caseId =>
    obtain ⟨cur, hcur, hverified⟩ := h
    exact ⟨cur, hcur, hverified.mono hproofs⟩

/-- A case that was read and marked, on a chain with a client, is one whose customer was verified. -/
theorem verified_of_known (hread : Backed bound service proofs db (.read row))
    (hcleared : Backed bound service proofs db (.cleared row.id))
    (hclient : (service.chainClients row.customerChain).isSome = true) : Verified bound proofs row := by
  obtain ⟨cur, hcur, hparams⟩ := hread
  obtain ⟨cur', hcur', hverified⟩ := hcleared
  obtain rfl : cur = cur' := Option.some.inj (hcur.symm.trans hcur')
  have hid : row.id = cur.id := (Table.find?_eq_some.1 hcur).2.symm
  exact (hverified (by rwa [hparams])).congr hid hparams.symm

/-- The next call of a task: what it then knows is backed. -/
theorem next_backed (hknown : ∀ fact ∈ known, Backed bound service proofs db fact) (hok : (facts service).ok known a)
    (hcleared : Cleared bound service proofs db a) :
    ∀ fact ∈ (facts service).next known a (handle a o db).1, Backed bound service proofs (handle a o db).2 fact := by
  have heff := handle_effect a o db
  have hold : ∀ fact ∈ known, Backed bound service proofs (handle a o db).2 fact :=
    fun fact hfact => (hknown fact hfact).mono heff
  cases a with
  | findById caseId =>
    simp only [facts]
    split
    · rename_i row hanswer
      refine List.forall_mem_cons.2 ⟨Stands.mono ⟨row, ?_, rfl⟩ heff fun _ _ _ hparams hcur => hparams.trans hcur, hold⟩
      have hfind := findById_answer hanswer
      rwa [(Table.find?_eq_some.1 hfind).2]
    · exact hold
  | update caseId params =>
    simp only [facts]
    split
    · rename_i row hanswer
      split
      · rename_i hrefunds
        refine List.forall_mem_cons.2 ⟨?_, hold⟩
        obtain ⟨hfind, hset⟩ := update_answer hanswer
        obtain ⟨old, hold', -⟩ := Option.map_eq_some_iff.1 hset.symm
        have hbefore : Backed bound service proofs db (.cleared caseId) := ⟨old, hold', hcleared hrefunds old hold'⟩
        exact hbefore.mono heff
      · exact hold
    · exact hold
  | perform action row =>
    simp only [facts]
    split
    · rename_i hrefund
      obtain ⟨hread, hmarked, hclient⟩ := hok hrefund
      have hverified := verified_of_known (hknown _ hread) (hknown _ hmarked) hclient
      obtain ⟨cur, hcur, hparams⟩ := hknown _ hread
      have hid : cur.id = row.id := (Table.find?_eq_some.1 hcur).2
      exact List.forall_mem_cons.2 ⟨⟨cur, hcur, hverified.congr hid hparams⟩, hold⟩
    · exact hold
  | now | randomUUID | create | findStuckTransactions => exact hold

variable (service bound) in
/-- What the tasks know is backed, and every refund is to one who was verified for it. -/
def Ready (proofs : List Verification) (db : Db) (gs : List (List Fact)) : Prop :=
  (∀ known ∈ gs, ∀ fact ∈ known, Backed bound service proofs db fact) ∧
    ∀ e ∈ db.executions, e.action = .autoRefund → Verified bound proofs e.recoveryCase

theorem handle_ready {gs₁ gs₂ : List (List Fact)} (h : Ready bound service proofs db (gs₁ ++ known :: gs₂))
    (hok : (facts service).ok known a) (hcleared : Cleared bound service proofs db a) :
    (facts service).rely a (handle a o db).1 ∧
      Ready bound service proofs (handle a o db).2 (gs₁ ++ (facts service).next known a (handle a o db).1 :: gs₂) := by
  obtain ⟨hbacked, hexecuted⟩ := h
  have heff := handle_effect a o db
  have hknown := hbacked known (by simp)
  refine ⟨?_, fun known' hknown' => ?_, ?_⟩
  · cases a with
    | findById caseId => exact fun row hanswer => (Table.find?_eq_some.1 (findById_answer hanswer)).2
    | now | randomUUID | create | update | findStuckTransactions | perform => trivial
  · rcases List.mem_append.1 hknown' with hmem | hmem
    · exact fun fact hfact => (hbacked known' (List.mem_append_left _ hmem) fact hfact).mono heff
    rcases List.mem_cons.1 hmem with rfl | hmem
    · exact next_backed hknown hok hcleared
    · refine fun fact hfact => (hbacked known' (List.mem_append_right _ ?_) fact hfact).mono heff
      exact List.mem_cons_of_mem _ hmem
  · generalize hdb' : (handle a o db).2 = db' at heff
    cases heff with
    | performed action row clock =>
      intro e he hrefund
      rcases List.mem_append.1 he with he | he
      · exact hexecuted e he hrefund
      · obtain rfl := List.mem_singleton.1 he
        obtain ⟨hread, hmarked, hclient⟩ := hok hrefund
        exact verified_of_known (hknown _ hread) (hknown _ hmarked) hclient
    | idle | created | updated => exact hexecuted

end

/-! ## Runs -/

section
variable {service : RecoveryService} {signed : String → String → String → Bool} {bound : String → Id → Bool}
  {w : System}

/-- `verifyOwnership` answers, and accepts just what has the form that it looks at. -/
theorem verifyOwnership_run (service : RecoveryService) (address signature message chain : String) (o : Oracle)
    (db : Db) :
    ∃ proof m clock, (verifyOwnership service address signature message chain).run handle (fun _ => o) 0 db =
        (.ok proof, m, { db with clock }) ∧
      proof.address = address ∧ proof.signature = signature ∧ proof.message = message ∧
      (proof.verified = true → ∃ chainClient ∈ service.chainClients chain, isValidSignature signature = true ∧
        chainClient.validateAddress address = true ∧ 0 < message.length) := by
  unfold verifyOwnership
  split
  · exact ⟨_, _, _, rfl, rfl, rfl, rfl, nofun⟩
  · rename_i chainClient hclient
    split
    · rename_i haccepted
      simp only [Bool.and_eq_true, decide_eq_true_eq] at haccepted
      obtain ⟨⟨hsignature, haddress⟩, hmessage⟩ := haccepted
      exact ⟨_, _, _, rfl, rfl, rfl, rfl, fun _ => ⟨chainClient, hclient, hsignature, haddress, hmessage⟩⟩
    · exact ⟨_, _, _, rfl, rfl, rfl, rfl, nofun⟩

variable (service signed bound) in
/-- The tasks keep to the protocol of facts, and who was verified has signed. -/
def Honest (w : System) : Prop :=
  w.pool.TrackInv (facts service) ToldBy (Ready bound service w.proofs) (fun _ => True) (fun _ => False) ∧
    ∀ v ∈ w.proofs, v.proof.verified = true → signed v.proof.address v.proof.signature v.proof.message = true

theorem choose_honest (h : Honest service signed bound w) (c : Choice Call Answer RecoveryError Reply Oracle)
    (hstart : ∀ p, c = .spawn p → ∃ op : Op, p = op.reply service)
    (hc : w.pool.Meets (fun db a _ => Cleared bound service w.proofs db a) c) :
    Honest service signed bound { w with pool := w.pool.next handle c } := by
  have hspawn (p : Task Reply) (hp : ∃ op : Op, p = op.reply service) : ∃ known, p.Obeys (facts service) ToldBy known ∧
      ∀ db gs, Ready bound service w.proofs db gs → Ready bound service w.proofs db (gs ++ [known]) := by
    obtain ⟨op, rfl⟩ := hp
    refine ⟨[], reply_told service op, fun db gs hready => ⟨fun known hknown => ?_, hready.2⟩⟩
    rcases List.mem_append.1 hknown with hknown | hknown
    · exact hready.1 known hknown
    · rw [List.mem_singleton.1 hknown]
      exact fun _ hfact => absurd hfact List.not_mem_nil
  obtain ⟨gs, hobey, hready, -⟩ := Pool.next_track (f := fun _ => ()) hspawn
    (fun db gs₁ known gs₂ a o hready hok hcleared => by
      obtain ⟨hrely, hready'⟩ := handle_ready (o := o) hready hok hcleared
      exact ⟨hrely, hready', fun _ => trivial⟩)
    h.1 hstart hc
  exact ⟨⟨gs, hobey, hready, nofun⟩, h.2⟩

/-- **Step lemma.** -/
theorem next_honest (x : Input) (h : Honest service signed bound w) (hx : Required signed bound service w x) :
    Honest service signed bound (w.next service x) := by
  cases x with
  | start op => exact choose_honest h _ (fun p hp => ⟨op, (Choice.spawn.inj hp).symm⟩) trivial
  | step i o => exact choose_honest h _ nofun hx
  | verifyOwnership address signature message chain o =>
    obtain ⟨proof, m, clock, hrun, rfl, rfl, rfl, haccepted⟩ :=
      verifyOwnership_run service address signature message chain o w.pool.store
    simp only [System.next, hrun]
    obtain ⟨⟨gs, hobey, ⟨hbacked, hexecuted⟩, -⟩, hgenuine⟩ := h
    have hgrow : w.proofs ⊆ w.proofs ++ [⟨proof, chain⟩] := List.subset_append_left _ _
    refine ⟨⟨gs, hobey, ⟨fun known hknown fact hfact => ?_, fun e he hrefund => ?_⟩, nofun⟩, fun v hv hverified => ?_⟩
    · have hclock : Effect w.pool.store .now { w.pool.store with clock } := .idle .now clock
      exact ((hbacked known hknown fact hfact).mono hclock).grow hgrow
    · exact (hexecuted e he hrefund).mono hgrow
    · rcases List.mem_append.1 hv with hv | hv
      · exact hgenuine v hv hverified
      · obtain rfl := List.mem_singleton.1 hv
        obtain ⟨chainClient, hclient, hsignature, haddress, hmessage⟩ := haccepted hverified
        exact hx chainClient hclient hsignature haddress hmessage

theorem Honest.owned (h : Honest service signed bound w) : Owned signed bound w := by
  obtain ⟨⟨gs, hobey, ⟨hbacked, hexecuted⟩, -⟩, hgenuine⟩ := h
  refine ⟨hgenuine, hexecuted, fun caseId result htask hrefund hsuccess => ?_⟩
  obtain ⟨i, hlt, hi⟩ := List.mem_iff_getElem.1 htask
  obtain ⟨hlen, hall⟩ := List.forall₂_iff_get.1 hobey
  have htold := hall i (hlen ▸ hlt) hlt
  simp only [List.get_eq_getElem, hi] at htold
  exact hbacked _ (List.getElem_mem _) _ (htold hrefund hsuccess)

end

/-- **Refunds are to customers who were verified**, in every state of every run in which what is offered to
`verifyOwnership` in the form it looks at is signed, and in which a case is marked for a refund on a chain with a client
only after its customer was verified for it. -/
theorem refunds_verified (service : RecoveryService) (signed : String → String → String → Bool)
    (bound : String → Id → Bool) (w : System) (htasks : w.pool.tasks = []) (hproofs : w.proofs = [])
    (hexecutions : w.pool.store.executions = []) (xs : List Input)
    (hxs : Runs.Along (System.next service) (Required signed bound service) w xs) :
    Owned signed bound (Runs.exec (System.next service) w xs) := by
  have hinit : Honest service signed bound w := by
    refine ⟨⟨[], by rw [htasks]; exact .nil, ⟨fun _ hknown => absurd hknown List.not_mem_nil, ?_⟩, nofun⟩, ?_⟩
    · rw [hexecutions]
      exact fun _ he => absurd he List.not_mem_nil
    · rw [hproofs]
      exact fun _ hv => absurd hv List.not_mem_nil
  exact (Runs.exec_inv (fun _ x h hx => next_honest x h hx) hinit hxs).owned

/-! ## A refund that nobody asked for -/

def unresolved : System := ⟨⟨oneCase.store, []⟩, []⟩

/-- The refund of the case, from its start to its end. -/
def refunding : List Input := .start (.autoRefund "case") :: List.replicate 8 (.step 0 { uuid := "aa-1" })

/-- 65 bytes in hexadecimal digits. -/
def zeros : String := "0x" ++ String.ofList (List.replicate 130 '0')

/-- The customer has signed one message, which is about the case. -/
def signedOnce (address signature message : String) : Bool :=
  address = "0xabc" && signature = zeros && message = "refund case"

def aboutCase (message : String) (caseId : Id) : Bool := message = "refund " ++ caseId

/-- The rule on a refund that is asked for first. -/
theorem refunds_verified_once : Owned signedOnce aboutCase (Runs.exec (System.next ethereum) unresolved
    (.verifyOwnership "0xabc" zeros "refund case" "1" {} :: refunding)) :=
  refunds_verified ethereum signedOnce aboutCase unresolved rfl rfl rfl _ (by decide +kernel)

/-- Without any verification the refund is executed and succeeds; and a signature that is nobody's is accepted for a
message about nothing. -/
theorem refunded_unverified :
    ¬ Owned signedOnce aboutCase (Runs.exec (System.next ethereum) unresolved refunding) ∧
    (Runs.exec (System.next ethereum) unresolved refunding).proofs = [] ∧
    (Runs.exec (System.next ethereum) unresolved refunding).pool.store.executions = [⟨.autoRefund, overpayment⟩] ∧
    (Runs.exec (System.next ethereum) unresolved refunding).pool.store.statusOf "case" = some .resolved ∧
    ¬ Owned signedOnce aboutCase (Runs.exec (System.next ethereum) unresolved
      [.verifyOwnership "0xabc" zeros "x" "1" {}]) := by
  refine ⟨fun h => ?_, by decide +kernel, by decide +kernel, by decide +kernel, fun h => ?_⟩
  · have hexecuted := h.executed ⟨.autoRefund, overpayment⟩ (by decide +kernel) rfl
    revert hexecuted
    decide +kernel
  · have hgenuine := h.genuine ⟨⟨"0xabc", zeros, "x", true, some 0⟩, "1"⟩ (by decide +kernel) rfl
    revert hgenuine
    decide +kernel

end NexoraGateway.Recovery
