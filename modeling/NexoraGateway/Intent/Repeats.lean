import NexoraGateway.Intent.Traces

/-!
# Running an operation again

What the first run leaves behind decides what the second does: a deposit that was recorded leaves an intent that
accepts no other (`recordDeposit_done`), and an event that was recorded cannot be recorded again
(`advanceIntent_again`).
-/
namespace NexoraGateway.Intent

open Async Store

variable {ω : Nat → Oracle} {n : Nat} {db : Db} {row : PaymentIntent}
variable {id : Id} {txHash sourceChain sourceAsset : String} {amount : ℚ}

/-- An intent that does not accept deposits is answered as it is. -/
theorem recordDeposit_again (hω : ¬ Faulty ω) (hrow : db.intents.find? id = some row)
    (hnot : acceptsDeposit.contains row.state = false) :
    (recordDeposit id txHash amount sourceChain sourceAsset).run handle ω n db =
      (.ok (mapRow row), n + 1, db) := by
  rcases findById_eq (ω n) id db with hfind | ⟨hfault, -⟩
  · have hstate : row.state ∉ acceptsDeposit := by simpa using hnot
    simp [recordDeposit, run_bind_findById, hfind, hrow, hstate]
  · exact absurd ⟨n, hfault⟩ hω

theorem awaiting_edge {target : IntentState} (h : Valid .awaitingPayment target) :
    acceptsDeposit.contains target = false := by
  revert h
  cases target <;> decide

/-- A deposit that returns normally leaves an intent that accepts no other. -/
theorem recordDeposit_done {intent : PaymentIntent}
    (hok : ((recordDeposit id txHash amount sourceChain sourceAsset).run handle ω n db).1 = .ok intent) :
    ∃ row', ((recordDeposit id txHash amount sourceChain sourceAsset).run handle ω n db).2.2.intents.find? id =
      some row' ∧
      acceptsDeposit.contains row'.state = false := by
  cases hrow : db.intents.find? id with
  | none =>
    obtain ⟨e, he⟩ : ∃ e,
        ((recordDeposit id txHash amount sourceChain sourceAsset).run handle ω n db).1 = .error e :=
      recordDeposit_missing ω n hrow
    rw [hok] at he
    cases he
  | some row =>
    cases hacc : acceptsDeposit.contains row.state with
    | false =>
      rw [recordDeposit_ignored fun row' hrow' => by rwa [← Option.some.inj (hrow.symm.trans hrow')]]
      exact ⟨row, hrow, hacc⟩
    | true =>
      rcases recordDeposit_run hrow hacc with ⟨e, -, -, hout, -⟩ | ⟨t₁, row₁, hhop, hatt⟩
      · rw [hok] at hout
        cases hout
      · obtain ⟨hrow₁, hstate₁, -⟩ := hhop.facts hrow
        rcases hatt.inv with ⟨e, -, -, hout, -⟩ | ⟨-, hout, -⟩ | ⟨hedge, -, o, payload, -, htables⟩
        · rw [hok] at hout
          cases hout
        · rw [hok] at hout
          cases hout
        · rw [hstate₁] at hedge
          obtain ⟨hunder, -⟩ := (valid_depositEvent_iff hacc _ _).1 hedge
          obtain ⟨-, hawait⟩ := (accepting_cases hacc).resolve_left fun h => hunder h.1
          rw [hawait] at hedge
          rw [htables, Tables.find?_recorded o _ payload hrow₁]
          exact ⟨_, rfl, awaiting_edge hedge⟩

/-! ## Operations with one event -/

variable {eventType : EventType} {data : Payload} {stamp : String}

theorem advanceIntent_run (ω : Nat → Oracle) (n : Nat) (hrow : db.intents.find? id = some row) :
    Attempt ω db.toTables row eventType (fun _ => True)
    ((advanceIntent id eventType data stamp).run handle ω n db).1
      ((advanceIntent id eventType data stamp).run handle ω n db).2.2.toTables := by
  simp only [advanceIntent, Prog.bind_def, run_bind_findById]
  rcases findById_eq (ω n) id db with hfind | ⟨hfault, hfind⟩
  · simp only [hfind, hrow, Option.map_some, Prog.ofExcept_ok, Prog.ret_bind, run_bind_now]
    exact transitionAndNotify_run data hrow trivial
  · rw [hfind]
    exact .failed ⟨n, hfault⟩ trivial

theorem advanceIntent_missing (ω : Nat → Oracle) (n : Nat) (hrow : db.intents.find? id = none) :
    ∃ e, ((advanceIntent id eventType data stamp).run handle ω n db).1 = .error e := by
  simp only [advanceIntent, Prog.bind_def, run_bind_findById]
  rcases findById_eq (ω n) id db with hfind | ⟨-, hfind⟩
  · rw [hfind, hrow]
    exact ⟨_, rfl⟩
  · rw [hfind]
    exact ⟨_, rfl⟩

theorem no_self_edge (s : IntentState) : ¬ Valid s s := by cases s <;> decide

/-- An operation that returned normally fails when it is run again. -/
theorem advanceIntent_again {intent : PaymentIntent}
    (hok : ((advanceIntent id eventType data stamp).run handle ω n db).1 = .ok intent)
    (ω' : Nat → Oracle) (m : Nat) :
    ∃ e, ((advanceIntent id eventType data stamp).run handle ω' m
      ((advanceIntent id eventType data stamp).run handle ω n db).2.2).1 = .error e := by
  cases hrow : db.intents.find? id with
  | none =>
    obtain ⟨e, he⟩ : ∃ e, ((advanceIntent id eventType data stamp).run handle ω n db).1 = .error e :=
      advanceIntent_missing ω n hrow
    rw [hok] at he
    cases he
  | some row =>
    rcases (advanceIntent_run ω n hrow).inv with ⟨e, -, -, hout, -⟩ | ⟨-, hout, -⟩ | ⟨-, -, o, payload, -, htables⟩
    · rw [hok] at hout
      cases hout
    · rw [hok] at hout
      cases hout
    · have hrow' : ((advanceIntent id eventType data stamp).run handle ω n db).2.2.intents.find? id =
          some (advance o (mapRow row) (getExpectedNextState eventType) row) := by
        rw [htables, Tables.find?_recorded o _ payload hrow]
      rcases (advanceIntent_run ω' m hrow').inv with ⟨e, -, -, hout, -⟩ | ⟨-, hout, -⟩ | ⟨hedge, -⟩
      · exact ⟨e, hout⟩
      · exact ⟨_, hout⟩
      · exact absurd hedge (no_self_edge _)

end NexoraGateway.Intent
