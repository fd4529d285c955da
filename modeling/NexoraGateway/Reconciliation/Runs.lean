import NexoraGateway.Reconciliation.Service

/-!
# What a reconciliation run and a report answer

The checks look at nothing but the books, which no call changes: a run that returns reports exactly the `findings` of
the books (`runReconciliation_ok`), and a report that is returned says what the books say
(`generateFinancialReport_ok`). A run whose queries are answered and whose UUID is fresh returns
(`runReconciliation_returns`).
-/
namespace NexoraGateway.Reconciliation

open Async Store
open Intent (PaymentIntent MerchantConfig)
open Settlements (Settlement LedgerEntry)

/-- What the five checks find, in their order. -/
def findings (books : Books) (startDate endDate : Time) : List Finding :=
  (books.missingSettlements startDate endDate).map missingSettlement ++
    (books.amountRows startDate endDate).filterMap amountMismatch? ++
    (books.duplicateSettlements startDate endDate).map duplicateSettlement ++
    (books.missingLedgerEntries startDate endDate).map missingLedgerEntry ++
    fxMismatch (books.fxTotals startDate endDate)

def financialSummary (books : Books) (startDate endDate : Time) : FinancialSummary :=
  summarise (books.settlementTotals startDate endDate) (books.feeTotal startDate endDate)
    (books.fxTotals startDate endDate)

/-- Only time has passed. -/
def Quiet (db db' : Db) : Prop := ∃ clock, db' = { db with clock }

/-- The discrepancies are those found, and filed under the record. -/
def Reports (recordId : Id) (discrepancies : List Discrepancy) (found : List Finding) : Prop :=
  discrepancies.map Discrepancy.toFinding = found ∧ ∀ d ∈ discrepancies, d.reconciliationRecordId = recordId

section
variable {ω : Nat → Oracle} {db db' db'' : Db} {n m : Nat} {recordId : Id} {startDate endDate : Time}
  {found found' : List Finding} {ds ds' : List Discrepancy}

theorem Quiet.refl (db : Db) : Quiet db db := ⟨db.clock, rfl⟩

theorem Quiet.trans (h : Quiet db db') (h' : Quiet db' db'') : Quiet db db'' := by
  obtain ⟨clock, rfl⟩ := h
  obtain ⟨clock', rfl⟩ := h'
  exact ⟨clock', rfl⟩

theorem Quiet.tick (o : Oracle) : Quiet db (db.tick o) := ⟨_, rfl⟩

theorem Quiet.books (h : Quiet db db') : db'.books = db.books := by
  obtain ⟨clock, rfl⟩ := h
  rfl

theorem Reports.append (h : Reports recordId ds found) (h' : Reports recordId ds' found') :
    Reports recordId (ds ++ ds') (found ++ found') := by
  refine ⟨by rw [List.map_append, h.1, h'.1], fun d hd => ?_⟩
  rcases List.mem_append.1 hd with hd | hd
  · exact h.2 d hd
  · exact h'.2 d hd

theorem read_ok {α : Type} {o : Oracle} {x y : α} (h : read o db x = (.ok y, db')) : y = x ∧ db' = db := by
  obtain ⟨hdb, hx⟩ := request_eq_ok h
  exact ⟨hx.symm, hdb⟩

theorem read_accepted {α : Type} {o : Oracle} {x : α} (h : o.rejects = none) : read o db x = (.ok x, db) := by
  simp only [read, h, Option.map_none, request]

/-- A query on the books. -/
def Reads (a : Call) (answer : Books → a.Ans) : Prop :=
  ∀ o db, handle a o db = read o (db.tick o) (answer db.books)

theorem reads_intentCounts : Reads (.intentCounts startDate endDate) (·.intentCounts startDate endDate) :=
  fun _ _ => rfl
theorem reads_missingSettlements :
    Reads (.missingSettlements startDate endDate) (·.missingSettlements startDate endDate) := fun _ _ => rfl
theorem reads_amountRows : Reads (.amountRows startDate endDate) (·.amountRows startDate endDate) := fun _ _ => rfl
theorem reads_duplicateSettlements :
    Reads (.duplicateSettlements startDate endDate) (·.duplicateSettlements startDate endDate) := fun _ _ => rfl
theorem reads_missingLedgerEntries :
    Reads (.missingLedgerEntries startDate endDate) (·.missingLedgerEntries startDate endDate) := fun _ _ => rfl
theorem reads_fxTotals : Reads (.fxTotals startDate endDate) (·.fxTotals startDate endDate) := fun _ _ => rfl
theorem reads_settlementTotals :
    Reads (.settlementTotals startDate endDate) (·.settlementTotals startDate endDate) := fun _ _ => rfl
theorem reads_feeTotal : Reads (.feeTotal startDate endDate) (·.feeTotal startDate endDate) := fun _ _ => rfl
theorem reads_chainTotals : Reads (.chainTotals startDate endDate) (·.chainTotals startDate endDate) := fun _ _ => rfl
theorem reads_merchantTotals :
    Reads (.merchantTotals startDate endDate) (·.merchantTotals startDate endDate) := fun _ _ => rfl
theorem reads_fxEntries : Reads (.fxEntries startDate endDate) (·.fxEntries startDate endDate) := fun _ _ => rfl

/-- A query on the books answers what they say. -/
theorem call_ok {a : Call} {answer : Books → a.Ans} (ha : Reads a answer) {x : a.Ans}
    (h : (Prog.await a).run handle ω n db = (.ok x, m, db')) : x = answer db.books ∧ Quiet db db' := by
  have hcall := Prog.ok_of_run_await ω h
  rw [ha] at hcall
  obtain ⟨rfl, rfl⟩ := read_ok hcall
  exact ⟨rfl, Quiet.tick _⟩

theorem createDiscrepancies_ok (found : List Finding)
    (h : (createDiscrepancies recordId found).run handle ω n db = (.ok ds, m, db')) :
    Reports recordId ds found ∧ Quiet db db' := by
  induction found generalizing ds n m db db' with
  | nil =>
    cases h
    exact ⟨⟨rfl, fun _ hd => absurd hd List.not_mem_nil⟩, Quiet.refl _⟩
  | cons finding rest ih =>
    obtain ⟨discrepancy, n₁, db₁, hfirst, h⟩ := Prog.ok_of_run_bind handle ω h
    obtain ⟨discrepancies, n₂, db₂, hrest, hlast⟩ := Prog.ok_of_run_bind handle ω h
    obtain ⟨⟨hfound, hrecord⟩, hquiet⟩ := ih hrest
    cases hfirst
    cases hlast
    refine ⟨⟨congrArg (finding :: ·) hfound, List.forall_mem_cons.2 ⟨rfl, hrecord⟩⟩, ?_⟩
    exact (Quiet.tick _).trans ((Quiet.tick _).trans hquiet)

/-- A check reports what it finds in the books, and leaves them as they are. -/
theorem check_ok {a : Call} {answer : Books → a.Ans} (ha : Reads a answer) {find : a.Ans → List Finding} {books : Books}
    (hbooks : db.books = books)
    (h : ((Prog.await a).bind fun rows => createDiscrepancies recordId (find rows)).run handle ω n db =
      (.ok ds, m, db')) :
    Reports recordId ds (find (answer books)) ∧ db'.books = books ∧ Quiet db db' := by
  obtain ⟨rows, n₁, db₁, hquery, h⟩ := Prog.ok_of_run_bind handle ω h
  obtain ⟨rfl, hquiet⟩ := call_ok ha hquery
  obtain ⟨hreports, hquiet'⟩ := createDiscrepancies_ok _ h
  have hall := hquiet.trans hquiet'
  exact ⟨hbooks ▸ hreports, hall.books.trans hbooks, hall⟩

theorem calculateFinancialSummary_ok {summary : FinancialSummary}
    (h : (calculateFinancialSummary startDate endDate).run handle ω n db = (.ok summary, m, db')) :
    summary = financialSummary db.books startDate endDate ∧ Quiet db db' := by
  obtain ⟨settled, n₁, db₁, hsettled, h⟩ := Prog.ok_of_run_bind handle ω h
  obtain ⟨fees, n₂, db₂, hfees, h⟩ := Prog.ok_of_run_bind handle ω h
  obtain ⟨fx, n₃, db₃, hfx, h⟩ := Prog.ok_of_run_bind handle ω h
  obtain ⟨rfl, hquiet₁⟩ := call_ok reads_settlementTotals hsettled
  obtain ⟨rfl, hquiet₂⟩ := call_ok reads_feeTotal hfees
  obtain ⟨rfl, hquiet₃⟩ := call_ok reads_fxTotals hfx
  cases h
  refine ⟨?_, hquiet₁.trans (hquiet₂.trans hquiet₃)⟩
  rw [hquiet₂.books, hquiet₁.books]
  rfl

theorem now_ok {t : Time} (h : Task.now.run handle ω n db = (.ok t, m, db')) : Quiet db db' := by
  cases h
  exact Quiet.tick _

theorem randomUUID_ok {id : Id} (h : Task.randomUUID.run handle ω n db = (.ok id, m, db')) :
    id = (ω n).uuid ∧ Quiet db db' := by
  cases h
  exact ⟨rfl, Quiet.tick _⟩

/-- A record that is created is inserted, under the UUID that is drawn. -/
theorem createRecord_ok {period : ReconciliationPeriod} {record : ReconciliationRecord}
    (h : (createRecord period startDate endDate).run handle ω n db = (.ok record, m, db')) :
    (∃ now counts, record = mapRecord (newRecord (ω n).uuid period startDate endDate now counts) ∧
      db.records.insert? (newRecord (ω n).uuid period startDate endDate now counts) = some db'.records) ∧
      db'.books = db.books ∧ db'.discrepancies = db.discrepancies := by
  obtain ⟨id, n₁, db₁, hid, h⟩ := Prog.ok_of_run_bind handle ω h
  obtain ⟨now, n₂, db₂, hnow, h⟩ := Prog.ok_of_run_bind handle ω h
  obtain ⟨counts, n₃, db₃, hcounts, h⟩ := Prog.ok_of_run_bind handle ω h
  obtain ⟨done, n₄, db₄, hinsert, h⟩ := Prog.ok_of_run_bind handle ω h
  obtain ⟨-, hquiet⟩ := call_ok reads_intentCounts hcounts
  obtain ⟨rfl, hquiet'⟩ := randomUUID_ok hid
  have hquiet₃ : Quiet db db₃ := hquiet'.trans ((now_ok hnow).trans hquiet)
  cases h
  have hcall := Prog.ok_of_run_await ω hinsert
  obtain ⟨clock, rfl⟩ := hquiet₃
  simp only [handle, execInsert] at hcall
  split at hcall
  · cases hcall
  · rename_i records hins
    obtain ⟨rfl, -⟩ := request_eq_ok hcall
    exact ⟨⟨now, counts, rfl, hins⟩, rfl, rfl⟩

/-- An update writes its row, if there is one. -/
theorem updateRecord_stored {o : Oracle} {status : ReconciliationStatus} {totalDiscrepancies : ℕ}
    {completedAt now : Time} {done : Unit}
    (h : handle (.updateRecord recordId status totalDiscrepancies completedAt now) o db = (.ok done, db')) :
    db'.records.find? recordId =
        (db.records.find? recordId).map (RecordRow.set status totalDiscrepancies completedAt now) ∧
      db'.books = db.books ∧ db'.discrepancies = db.discrepancies := by
  obtain ⟨rfl, -⟩ := request_eq_ok h
  refine ⟨?_, rfl, rfl⟩
  rw [Table.find?_updateWhere]
  refine Option.map_congr fun row hrow => if_pos ?_
  exact decide_eq_true (Table.find?_eq_some.1 hrow).2

theorem getRecord_ok {found : Option ReconciliationRecord}
    (h : (getRecord recordId).run handle ω n db = (.ok found, m, db')) :
    found = (db.records.find? recordId).map mapRecord ∧ Quiet db db' := by
  obtain ⟨row, n₁, db₁, hselect, h⟩ := Prog.ok_of_run_bind handle ω h
  obtain ⟨rfl, rfl⟩ := read_ok (Prog.ok_of_run_await ω hselect)
  cases h
  exact ⟨rfl, Quiet.tick _⟩

/-- A record that is updated is read back with what its columns hold. -/
theorem updateRecord_ok {updates : RecordUpdates} {record : ReconciliationRecord}
    (h : (updateRecord recordId updates).run handle ω n db = (.ok record, m, db')) :
    (∃ row, db'.records.find? recordId = some row ∧ row.totalDiscrepancies = some updates.totalDiscrepancies ∧
      record = updates.apply (mapRecord row)) ∧ db'.books = db.books ∧ db'.discrepancies = db.discrepancies := by
  obtain ⟨now, n₁, db₁, hnow, h⟩ := Prog.ok_of_run_bind handle ω h
  obtain ⟨done, n₂, db₂, hupdate, h⟩ := Prog.ok_of_run_bind handle ω h
  obtain ⟨found, n₃, db₃, hfound, h⟩ := Prog.ok_of_run_bind handle ω h
  obtain ⟨clock, rfl⟩ := now_ok hnow
  obtain ⟨hstored, hbooks, hdiscrepancies⟩ := updateRecord_stored (Prog.ok_of_run_await ω hupdate)
  obtain ⟨rfl, clock', rfl⟩ := getRecord_ok hfound
  cases hrow : db₂.records.find? recordId with
  | none =>
    rw [hrow] at h
    cases h
  | some row =>
    rw [hrow] at h hstored
    obtain ⟨old, -, rfl⟩ := Option.map_eq_some_iff.1 hstored.symm
    cases h
    exact ⟨⟨_, hrow, rfl, rfl⟩, hbooks, hdiscrepancies⟩

/-! ## Whole operations -/

/-- What a run that returns has found, stored and left alone. -/
structure Ran (startDate endDate : Time) (db db' : Db) (result : ReconciliationCheckResult) : Prop where
  reports : Reports result.record.id result.discrepancies (findings db.books startDate endDate)
  passed : result.passed = result.discrepancies.isEmpty
  stored : ∃ row, db'.records.find? result.record.id = some row ∧
    row.totalDiscrepancies = some result.record.totalDiscrepancies
  summary : result.record.discrepancySummary = buildDiscrepancySummary result.discrepancies
  financial : result.record.financialSummary = financialSummary db.books startDate endDate
  books : db'.books = db.books
  discrepancies : db'.discrepancies = db.discrepancies

/-- **A run reports what the checks find in the books**, and nothing else. -/
theorem runReconciliation_ok {period : ReconciliationPeriod} {result : ReconciliationCheckResult}
    (h : (runReconciliation period startDate endDate).run handle ω n db = (.ok result, m, db')) :
    Ran startDate endDate db db' result ∧ result.record.id = (ω (n + 1)).uuid := by
  obtain ⟨startTime, n₁, db₁, hstart, h⟩ := Prog.ok_of_run_bind handle ω h
  obtain ⟨record, n₂, db₂, hrecord, h⟩ := Prog.ok_of_run_bind handle ω h
  obtain ⟨missingSettlements, n₃, db₃, hmissing, h⟩ := Prog.ok_of_run_bind handle ω h
  obtain ⟨amountMismatches, n₄, db₄, hamounts, h⟩ := Prog.ok_of_run_bind handle ω h
  obtain ⟨duplicates, n₅, db₅, hduplicates, h⟩ := Prog.ok_of_run_bind handle ω h
  obtain ⟨missingLedger, n₆, db₆, hledger, h⟩ := Prog.ok_of_run_bind handle ω h
  obtain ⟨fxDiscrepancies, n₇, db₇, hfx, h⟩ := Prog.ok_of_run_bind handle ω h
  obtain ⟨financial, n₈, db₈, hfinancial, h⟩ := Prog.ok_of_run_bind handle ω h
  obtain ⟨completedAt, n₉, db₉, hcompleted, h⟩ := Prog.ok_of_run_bind handle ω h
  obtain ⟨finalRecord, n₁₀, db₁₀, hfinal, h⟩ := Prog.ok_of_run_bind handle ω h
  obtain ⟨endTime, n₁₁, db₁₁, hend, h⟩ := Prog.ok_of_run_bind handle ω h
  cases h
  have hquiet₁ := now_ok hstart
  obtain ⟨⟨now, counts, rfl, hins⟩, hbooks, hrows⟩ := createRecord_ok hrecord
  -- the books are the same at every call
  have h₂ : db₂.books = db.books := hbooks.trans hquiet₁.books
  obtain ⟨hmissing, h₃, hquiet₃⟩ := check_ok reads_missingSettlements h₂ hmissing
  obtain ⟨hamounts, h₄, hquiet₄⟩ := check_ok reads_amountRows h₃ hamounts
  obtain ⟨hduplicates, h₅, hquiet₅⟩ := check_ok reads_duplicateSettlements h₄ hduplicates
  obtain ⟨hledger, h₆, hquiet₆⟩ := check_ok reads_missingLedgerEntries h₅ hledger
  obtain ⟨hfx, h₇, hquiet₇⟩ := check_ok reads_fxTotals h₆ hfx
  obtain ⟨rfl, hquiet₈⟩ := calculateFinancialSummary_ok hfinancial
  obtain ⟨⟨row', hrow', hlength, rfl⟩, hbooks', hrows'⟩ := updateRecord_ok hfinal
  have hid' : row'.id = (ω n₁).uuid := (Table.find?_eq_some.1 hrow').2
  have hall := (((hmissing.append hamounts).append hduplicates).append hledger).append hfx
  have hquiet : Quiet db₂ db₉ :=
    hquiet₃.trans (hquiet₄.trans (hquiet₅.trans (hquiet₆.trans (hquiet₇.trans (hquiet₈.trans (now_ok hcompleted))))))
  obtain ⟨clock, rfl⟩ := hquiet₁
  obtain ⟨clock', rfl⟩ := hquiet
  obtain ⟨clock'', rfl⟩ := now_ok hend
  refine ⟨⟨⟨hall.1, fun d hd => (hall.2 d hd).trans hid'.symm⟩, rfl, ⟨row', ?_, hlength⟩, rfl, ?_, ?_, ?_⟩, ?_⟩
  · exact (congrArg db₁₀.records.find? hid').trans hrow'
  · exact congrArg (financialSummary · startDate endDate) h₇
  · exact hbooks'.trans h₂
  · exact hrows'.trans hrows
  · have hn : n + 1 = n₁ := congrArg (fun r => r.2.1) hstart
    exact hn ▸ hid'

theorem fxDetails_ok {entries : List LedgerEntry} {details : List FxGainLossEntry}
    (h : (fxDetails entries).run handle ω n db = (.ok details, m, db')) :
    details.map (fun d => (d.intentId, d.asset, d.chain, d.gainLoss)) =
        entries.map (fun e => (e.intentId, e.asset, e.chain, metadataAmount e.metadata)) ∧ Quiet db db' := by
  induction entries generalizing details n m db db' with
  | nil =>
    cases h
    exact ⟨rfl, Quiet.refl _⟩
  | cons entry rest ih =>
    obtain ⟨now, n₁, db₁, hnow, h⟩ := Prog.ok_of_run_bind handle ω h
    obtain ⟨rest', n₂, db₂, hrest, hlast⟩ := Prog.ok_of_run_bind handle ω h
    obtain ⟨hmap, hquiet⟩ := ih hrest
    cases hlast
    exact ⟨congrArg (_ :: ·) hmap, (now_ok hnow).trans hquiet⟩

/-- What a report that is returned says. -/
structure Said (startDate endDate : Time) (books : Books) (report : FinancialReport) : Prop where
  summary : report.summary = financialSummary books startDate endDate
  byChain : report.byChain = (books.chainTotals startDate endDate).map ChainRow.summary
  byMerchant : report.byMerchant = (books.merchantTotals startDate endDate).map MerchantRow.summary
  details : report.fxGainLossDetails.map (fun d => (d.intentId, d.asset, d.chain, d.gainLoss)) =
    (books.fxEntries startDate endDate).map fun e => (e.intentId, e.asset, e.chain, metadataAmount e.metadata)

/-- **A report says what the books say**, and changes nothing. -/
theorem generateFinancialReport_ok {period : ReconciliationPeriod} {report : FinancialReport}
    (h : (generateFinancialReport period startDate endDate).run handle ω n db = (.ok report, m, db')) :
    Said startDate endDate db.books report ∧ Quiet db db' := by
  obtain ⟨summary, n₁, db₁, hsummary, h⟩ := Prog.ok_of_run_bind handle ω h
  obtain ⟨byChain, n₂, db₂, hchain, h⟩ := Prog.ok_of_run_bind handle ω h
  obtain ⟨byMerchant, n₃, db₃, hmerchant, h⟩ := Prog.ok_of_run_bind handle ω h
  obtain ⟨details, n₄, db₄, hdetails, h⟩ := Prog.ok_of_run_bind handle ω h
  obtain ⟨id, n₅, db₅, hid, h⟩ := Prog.ok_of_run_bind handle ω h
  obtain ⟨generatedAt, n₆, db₆, hgenerated, h⟩ := Prog.ok_of_run_bind handle ω h
  obtain ⟨chains, k, s, hchains, hchain⟩ := Prog.ok_of_run_bind handle ω hchain
  obtain ⟨merchants, k', s', hmerchants, hmerchant⟩ := Prog.ok_of_run_bind handle ω hmerchant
  obtain ⟨entries, k'', s'', hentries, hdetails⟩ := Prog.ok_of_run_bind handle ω hdetails
  obtain ⟨rfl, hquiet₁⟩ := calculateFinancialSummary_ok hsummary
  obtain ⟨rfl, hquiet₂⟩ := call_ok reads_chainTotals hchains
  cases hchain
  obtain ⟨rfl, hquiet₃⟩ := call_ok reads_merchantTotals hmerchants
  cases hmerchant
  obtain ⟨rfl, hquiet₄⟩ := call_ok reads_fxEntries hentries
  obtain ⟨hmap, hquiet₅⟩ := fxDetails_ok hdetails
  obtain ⟨-, hquiet₆⟩ := randomUUID_ok hid
  cases h
  have h₁ := hquiet₁.books
  have h₂ := hquiet₂.books.trans h₁
  have h₃ := hquiet₃.books.trans h₂
  refine ⟨⟨rfl, ?_, ?_, ?_⟩, ?_⟩
  · exact congrArg (fun books => (Books.chainTotals books startDate endDate).map ChainRow.summary) h₁
  · exact congrArg (fun books => (Books.merchantTotals books startDate endDate).map MerchantRow.summary) h₂
  · rw [hmap, h₃]
  · have hend := hquiet₄.trans (hquiet₅.trans (hquiet₆.trans (now_ok hgenerated)))
    exact hquiet₁.trans (hquiet₂.trans (hquiet₃.trans hend))

/-- An export reads the record and the rows filed under it. -/
theorem exportData_ok {text : Export} (h : (exportData recordId .json).run handle ω n db = (.ok text, m, db')) :
    ∃ row, db.records.find? recordId = some row ∧
      text = .json (mapRecord row) (db.discrepancies.filter fun d => d.reconciliationRecordId = recordId) := by
  obtain ⟨found, n₁, db₁, hfound, h⟩ := Prog.ok_of_run_bind handle ω h
  obtain ⟨rfl, clock, rfl⟩ := getRecord_ok hfound
  cases hrow : db.records.find? recordId with
  | none =>
    rw [hrow] at h
    cases h
  | some row =>
    rw [hrow] at h
    obtain ⟨rows, n₂, db₂, hrows, h⟩ := Prog.ok_of_run_bind handle ω h
    obtain ⟨rfl, -⟩ := read_ok (Prog.ok_of_run_await ω hrows)
    cases h
    exact ⟨row, rfl, rfl⟩

/-! ## Runs that return -/

theorem now_returns (ω : Nat → Oracle) (n : Nat) (db : Db) :
    Task.now.Returns handle ω (fun _ db' => Quiet db db') n db :=
  ⟨_, _, _, rfl, Quiet.tick _⟩

theorem randomUUID_returns (ω : Nat → Oracle) (n : Nat) (db : Db) :
    Task.randomUUID.Returns handle ω (fun id db' => id = (ω n).uuid ∧ Quiet db db') n db :=
  ⟨_, _, _, rfl, rfl, Quiet.tick _⟩

theorem createDiscrepancies_returns (recordId : Id) (ω : Nat → Oracle) (found : List Finding) (n : Nat) (db : Db) :
    (createDiscrepancies recordId found).Returns handle ω (fun _ db' => Quiet db db') n db := by
  induction found generalizing n db with
  | nil => exact Prog.Returns.ret (Quiet.refl _)
  | cons finding rest ih =>
    have hone : (createDiscrepancy recordId finding).Returns handle ω (fun _ db' => Quiet db db') n db :=
      (randomUUID_returns ω n db).bind fun _ _ _ hid => (now_returns ω _ _).bind fun _ _ _ hnow =>
        Prog.Returns.ret (hid.2.trans hnow)
    exact hone.bind fun _ _ _ hquiet => (ih _ _).bind fun _ _ _ hquiet' => Prog.Returns.ret (hquiet.trans hquiet')

theorem fxDetails_returns (ω : Nat → Oracle) (entries : List LedgerEntry) (n : Nat) (db : Db) :
    (fxDetails entries).Returns handle ω (fun _ _ => True) n db := by
  induction entries generalizing n db with
  | nil => exact Prog.Returns.ret trivial
  | cons entry rest ih =>
    exact (now_returns ω n db).bind fun _ _ _ _ => (ih _ _).bind fun _ _ _ _ => Prog.Returns.ret trivial

section
variable (hω : ∀ k, (ω k).rejects = none)
include hω

theorem call_returns {a : Call} {answer : Books → a.Ans} (ha : Reads a answer) (n : Nat) (db : Db) :
    (Prog.await a).Returns handle ω (fun _ db' => Quiet db db') n db := by
  refine Prog.Returns.await (x := answer db.books) (t := db.tick (ω n)) ?_ (Quiet.tick _)
  rw [ha, read_accepted (hω n)]

theorem check_returns {a : Call} {answer : Books → a.Ans} (ha : Reads a answer) (find : a.Ans → List Finding)
    (n : Nat) (db : Db) :
    ((Prog.await a).bind fun rows => createDiscrepancies recordId (find rows)).Returns handle ω
      (fun _ db' => Quiet db db') n db := by
  refine (call_returns hω ha n db).bind fun rows m db₁ hquiet => ?_
  obtain ⟨x, m', db₂, hrun, hquiet'⟩ := createDiscrepancies_returns recordId ω (find rows) m db₁
  exact ⟨x, m', db₂, hrun, hquiet.trans hquiet'⟩

theorem calculateFinancialSummary_returns (n : Nat) (db : Db) :
    (calculateFinancialSummary startDate endDate).Returns handle ω (fun _ db' => Quiet db db') n db := by
  refine (call_returns hω reads_settlementTotals n db).bind fun _ _ _ h₁ => ?_
  refine (call_returns hω reads_feeTotal _ _).bind fun _ _ _ h₂ => ?_
  refine (call_returns hω reads_fxTotals _ _).bind fun _ _ _ h₃ => ?_
  exact Prog.Returns.ret (h₁.trans (h₂.trans h₃))

/-- The record is there once it is created. -/
theorem createRecord_returns (period : ReconciliationPeriod) (n : Nat) (db : Db)
    (hfresh : ∀ k, db.records.find? (ω k).uuid = none) :
    (createRecord period startDate endDate).Returns handle ω
      (fun record db' => ∃ row, db'.records.find? record.id = some row) n db := by
  refine (randomUUID_returns ω n db).bind fun id _ _ h₁ => (now_returns ω _ _).bind fun now _ _ h₂ => ?_
  refine (call_returns hω reads_intentCounts _ _).bind fun counts m db₃ h₃ => ?_
  obtain ⟨rfl, h₁⟩ := h₁
  obtain ⟨clock, rfl⟩ := h₁.trans (h₂.trans h₃)
  let row := newRecord (ω n).uuid period startDate endDate now counts
  obtain ⟨records, hins⟩ := Option.isSome_iff_exists.1 (Table.insert?_isSome (v := row).2 (hfresh n))
  have hinsert : handle (.insertRecord row) (ω m) { db with clock } =
      (.ok (), { db with records, clock := clock + (ω m).took }) := by
    simp only [handle, execInsert, Db.tick, hins, hω m, Option.map_none, request]
    rfl
  exact Prog.Returns.await_bind hinsert (Prog.Returns.ret ⟨row, (Table.find?_insert? hins _).trans (if_pos rfl)⟩)

theorem getRecord_returns (n : Nat) (db : Db) (hrow : ∃ row, db.records.find? recordId = some row) :
    (getRecord recordId).Returns handle ω (fun found db' => (∃ record, found = some record) ∧ Quiet db db') n db := by
  have hselect : handle (.selectRecord recordId) (ω n) db = (.ok (db.records.find? recordId), db.tick (ω n)) :=
    read_accepted (hω n)
  obtain ⟨row, hrow⟩ := hrow
  refine Prog.Returns.await_bind hselect (Prog.Returns.ret ⟨?_, Quiet.tick _⟩)
  exact ⟨mapRecord row, congrArg (Option.map mapRecord) hrow⟩

/-- A record that is there can be updated. -/
theorem updateRecord_returns (updates : RecordUpdates) (n : Nat) (db : Db)
    (hrow : ∃ row, db.records.find? recordId = some row) :
    (updateRecord recordId updates).Returns handle ω (fun _ _ => True) n db := by
  refine (now_returns ω n db).bind fun now m db₁ h₁ => ?_
  obtain ⟨clock, rfl⟩ := h₁
  obtain ⟨row, hrow⟩ := hrow
  let records := db.records.updateWhere (fun row => row.id = recordId)
    (RecordRow.set updates.status updates.totalDiscrepancies updates.completedAt now) (set_id _ _ _ _)
  have hupdate : handle (.updateRecord recordId updates.status updates.totalDiscrepancies updates.completedAt now)
      (ω m) { db with clock } = (.ok (), { db with records, clock := clock + (ω m).took }) := by
    simp only [handle, execUpdate, Db.tick, hω m, Option.map_none, request]
    rfl
  have hstored := (updateRecord_stored hupdate).1.trans (congrArg (Option.map _) hrow)
  refine Prog.Returns.await_bind hupdate ((getRecord_returns hω (m + 1) _ ⟨_, hstored⟩).bind fun found _ _ h => ?_)
  obtain ⟨⟨record, rfl⟩, -⟩ := h
  exact Prog.Returns.ret trivial

/-- **A run returns** when its queries are answered and the UUIDs are fresh. -/
theorem runReconciliation_returns (period : ReconciliationPeriod) (n : Nat) (db : Db)
    (hfresh : ∀ k, db.records.find? (ω k).uuid = none) :
    (runReconciliation period startDate endDate).Returns handle ω (fun _ _ => True) n db := by
  refine (now_returns ω n db).bind fun _ _ _ h₁ => ?_
  obtain ⟨clock, rfl⟩ := h₁
  refine (createRecord_returns hω period _ { db with clock } hfresh).bind fun record _ db₂ hrow => ?_
  refine (check_returns hω reads_missingSettlements _ _ _).bind fun _ _ _ h₂ => ?_
  refine (check_returns hω reads_amountRows _ _ _).bind fun _ _ _ h₃ => ?_
  refine (check_returns hω reads_duplicateSettlements _ _ _).bind fun _ _ _ h₄ => ?_
  refine (check_returns hω reads_missingLedgerEntries _ _ _).bind fun _ _ _ h₅ => ?_
  refine (check_returns hω reads_fxTotals _ _ _).bind fun _ _ _ h₆ => ?_
  refine (calculateFinancialSummary_returns hω _ _).bind fun _ _ _ h₇ => ?_
  refine (now_returns ω _ _).bind fun _ _ _ h₈ => ?_
  obtain ⟨clock, rfl⟩ := h₂.trans (h₃.trans (h₄.trans (h₅.trans (h₆.trans (h₇.trans h₈)))))
  refine (updateRecord_returns hω _ _ { db₂ with clock } hrow).bind fun _ _ _ _ => ?_
  refine (now_returns ω _ _).bind fun _ _ _ _ => ?_
  exact Prog.Returns.ret trivial

/-- A record that is there can be exported. -/
theorem exportData_returns (n : Nat) (db : Db) (hrow : ∃ row, db.records.find? recordId = some row) :
    (exportData recordId .json).Returns handle ω (fun _ _ => True) n db := by
  refine (getRecord_returns hω n db hrow).bind fun found m db₁ h => ?_
  obtain ⟨⟨record, rfl⟩, -⟩ := h
  have hselect : handle (.selectDiscrepancies recordId) (ω m) db₁ =
      (.ok (db₁.discrepancies.filter fun row => row.reconciliationRecordId = recordId), db₁.tick (ω m)) :=
    read_accepted (hω m)
  exact Prog.Returns.await_bind hselect (Prog.Returns.ret trivial)

/-- **A report is made** when its queries are answered. -/
theorem generateFinancialReport_returns (period : ReconciliationPeriod) (n : Nat) (db : Db) :
    (generateFinancialReport period startDate endDate).Returns handle ω (fun _ _ => True) n db := by
  refine (calculateFinancialSummary_returns hω n db).bind fun _ _ _ _ => ?_
  have hchain (n : Nat) (db : Db) : (getFinancialByChain startDate endDate).Returns handle ω (fun _ _ => True) n db :=
    (call_returns hω reads_chainTotals n db).bind fun _ _ _ _ => Prog.Returns.ret trivial
  have hmerchant (n : Nat) (db : Db) :
      (getFinancialByMerchant startDate endDate).Returns handle ω (fun _ _ => True) n db :=
    (call_returns hω reads_merchantTotals n db).bind fun _ _ _ _ => Prog.Returns.ret trivial
  have hdetails (n : Nat) (db : Db) :
      (getFxGainLossDetails startDate endDate).Returns handle ω (fun _ _ => True) n db :=
    (call_returns hω reads_fxEntries n db).bind fun rows _ _ _ => fxDetails_returns ω rows _ _
  refine (hchain _ _).bind fun _ _ _ _ => (hmerchant _ _).bind fun _ _ _ _ => (hdetails _ _).bind fun _ _ _ _ => ?_
  refine (randomUUID_returns ω _ _).bind fun _ _ _ _ => (now_returns ω _ _).bind fun _ _ _ _ => ?_
  exact Prog.Returns.ret trivial

end

end

/-! ## The books of one intent -/

/-- One intent of one merchant, with any settlements of it and any ledger. -/
def booksOf (merchant : MerchantConfig) (intent : PaymentIntent) (settlements : Table Settlement.id)
    (ledger : List LedgerEntry) (hmerchant : merchant.id = intent.merchantId)
    (hrows : ∀ row ∈ settlements.rows, row.intentId = intent.id ∧ row.merchantId = merchant.id) : Books :=
  have hmerchants : ∀ id, merchant.id = id → ((⟨[merchant], List.nodup_singleton _⟩ : Table MerchantConfig.id).find?
      id).isSome = true := fun _ hid => by simp [Table.find?, hid]
  { merchants := ⟨[merchant], List.nodup_singleton _⟩
    intents := ⟨[intent], List.nodup_singleton _⟩
    settlements, ledger
    merchantOfIntent := fun row hrow => hmerchants _ (List.mem_singleton.1 hrow ▸ hmerchant)
    intentOfSettlement := fun row hrow => by simp [Table.find?, (hrows row hrow).1]
    merchantOfSettlement := fun row hrow => hmerchants _ (hrows row hrow).2.symm }

def noBooks : Books where
  merchants := .empty
  intents := .empty
  settlements := .empty
  ledger := []
  merchantOfIntent := fun _ h => absurd h List.not_mem_nil
  intentOfSettlement := fun _ h => absurd h List.not_mem_nil
  merchantOfSettlement := fun _ h => absurd h List.not_mem_nil

/-- The database before the first reconciliation. -/
def dbOf (books : Books) : Db := ⟨books, .empty, [], 0⟩

/-- A run on books that no run has looked at returns. -/
theorem exists_run (books : Books) (period : ReconciliationPeriod) (startDate endDate : Time) :
    ∃ result m db', (runReconciliation period startDate endDate).run handle (fun _ => {}) 0 (dbOf books) =
      (.ok result, m, db') := by
  exact (runReconciliation_returns (fun _ => rfl) period 0 (dbOf books) fun _ => rfl).exists_run

/-- Reports can be made of all books. -/
theorem exists_report (books : Books) (period : ReconciliationPeriod) (startDate endDate : Time) :
    ∃ report m db', (generateFinancialReport period startDate endDate).run handle (fun _ => {}) 0 (dbOf books) =
      (.ok report, m, db') := by
  exact (generateFinancialReport_returns (fun _ => rfl) period 0 (dbOf books)).exists_run

/-- A record can be exported where it is. -/
theorem exists_export {db : Db} {recordId : Id} (hrow : ∃ row, db.records.find? recordId = some row) :
    ∃ text m db', (exportData recordId .json).run handle (fun _ => {}) 0 db = (.ok text, m, db') := by
  exact (exportData_returns (fun _ => rfl) 0 db hrow).exists_run

end NexoraGateway.Reconciliation
