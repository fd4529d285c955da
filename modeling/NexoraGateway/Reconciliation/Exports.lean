import NexoraGateway.Reconciliation.Runs
import NexoraGateway.Text.Csv

/-!
# Exports as comma-separated values (reconciliation.service.ts:153)

`exportData` joins the fields with commas and the lines with line feeds, and quotes nothing. What it writes is read back
just when no field needs quotes and `mapDiscrepancy` keeps every difference (`readsBack_iff`); the actual value that
`checkFxGainLoss` writes itself has a comma.
-/
namespace NexoraGateway.Reconciliation

open Async Store
open Text.Csv (AllPlain chars parse render)

/-- A `difference` as the driver answers it: a `NUMERIC` as its numeral, which is never empty, a floating-point column
as a number. -/
inductive DriverNumber where
  | null
  | numeral (q : ℚ)
  | number (q : ℚ)
  deriving DecidableEq

/-- The number that is stored. -/
def DriverNumber.stored : DriverNumber → Option ℚ
  | null => none
  | numeral q | number q => some q

/-- `row.difference ? Number(row.difference) : null`: the number 0 is falsy. -/
def DriverNumber.map : DriverNumber → Option ℚ
  | null => none
  | numeral q => some q
  | number q => if q = 0 then none else some q

/-- A `discrepancies` row as the driver answers it. -/
structure DiscrepancyRow where
  id : Id
  reconciliationRecordId : Id
  type : DiscrepancyType
  severity : DiscrepancySeverity
  intentId : Id
  description : String
  expectedValue : Json
  actualValue : Json
  difference : DriverNumber
  metadata : Payload := []
  detectedAt : Time
  resolvedAt : Option Time := none
  resolution : Option String := none

/-- `mapDiscrepancy` (reconciliation.service.ts:652). -/
def mapDiscrepancy (row : DiscrepancyRow) : Discrepancy :=
  { id := row.id, reconciliationRecordId := row.reconciliationRecordId, type := row.type, severity := row.severity
    intentId := row.intentId, description := row.description, expectedValue := row.expectedValue
    actualValue := row.actualValue, difference := row.difference.map, metadata := row.metadata
    detectedAt := row.detectedAt, resolvedAt := row.resolvedAt, resolution := row.resolution }

/-- The database with these discrepancies. -/
def withRows (rows : List DiscrepancyRow) (db : Db) : Db := { db with discrepancies := rows.map mapDiscrepancy }

/-- The rows that `exportData` finds. -/
def rowsOf (recordId : Id) (rows : List DiscrepancyRow) : List DiscrepancyRow :=
  rows.filter fun row => row.reconciliationRecordId = recordId

def headerFields : List String :=
  ["Type", "Severity", "Intent ID", "Description", "Expected", "Actual", "Difference", "Detected At"]

/-- The eight fields of a discrepancy, with this difference. -/
def fieldsWith (row : DiscrepancyRow) (difference : Option ℚ) : List String :=
  [row.type.name, row.severity.name, row.intentId, row.description, template row.expectedValue,
    template row.actualValue, (difference.map Settlements.numeral).getD "", Text.toISOString row.detectedAt]

/-- What the row holds. -/
def DiscrepancyRow.fields (row : DiscrepancyRow) : List String := fieldsWith row row.difference.stored

/-- The export is read back as the header and what the rows hold. -/
def CsvReadsBack (rows : List DiscrepancyRow) (text : String) : Prop :=
  parse text = some (headerFields :: rows.map DiscrepancyRow.fields)

/-- No field needs quotes, and no difference is the number 0. -/
def Exportable (row : DiscrepancyRow) : Prop :=
  (∀ field ∈ row.fields, Text.Csv.Plain field.toList) ∧ row.difference ≠ .number 0

/-- The lines of the export. -/
def written (rows : List DiscrepancyRow) : List (List String) :=
  headerFields :: rows.map fun row => fieldsWith row row.difference.map

/-- What `exportData` writes of the rows. -/
def csvText (rows : List DiscrepancyRow) : String :=
  "\n".intercalate (csvHeader :: (rows.map mapDiscrepancy).map csvLine)

theorem csvText_eq (rows : List DiscrepancyRow) : csvText rows = render (written rows) := by
  have hheader : csvHeader = ",".intercalate headerFields := by decide +kernel
  simp only [csvText, hheader, render, written, List.map_cons, List.map_map]
  rfl

theorem rowsOf_map (recordId : Id) (rows : List DiscrepancyRow) :
    (rows.map mapDiscrepancy).filter (fun row => row.reconciliationRecordId = recordId) =
      (rowsOf recordId rows).map mapDiscrepancy := by
  rw [List.filter_map]
  rfl

/-- The export of a record that is there. -/
theorem exportData_csv {ω : Nat → Oracle} (hω : ∀ k, (ω k).rejects = none) (n : Nat) (db : Db) (recordId : Id)
    (rows : List DiscrepancyRow) (hrecord : ∃ row, db.records.find? recordId = some row) :
    (exportData recordId .csv).Returns handle ω (fun answer _ => answer = .csv (csvText (rowsOf recordId rows))) n
      (withRows rows db) := by
  refine (getRecord_returns hω n (withRows rows db) hrecord).bind fun found m db₁ h => ?_
  obtain ⟨⟨record, rfl⟩, clock, rfl⟩ := h
  refine Prog.Returns.await_bind (read_accepted (hω m)) (Prog.Returns.ret ?_)
  exact congrArg (fun found => Export.csv ("\n".intercalate (csvHeader :: found.map csvLine)))
    (rowsOf_map recordId rows)

/-! ## What is read back -/

variable {rows : List DiscrepancyRow} {row : DiscrepancyRow}

theorem written_length : ∀ r ∈ written rows, r.length = 8 := by
  intro r hr
  rcases List.mem_cons.1 hr with rfl | hr
  · rfl
  · obtain ⟨row, -, rfl⟩ := List.mem_map.1 hr
    rfl

theorem map_eq_stored (h : row.difference ≠ .number 0) : row.difference.map = row.difference.stored := by
  cases hdifference : row.difference with
  | null | numeral q => rfl
  | number q =>
    have hq : q ≠ 0 := fun hq => h (hq ▸ hdifference)
    exact (if_neg hq : (if q = 0 then none else some q) = some q)

/-- The number 0 is written shorter than it is. -/
theorem size_fields (row : DiscrepancyRow) :
    Text.Csv.size (chars [fieldsWith row row.difference.map]) + (if row.difference = .number 0 then 1 else 0) =
      Text.Csv.size (chars [row.fields]) := by
  by_cases h : row.difference = .number 0
  · have hzero : (Settlements.numeral 0).toList.length = 1 := by decide +kernel
    simp only [Text.Csv.size, chars, DiscrepancyRow.fields, fieldsWith, h, DriverNumber.map, DriverNumber.stored]
    simp [hzero]
    omega
  · rw [if_neg h, DiscrepancyRow.fields, map_eq_stored h, Nat.add_zero]

theorem size_written (rows : List DiscrepancyRow) :
    Text.Csv.size (chars (written rows)) + rows.countP (fun row => decide (row.difference = .number 0)) =
      Text.Csv.size (chars (headerFields :: rows.map DiscrepancyRow.fields)) := by
  have hrows : Text.Csv.size (chars (rows.map fun row => fieldsWith row row.difference.map)) +
      rows.countP (fun row => decide (row.difference = .number 0)) =
        Text.Csv.size (chars (rows.map DiscrepancyRow.fields)) := by
    induction rows with
    | nil => rfl
    | cons row rows ih =>
      have hrow := size_fields row
      simp only [chars, List.map_cons, List.map_nil, List.countP_cons, decide_eq_true_eq] at ih hrow ⊢
      rw [Text.Csv.size_cons _ (List.map _ _), Text.Csv.size_cons _ (List.map _ (List.map DiscrepancyRow.fields _))]
      omega
  have hheader (rest : List (List String)) : Text.Csv.size (chars (headerFields :: rest)) =
      Text.Csv.size (chars [headerFields]) + Text.Csv.size (chars rest) := Text.Csv.size_cons _ _
  rw [written, hheader (rows.map _), hheader (rows.map DiscrepancyRow.fields), ← hrows, Nat.add_assoc]

/-- **An export is read back** just when no field needs quotes and no difference is the number 0. -/
theorem readsBack_iff (rows : List DiscrepancyRow) :
    CsvReadsBack rows (csvText rows) ↔ ∀ row ∈ rows, Exportable row := by
  have hwritten : ∀ r ∈ written rows, 1 < r.length := fun r hr => by rw [written_length r hr]; decide
  have hne : ∀ r ∈ written rows, r ≠ [] := fun r hr =>
    List.ne_nil_of_length_pos (Nat.lt_trans Nat.zero_lt_one (hwritten r hr))
  have hsize := size_written rows
  rw [CsvReadsBack, csvText_eq]
  constructor
  · intro hread row hrow
    have hle : Text.Csv.size (chars (headerFields :: rows.map DiscrepancyRow.fields)) ≤
        Text.Csv.size (chars (written rows)) := Text.Csv.size_le_of_parse (List.cons_ne_nil _ _) hne hread
    have hzero : rows.countP (fun row => decide (row.difference = .number 0)) = 0 := by omega
    have hplain := Text.Csv.plain_of_parse (List.cons_ne_nil _ _) hne hread (hle.antisymm (by omega))
    refine ⟨fun field hfield => ?_, fun h => List.countP_eq_zero.1 hzero row hrow (decide_eq_true h)⟩
    refine hplain (row.fields.map String.toList) ?_ field.toList (List.mem_map_of_mem hfield)
    exact List.mem_map_of_mem (List.mem_cons_of_mem _ (List.mem_map_of_mem hrow))
  · intro hrows
    have hfields : written rows = headerFields :: rows.map DiscrepancyRow.fields :=
      congrArg (headerFields :: ·) (List.map_congr_left fun row hrow => by
        rw [DiscrepancyRow.fields, map_eq_stored (hrows row hrow).2])
    rw [← hfields]
    refine Text.Csv.parse_render hwritten (hfields ▸ List.forall_mem_cons.2 ⟨by decide +kernel, fun r hr => ?_⟩)
    obtain ⟨fields, hmem, rfl⟩ := List.mem_map.1 hr
    obtain ⟨row, hrow, rfl⟩ := List.mem_map.1 hmem
    exact List.forall_mem_map.2 (hrows row hrow).1

/-- **What is exported is read back** just when no field needs quotes and no difference is the number 0. -/
theorem exportData_readsBack_iff (ω : Nat → Oracle) (hω : ∀ k, (ω k).rejects = none) (n : Nat) (db : Db) (recordId : Id)
    (rows : List DiscrepancyRow) (hrecord : ∃ row, db.records.find? recordId = some row) :
    ∃ text m db', (exportData recordId .csv).run handle ω n (withRows rows db) = (.ok (.csv text), m, db') ∧
      (CsvReadsBack (rowsOf recordId rows) text ↔ ∀ row ∈ rowsOf recordId rows, Exportable row) := by
  obtain ⟨answer, m, db', hrun, rfl⟩ := exportData_csv hω n db recordId rows hrecord
  exact ⟨_, m, db', hrun, readsBack_iff _⟩

/-! ## The discrepancy of `checkFxGainLoss` -/

/-- One record. -/
def recordDb : Db := ⟨noBooks, ⟨[newRecord "r1" .daily 0 86400000 0 ⟨0, 0, 0, 0⟩], List.nodup_singleton _⟩, [], 0⟩

/-- A discrepancy as it is stored for the record. -/
def storedAs (finding : Finding) (difference : DriverNumber) : DiscrepancyRow :=
  { id := "d1", reconciliationRecordId := "r1", type := finding.type, severity := finding.severity
    intentId := finding.intentId, description := finding.description, expectedValue := finding.expectedValue
    actualValue := finding.actualValue, difference, detectedAt := 0 }

def duplicateRow : DiscrepancyRow := storedAs (duplicateSettlement ("i1", 2)) (.numeral 1)

theorem exportData_readsBack_iff_duplicate : ∃ text m db',
    (exportData "r1" .csv).run handle (fun _ => {}) 0 (withRows [duplicateRow] recordDb) = (.ok (.csv text), m, db') ∧
      (CsvReadsBack [duplicateRow] text ↔ ∀ row ∈ [duplicateRow], Exportable row) :=
  exportData_readsBack_iff (fun _ => {}) (fun _ => rfl) 0 recordDb "r1" [duplicateRow] ⟨_, rfl⟩

/-- The service's own text has a comma, so that the second row has nine fields. -/
theorem fx_export_not_readsBack : ∃ finding, fxMismatch ⟨5, 1⟩ = [finding] ∧ ∃ text m db',
    (exportData "r1" .csv).run handle (fun _ => {}) 0 (withRows [storedAs finding (.numeral 4)] recordDb) =
      (.ok (.csv text), m, db') ∧
    ¬ CsvReadsBack [storedAs finding (.numeral 4)] text := by
  refine ⟨_, if_pos (by norm_num), _, _, _, rfl, fun hread => ?_⟩
  have hactual := ((readsBack_iff [_]).1 hread _ List.mem_cons_self).1 "Gains: 5, Losses: 1"
  exact absurd (hactual (by decide +kernel)) (by decide +kernel)

/-- A difference that is the number 0 leaves its field empty. -/
example : DriverNumber.map (.number 0) = none ∧ DriverNumber.stored (.number 0) = some 0 := ⟨rfl, rfl⟩

end NexoraGateway.Reconciliation
