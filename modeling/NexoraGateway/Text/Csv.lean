import Mathlib.Algebra.BigOperators.Group.List.Basic
import Mathlib.Algebra.GroupWithZero.Nat

/-!
# Comma-separated values (RFC 4180)

A reader of texts with quoted fields, whose records end with a line feed, alone or after a carriage return. It rejects a
quote inside an unquoted field, and what follows a closing quote other than a separator.

* `parse_render` — what is written without quotes is read back, when no field has a character that separates.
* `plain_of_parse` — and only then: every quote, and every carriage return, makes the text longer than what it holds.
-/
namespace Text.Csv

/-- The characters that mean something to the reader. -/
def separators : List Char := [',', '"', '\n', '\r']

/-- The field can stand without quotes. -/
def Plain (field : List Char) : Prop := ∀ c ∈ field, c ∉ separators

instance : DecidablePred Plain := fun field =>
  decidable_of_iff (field.all fun c => c ∉ separators) (by simp [Plain])

/-- Where the reader is: before a record, before a field, in one, in a quoted one, after a quote that may be its last,
after a carriage return. -/
inductive State where
  | line | start | plain | quoted | closed | cr
  deriving DecidableEq

/-- In these states a quote would open a field, or is out of place. -/
def State.Open (state : State) : Prop := state = .line ∨ state = .start ∨ state = .plain

/-- The character stands before what has been read of the field. -/
def addChar (c : Char) : List (List (List Char)) → List (List (List Char))
  | (field :: record) :: records => ((c :: field) :: record) :: records
  | records => records

/-- An empty field stands before what has been read of the record. -/
def addField : List (List (List Char)) → List (List (List Char))
  | record :: records => ([] :: record) :: records
  | [] => []

/-- The records of a text. The first field of the first is what is left of the one the reader is in. -/
def records : State → List Char → Option (List (List (List Char)))
  | .line, [] => some []
  | .quoted, [] | .cr, [] => none
  | _, [] => some [[[]]]
  | .quoted, c :: cs => if c = '"' then records .closed cs else (records .quoted cs).map (addChar c)
  | .cr, c :: cs => if c = '\n' then (records .line cs).map ([[]] :: ·) else none
  | state, c :: cs =>
    if c = ',' then (records .start cs).map addField
    else if c = '\n' then (records .line cs).map ([[]] :: ·)
    else if c = '\r' then records .cr cs
    else if c = '"' then
      if state = .plain then none
      else if state = .closed then (records .quoted cs).map (addChar '"')
      else records .quoted cs
    else if state = .closed then none
    else (records .plain cs).map (addChar c)

def parse (text : String) : Option (List (List String)) :=
  (records .line text.toList).map (List.map (List.map String.ofList))

/-- What `join` writes: no field is quoted. -/
def render (rows : List (List String)) : String := "\n".intercalate (rows.map (",".intercalate))

example : parse "a,b\n\"c,\"\"d\"\"\",\r\n" = some [["a", "b"], ["c,\"d\"", ""]] := by decide +kernel

/-! ## A text is no shorter than what it holds -/

/-- The length of the rows, with a separator after each field. -/
def size (rows : List (List (List Char))) : ℕ := (rows.map fun r => (r.map fun f => f.length + 1).sum).sum

variable {state : State} {text : List Char} {rows : List (List (List Char))} {c : Char}

theorem size_addChar_le (c : Char) (rows : List (List (List Char))) : size (addChar c rows) ≤ size rows + 1 := by
  unfold addChar
  split
  · simp only [size, List.map_cons, List.sum_cons, List.length_cons]
    omega
  · omega

theorem size_addField_le (rows : List (List (List Char))) : size (addField rows) ≤ size rows + 1 := by
  unfold addField
  split
  · simp only [size, List.map_cons, List.sum_cons, List.length_nil]
    omega
  · omega

theorem size_cons (record : List (List Char)) (rows : List (List (List Char))) :
    size (record :: rows) = size [record] + size rows := by
  simp only [size, List.map_cons, List.map_nil, List.sum_cons, List.sum_nil, Nat.add_zero]

theorem size_newRecord (rows : List (List (List Char))) : size ([[]] :: rows) = size rows + 1 := by
  simp only [size, List.map_cons, List.sum_cons, List.length_nil, List.map_nil, List.sum_nil]
  omega

/-- One character makes the rows at most one longer. -/
theorem size_le_of_map {read : Option (List (List (List Char)))} {g : List (List (List Char)) → List (List (List Char))}
    (hg : ∀ rows, size (g rows) ≤ size rows + 1) (hread : ∀ {rows}, read = some rows → size rows ≤ text.length + 1)
    (h : read.map g = some rows) : size rows ≤ (c :: text).length + 1 := by
  obtain ⟨rest, hrest, rfl⟩ := Option.map_eq_some_iff.1 h
  exact Nat.le_trans (hg rest) (Nat.add_le_add_right (hread hrest) 1)

theorem size_le_of_records (h : records state text = some rows) : size rows ≤ text.length + 1 := by
  fun_induction records state text generalizing rows with
  | case1 => cases h; exact Nat.zero_le _
  | case2 | case3 | case8 | case12 | case15 => cases h
  | case4 => cases h; exact Nat.le_refl _
  | case5 cs ih | case11 state cs _ _ _ _ ih | case14 state cs _ _ _ _ _ _ _ ih =>
    exact Nat.le_trans (ih h) (Nat.le_succ _)
  | case6 c cs _ ih | case16 state c cs _ _ _ _ _ _ _ ih => exact size_le_of_map (size_addChar_le c) ih h
  | case13 cs _ _ _ _ _ _ ih => exact size_le_of_map (size_addChar_le '"') ih h
  | case7 cs ih | case10 state cs _ _ _ ih => exact size_le_of_map (fun rows => Nat.le_of_eq (size_newRecord rows)) ih h
  | case9 state cs _ _ ih => exact size_le_of_map size_addField_le ih h

/-- All fields can stand without quotes. -/
def AllPlain (rows : List (List (List Char))) : Prop := ∀ r ∈ rows, ∀ f ∈ r, Plain f

theorem AllPlain.addChar (hc : c ∉ separators) (h : AllPlain rows) : AllPlain (addChar c rows) := by
  unfold Csv.addChar
  split
  · rename_i field record rest
    obtain ⟨hfield, hrecord⟩ := List.forall_mem_cons.1 (List.forall_mem_cons.1 h).1
    exact List.forall_mem_cons.2 ⟨List.forall_mem_cons.2 ⟨List.forall_mem_cons.2 ⟨hc, hfield⟩, hrecord⟩,
      (List.forall_mem_cons.1 h).2⟩
  · exact h

theorem AllPlain.addField (h : AllPlain rows) : AllPlain (addField rows) := by
  unfold Csv.addField
  split
  · exact List.forall_mem_cons.2 ⟨List.forall_mem_cons.2 ⟨fun _ hc => absurd hc List.not_mem_nil,
      (List.forall_mem_cons.1 h).1⟩, (List.forall_mem_cons.1 h).2⟩
  · exact h

theorem AllPlain.newRecord (h : AllPlain rows) : AllPlain ([[]] :: rows) :=
  List.forall_mem_cons.2 ⟨List.forall_mem_cons.2 ⟨fun _ hc => absurd hc List.not_mem_nil, nofun⟩, h⟩

/-- A character that a field keeps makes the rows one longer, when it is to account for all of the text. -/
theorem plain_of_map {g : List (List (List Char)) → List (List (List Char))} {next : State}
    (hg : ∀ rows, size (g rows) ≤ size rows + 1) (hplain : ∀ {rows}, AllPlain rows → AllPlain (g rows))
    (hread : ∀ {rows}, records next text = some rows → size rows = text.length + 1 → AllPlain rows)
    (h : (records next text).map g = some rows) (hsize : size rows = (c :: text).length + 1) : AllPlain rows := by
  obtain ⟨rest, hrest, rfl⟩ := Option.map_eq_some_iff.1 h
  have hle := size_le_of_records hrest
  have hlonger := hg rest
  rw [hsize, List.length_cons] at hlonger
  exact hplain (hread hrest (by omega))

/-- **A text that is no longer than what it holds** has no quotes. -/
theorem plain_of_records (h : records state text = some rows) (hsize : size rows = text.length + 1)
    (hstate : state.Open) : AllPlain rows := by
  fun_induction records state text generalizing rows with
  | case1 => cases h; cases hsize
  | case2 | case3 | case8 | case12 | case15 => cases h
  | case4 => cases h; exact AllPlain.newRecord fun _ hr => absurd hr List.not_mem_nil
  | case5 | case6 | case7 | case13 => simp [State.Open] at hstate
  | case11 state cs _ _ _ _ ih | case14 state cs _ _ _ _ _ _ _ ih =>
    have hle := size_le_of_records h
    rw [hsize, List.length_cons] at hle
    omega
  | case9 state cs _ _ ih =>
    exact plain_of_map size_addField_le AllPlain.addField (fun h hsize => ih h hsize (.inr (.inl rfl))) h hsize
  | case10 state cs _ _ _ ih =>
    exact plain_of_map (fun rows => Nat.le_of_eq (size_newRecord rows)) AllPlain.newRecord
      (fun h hsize => ih h hsize (.inl rfl)) h hsize
  | case16 state c cs _ _ hcomma hline hcr hquote _ ih =>
    have hc : c ∉ separators := by simp [separators, hcomma, hline, hcr, hquote]
    exact plain_of_map (size_addChar_le c) (AllPlain.addChar hc) (fun h hsize => ih h hsize (.inr (.inr rfl))) h hsize

/-! ## What is written without quotes is read back -/

variable {field : List Char} {record : List (List Char)} {tail cs : List Char} {rest : Option (List (List (List Char)))}

theorem records_char (hstate : state.Open) (hc : c ∉ separators) (cs : List Char) :
    records state (c :: cs) = (records .plain cs).map (addChar c) := by
  obtain ⟨hcomma, hquote, hline, hcr⟩ : c ≠ ',' ∧ c ≠ '"' ∧ c ≠ '\n' ∧ c ≠ '\r' := by simpa [separators] using hc
  rcases hstate with rfl | rfl | rfl <;> simp [records, hcomma, hquote, hline, hcr]

theorem records_comma (hstate : state.Open) (cs : List Char) :
    records state (',' :: cs) = (records .start cs).map addField := by
  rcases hstate with rfl | rfl | rfl <;> simp [records]

theorem records_newline (hstate : state.Open) (cs : List Char) :
    records state ('\n' :: cs) = (records .line cs).map ([[]] :: ·) := by
  rcases hstate with rfl | rfl | rfl <;> simp [records]

/-- The field stands before what has been read of the record. -/
def pushField (field : List Char) : List (List (List Char)) → List (List (List Char))
  | record :: records => (field :: record) :: records
  | [] => []

theorem records_field (hstate : state.Open) (hfield : Plain field) (cs : List Char) :
    records state (field ++ ',' :: cs) = (records .start cs).map (pushField field) := by
  induction field generalizing state with
  | nil =>
    rw [List.nil_append, records_comma hstate]
    exact congrArg (Option.map · _) (funext fun rows => by cases rows <;> rfl)
  | cons c field ih =>
    obtain ⟨hc, hfield⟩ := List.forall_mem_cons.1 hfield
    rw [List.cons_append, records_char hstate hc, ih (.inr (.inr rfl)) hfield, Option.map_map]
    exact congrArg (Option.map · _) (funext fun rows => by cases rows <;> rfl)

/-- The last field of a record, where the record ends with what follows. -/
theorem records_lastField (hstate : state = .start ∨ state = .plain) (hfield : Plain field)
    (htail : ∀ state, state = .start ∨ state = .plain → records state tail = rest.map ([[]] :: ·)) :
    records state (field ++ tail) = rest.map ([field] :: ·) := by
  induction field generalizing state with
  | nil => exact htail state hstate
  | cons c field ih =>
    obtain ⟨hc, hfield⟩ := List.forall_mem_cons.1 hfield
    rw [List.cons_append, records_char (.inr hstate) hc, ih (.inr rfl) hfield, Option.map_map]
    rfl

theorem records_record (hstate : state = .start ∨ state = .plain ∨ state = .line ∧ 1 < record.length)
    (hne : record ≠ []) (hplain : ∀ f ∈ record, Plain f)
    (htail : ∀ state, state = .start ∨ state = .plain → records state tail = rest.map ([[]] :: ·)) :
    records state ([','].intercalate record ++ tail) = rest.map (record :: ·) := by
  induction record generalizing state with
  | nil => exact absurd rfl hne
  | cons field record ih =>
    obtain ⟨hfield, hrecord⟩ := List.forall_mem_cons.1 hplain
    cases record with
    | nil =>
      rw [List.intercalate_singleton]
      refine records_lastField ?_ hfield htail
      rcases hstate with h | h | ⟨-, hlt⟩
      · exact .inl h
      · exact .inr h
      · exact absurd hlt (by simp)
    | cons field' record =>
      have hopen : state.Open := by
        rcases hstate with h | h | ⟨h, -⟩
        · exact .inr (.inl h)
        · exact .inr (.inr h)
        · exact .inl h
      rw [List.intercalate_cons_cons, List.append_assoc, List.append_assoc, List.singleton_append,
        records_field hopen hfield, ih (.inl rfl) (List.cons_ne_nil _ _) hrecord, Option.map_map]
      rfl

/-- Rows of more than one field each. -/
theorem records_rows (hrows : ∀ r ∈ rows, 1 < r.length) (hplain : AllPlain rows) :
    records .line (['\n'].intercalate (rows.map ([','].intercalate ·))) = some rows := by
  induction rows with
  | nil => rfl
  | cons record rows ih =>
    obtain ⟨hlength, hrows⟩ := List.forall_mem_cons.1 hrows
    obtain ⟨hrecord, hplain⟩ := List.forall_mem_cons.1 hplain
    have hne : record ≠ [] := List.ne_nil_of_length_pos (Nat.lt_trans Nat.zero_lt_one hlength)
    cases rows with
    | nil =>
      have hend : records .line ([','].intercalate record ++ []) = (some []).map (record :: ·) :=
        records_record (.inr (.inr ⟨rfl, hlength⟩)) hne hrecord fun state h => by rcases h with rfl | rfl <;> rfl
      simpa using hend
    | cons record' rows =>
      rw [List.map_cons, List.map_cons, List.intercalate_cons_cons, List.append_assoc, List.singleton_append,
        records_record (.inr (.inr ⟨rfl, hlength⟩)) hne hrecord fun state h => records_newline (.inr h) _,
        ← List.map_cons, ih hrows hplain]
      rfl

/-! ## Texts -/

variable {written read : List (List String)}

/-- The rows as the reader has them. -/
def chars (rows : List (List String)) : List (List (List Char)) := rows.map (List.map String.toList)

theorem parse_eq_some {text : String} : parse text = some read ↔ records .line text.toList = some (chars read) := by
  have hchars (rows : List (List (List Char))) : chars (rows.map (List.map String.ofList)) = rows := by
    simp [chars, Function.comp_def]
  have hread (rows : List (List String)) : (chars rows).map (List.map String.ofList) = rows := by
    simp [chars, Function.comp_def]
  rw [parse, Option.map_eq_some_iff]
  constructor
  · rintro ⟨rows, hrows, rfl⟩
    rw [hchars, hrows]
  · exact fun h => ⟨_, h, hread read⟩

theorem toList_render (rows : List (List String)) :
    (render rows).toList = ['\n'].intercalate ((chars rows).map ([','].intercalate ·)) := by
  simp [render, chars, String.toList_intercalate, Function.comp_def]

theorem length_intercalate (c : Char) {xs : List (List Char)} (hne : xs ≠ []) :
    ([c].intercalate xs).length + 1 = (xs.map fun x => x.length + 1).sum := by
  induction xs with
  | nil => exact absurd rfl hne
  | cons x xs ih =>
    cases xs with
    | nil => simp
    | cons y ys =>
      rw [List.map_cons, List.sum_cons, ← ih (List.cons_ne_nil y ys), List.intercalate_cons_cons]
      simp only [List.length_append, List.length_singleton]
      omega

theorem length_render (hne : written ≠ []) (hrows : ∀ r ∈ written, r ≠ []) :
    (render written).toList.length + 1 = size (chars written) := by
  rw [toList_render, length_intercalate '\n' (by simpa [chars] using hne), List.map_map, size]
  refine congrArg List.sum (List.map_congr_left fun record hrecord => ?_)
  obtain ⟨r, hr, rfl⟩ := List.mem_map.1 hrecord
  exact length_intercalate ',' (by simpa using hrows r hr)

/-- **Fields that can stand without quotes** are read back. -/
theorem parse_render (hrows : ∀ r ∈ written, 1 < r.length) (hplain : AllPlain (chars written)) :
    parse (render written) = some written := by
  rw [parse_eq_some, toList_render]
  refine records_rows (fun record hrecord => ?_) hplain
  obtain ⟨r, hr, rfl⟩ := List.mem_map.1 hrecord
  simpa using hrows r hr

/-- What is read is no longer than what was written. -/
theorem size_le_of_parse (hne : written ≠ []) (hrows : ∀ r ∈ written, r ≠ []) (h : parse (render written) = some read) :
    size (chars read) ≤ size (chars written) := by
  rw [← length_render hne hrows]
  exact size_le_of_records (parse_eq_some.1 h)

/-- When all that was written is read, no field needs quotes. -/
theorem plain_of_parse (hne : written ≠ []) (hrows : ∀ r ∈ written, r ≠ []) (h : parse (render written) = some read)
    (hsize : size (chars read) = size (chars written)) : AllPlain (chars read) :=
  plain_of_records (parse_eq_some.1 h) (hsize.trans (length_render hne hrows).symm) (.inl rfl)

end Text.Csv
