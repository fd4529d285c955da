import Mathlib.Algebra.Field.Rat
import Mathlib.Data.List.TakeWhile
import NexoraGateway.Text.Utf8

/-!
# JSON texts

`parse` reads a JSON text (RFC 8259); `stringify` writes an object of strings and integers. The parser takes fuel,
of which `parse` gives enough (`value?_enough`).

* `parse_stringify` — what was written is read back.
-/
namespace Text.Json

inductive Value where
  | null
  | bool (b : Bool)
  | num (q : ℚ)
  | str (s : String)
  | arr (xs : List Value)
  | obj (fields : List (String × Value))

/-- A member of an object: of two with one name the later one. -/
def Value.get? (name : String) : Value → Option Value
  | obj fields => fields.reverse.lookup name
  | _ => none

/-! ## Reading -/

def isSpace (c : Char) : Bool := c = ' ' || c = '\t' || c = '\n' || c = '\r'

def skip (cs : List Char) : List Char := cs.dropWhile isSpace

def hexDigit? (c : Char) : Option Nat :=
  if c.isDigit then some (c.toNat - 48)
  else if 'a' ≤ c ∧ c ≤ 'f' then some (c.toNat - 87)
  else if 'A' ≤ c ∧ c ≤ 'F' then some (c.toNat - 55)
  else none

def hex? (cs : List Char) : Option Nat := cs.foldlM (fun n c => (hexDigit? c).map (16 * n + ·)) 0

/-- The character after a backslash. -/
def escape? (c : Char) : Option Nat :=
  if c = '"' ∨ c = '\\' ∨ c = '/' then some c.toNat
  else if c = 'b' then some 0x8
  else if c = 'f' then some 0xc
  else if c = 'n' then some 0xa
  else if c = 'r' then some 0xd
  else if c = 't' then some 0x9
  else none

/-- A string, after its first quotation mark: the code points and the units that it is made of, and what follows. -/
def scan : List Char → Option (List Nat × List Char)
  | [] => none
  | c :: cs =>
    if c = '"' then some ([], cs)
    else if c = '\\' then
      match cs with
      | 'u' :: x₁ :: x₂ :: x₃ :: x₄ :: cs =>
        (hex? [x₁, x₂, x₃, x₄]).bind fun unit => (scan cs).map fun (units, rest) => (unit :: units, rest)
      | e :: cs => (escape? e).bind fun unit => (scan cs).map fun (units, rest) => (unit :: units, rest)
      | [] => none
    else if c.toNat < 0x20 then none
    else (scan cs).map fun (units, rest) => (c.toNat :: units, rest)

theorem scan_end (cs : List Char) : scan ('"' :: cs) = some ([], cs) := by
  rw [scan.eq_def]
  rfl

theorem scan_unicode (x₁ x₂ x₃ x₄ : Char) (cs : List Char) : scan ('\\' :: 'u' :: x₁ :: x₂ :: x₃ :: x₄ :: cs) =
    (hex? [x₁, x₂, x₃, x₄]).bind fun unit => (scan cs).map fun (units, rest) => (unit :: units, rest) := by
  rw [scan.eq_def]
  rfl

section
variable {c : Char} {cs : List Char}

theorem scan_escape (hc : ∀ x₁ x₂ x₃ x₄ cs', c = 'u' → cs = x₁ :: x₂ :: x₃ :: x₄ :: cs' → False) :
    scan ('\\' :: c :: cs) =
      (escape? c).bind fun unit => (scan cs).map fun (units, rest) => (unit :: units, rest) := by
  rw [scan.eq_def]
  dsimp only
  rw [if_neg (by decide), if_pos rfl]
  split
  · rename_i hcs
    injection hcs with hu hcs
    exact (hc _ _ _ _ _ hu hcs).elim
  · rename_i hcs
    injection hcs with hu hcs
    rw [hu, hcs]
  · rename_i hcs
    cases hcs

theorem scan_control (hquote : c ≠ '"') (hslash : c ≠ '\\') (hc : c.toNat < 0x20) : scan (c :: cs) = none := by
  rw [scan.eq_def]
  dsimp only
  rw [if_neg hquote, if_neg hslash, if_pos hc]

theorem scan_char (hquote : c ≠ '"') (hslash : c ≠ '\\') (hc : ¬ c.toNat < 0x20) :
    scan (c :: cs) = (scan cs).map fun (units, rest) => (c.toNat :: units, rest) := by
  rw [scan.eq_def]
  dsimp only
  rw [if_neg hquote, if_neg hslash, if_neg hc]

end

def isHigh (unit : Nat) : Bool := 0xd800 ≤ unit && unit ≤ 0xdbff

def isLow (unit : Nat) : Bool := 0xdc00 ≤ unit && unit ≤ 0xdfff

/-- A surrogate that is alone is no character. -/
def ofUnit (unit : Nat) : Char := if isHigh unit || isLow unit then Utf8.replacement else Char.ofNat unit

def ofUnits : List Nat → List Char
  | high :: low :: units =>
    if isHigh high && isLow low then
      Char.ofNat (0x10000 + (high - 0xd800) * 0x400 + (low - 0xdc00)) :: ofUnits units
    else ofUnit high :: ofUnits (low :: units)
  | [unit] => [ofUnit unit]
  | [] => []

/-- The digits that come first; there is at least one. -/
def digits? (cs : List Char) : Option (List Char × List Char) :=
  let ds := cs.takeWhile Char.isDigit
  if ds = [] then none else some (ds, cs.dropWhile Char.isDigit)

/-- Digits without a leading zero. -/
def integer? (cs : List Char) : Option (List Char × List Char) := do
  let (ds, rest) ← digits? cs
  if ds.head? = some '0' ∧ ds ≠ ['0'] then none else some (ds, rest)

def fraction? : List Char → Option (List Char × List Char)
  | '.' :: cs => digits? cs
  | cs => some ([], cs)

def exponent? : List Char → Option (Int × List Char)
  | c :: cs =>
    if c = 'e' ∨ c = 'E' then
      match cs with
      | '-' :: cs => (digits? cs).map fun (ds, rest) => (-Int.ofNat (Nat.ofDigitChars 10 ds 0), rest)
      | '+' :: cs => (digits? cs).map fun (ds, rest) => (Int.ofNat (Nat.ofDigitChars 10 ds 0), rest)
      | cs => (digits? cs).map fun (ds, rest) => (Int.ofNat (Nat.ofDigitChars 10 ds 0), rest)
    else some (0, c :: cs)
  | [] => some (0, [])

/-- A number without sign. -/
def unsigned? (cs : List Char) : Option (ℚ × List Char) := do
  let (whole, cs) ← integer? cs
  let (fraction, cs) ← fraction? cs
  let (exponent, cs) ← exponent? cs
  return (Nat.ofDigitChars 10 (whole ++ fraction) 0 / 10 ^ fraction.length * 10 ^ exponent, cs)

def number? : List Char → Option (ℚ × List Char)
  | '-' :: cs => (unsigned? cs).map fun (q, rest) => (-q, rest)
  | cs => unsigned? cs

mutual

/-- A value, at its first character. -/
def value? : Nat → List Char → Option (Value × List Char)
  | 0, _ => none
  | fuel + 1, cs =>
    match cs with
    | 'n' :: 'u' :: 'l' :: 'l' :: cs => some (.null, cs)
    | 't' :: 'r' :: 'u' :: 'e' :: cs => some (.bool true, cs)
    | 'f' :: 'a' :: 'l' :: 's' :: 'e' :: cs => some (.bool false, cs)
    | '"' :: cs => (scan cs).map fun (units, rest) => (.str (String.ofList (ofUnits units)), rest)
    | '[' :: cs =>
      match skip cs with
      | ']' :: cs => some (.arr [], cs)
      | cs => (elements? fuel cs).map fun (xs, rest) => (.arr xs, rest)
    | '{' :: cs =>
      match skip cs with
      | '}' :: cs => some (.obj [], cs)
      | cs => (members? fuel cs).map fun (fields, rest) => (.obj fields, rest)
    | cs => (number? cs).map fun (q, rest) => (.num q, rest)

/-- The elements of an array that is not empty, to its end. -/
def elements? : Nat → List Char → Option (List Value × List Char)
  | 0, _ => none
  | fuel + 1, cs => do
    let (x, cs) ← value? fuel (skip cs)
    match skip cs with
    | ',' :: cs => (elements? fuel cs).map fun (xs, rest) => (x :: xs, rest)
    | ']' :: cs => some ([x], cs)
    | _ => none

/-- The members of an object that is not empty, to its end. -/
def members? : Nat → List Char → Option (List (String × Value) × List Char)
  | 0, _ => none
  | fuel + 1, cs =>
    match skip cs with
    | '"' :: cs => do
      let (units, cs) ← scan cs
      match skip cs with
      | ':' :: cs => do
        let (x, cs) ← value? fuel (skip cs)
        let field := (String.ofList (ofUnits units), x)
        match skip cs with
        | ',' :: cs => (members? fuel cs).map fun (fields, rest) => (field :: fields, rest)
        | '}' :: cs => some ([field], cs)
        | _ => none
      | _ => none
    | _ => none

end

def parse (cs : List Char) : Option Value := do
  let (x, rest) ← value? (2 * cs.length + 1) (skip cs)
  if skip rest = [] then some x else none

/-! ## There is enough fuel -/

section
variable {cs rest : List Char}

theorem length_skip_le (cs : List Char) : (skip cs).length ≤ cs.length := (List.dropWhile_sublist _).length_le

theorem length_of_skip {c : Char} (h : skip cs = c :: rest) : rest.length < cs.length := by
  have hle := length_skip_le cs
  rw [h, List.length_cons] at hle
  exact hle

theorem scan_length {units : List Nat} (h : scan cs = some (units, rest)) : rest.length < cs.length := by
  induction cs using scan.induct generalizing units rest with
  | case1 => cases h
  | case2 cs =>
    rw [scan_end] at h
    cases h
    exact Nat.lt_succ_self _
  | case3 x₁ x₂ x₃ x₄ cs hquote ih =>
    rw [scan_unicode] at h
    obtain ⟨unit, -, hscan⟩ := Option.bind_eq_some_iff.1 h
    obtain ⟨⟨units', rest'⟩, hscan, hrest⟩ := Option.map_eq_some_iff.1 hscan
    cases hrest
    have hlt := ih hscan
    simp only [List.length_cons]
    omega
  | case4 e cs hescape hquote ih =>
    rw [scan_escape hescape] at h
    obtain ⟨unit, -, hscan⟩ := Option.bind_eq_some_iff.1 h
    obtain ⟨⟨units', rest'⟩, hscan, hrest⟩ := Option.map_eq_some_iff.1 hscan
    cases hrest
    have hlt := ih hscan
    simp only [List.length_cons]
    omega
  | case5 hquote => cases h
  | case6 c cs hquote hslash hcontrol =>
    rw [scan_control hquote hslash hcontrol] at h
    cases h
  | case7 c cs hquote hslash hcontrol ih =>
    rw [scan_char hquote hslash hcontrol] at h
    obtain ⟨⟨units', rest'⟩, hscan, hrest⟩ := Option.map_eq_some_iff.1 h
    cases hrest
    exact (ih hscan).trans (Nat.lt_succ_self _)

theorem digits?_length {ds : List Char} (h : digits? cs = some (ds, rest)) : rest.length < cs.length := by
  unfold digits? at h
  dsimp only at h
  split at h
  · cases h
  · rename_i hne
    cases h
    have hsplit := congrArg List.length (List.takeWhile_append_dropWhile (p := Char.isDigit) (l := cs))
    have hpos := List.length_pos_iff.2 hne
    rw [List.length_append] at hsplit
    omega

theorem fraction?_length {ds : List Char} (h : fraction? cs = some (ds, rest)) : rest.length ≤ cs.length := by
  unfold fraction? at h
  split at h
  · exact (digits?_length h).le.trans (Nat.le_succ _)
  · cases h
    exact le_rfl

theorem exponent?_length {n : Int} (h : exponent? cs = some (n, rest)) : rest.length ≤ cs.length := by
  have hdigits {ds : List Char} {f : List Char → Int}
      (h : (digits? ds).map (fun p => (f p.1, p.2)) = some (n, rest)) : rest.length < ds.length := by
    obtain ⟨⟨ds', rest'⟩, hdigits, hrest⟩ := Option.map_eq_some_iff.1 h
    cases hrest
    exact digits?_length hdigits
  unfold exponent? at h
  split at h
  · split at h
    · split at h
      · have hlt := hdigits (f := fun ds => -Int.ofNat (Nat.ofDigitChars 10 ds 0)) h
        simp only [List.length_cons]
        omega
      · have hlt := hdigits (f := fun ds => Int.ofNat (Nat.ofDigitChars 10 ds 0)) h
        simp only [List.length_cons]
        omega
      · have hlt := hdigits (f := fun ds => Int.ofNat (Nat.ofDigitChars 10 ds 0)) h
        simp only [List.length_cons]
        omega
    · cases h
      exact le_rfl
  · cases h
    exact le_rfl

theorem integer?_length {ds : List Char} (h : integer? cs = some (ds, rest)) : rest.length < cs.length := by
  obtain ⟨⟨ds', rest'⟩, hdigits, hif⟩ := Option.bind_eq_some_iff.1 h
  dsimp only at hif
  split at hif
  · cases hif
  · cases hif
    exact digits?_length hdigits

theorem unsigned?_length {q : ℚ} (h : unsigned? cs = some (q, rest)) : rest.length < cs.length := by
  obtain ⟨⟨whole, cs₁⟩, hwhole, h⟩ := Option.bind_eq_some_iff.1 h
  obtain ⟨⟨fraction, cs₂⟩, hfraction, h⟩ := Option.bind_eq_some_iff.1 h
  obtain ⟨⟨exponent, cs₃⟩, hexponent, h⟩ := Option.bind_eq_some_iff.1 h
  cases h
  have h₁ := integer?_length hwhole
  have h₂ := fraction?_length hfraction
  have h₃ := exponent?_length hexponent
  omega

theorem number?_length {q : ℚ} (h : number? cs = some (q, rest)) : rest.length < cs.length := by
  unfold number? at h
  split at h
  · obtain ⟨⟨q', rest'⟩, hunsigned, hrest⟩ := Option.map_eq_some_iff.1 h
    cases hrest
    exact (unsigned?_length hunsigned).trans (Nat.lt_succ_self _)
  · exact unsigned?_length h

/-- What follows what `f` makes of a result. -/
theorem rest_of_map {α β : Type} {r : Option (α × List Char)} {f : α → β} {y : β}
    (h : r.map (fun p => (f p.1, p.2)) = some (y, rest)) : ∃ x, r = some (x, rest) := by
  obtain ⟨⟨x, rest'⟩, hr, hrest⟩ := Option.map_eq_some_iff.1 h
  cases hrest
  exact ⟨x, hr⟩

/-- What is read takes up at least a character. -/
def Progresses {α : Type} (p : List Char → Option (α × List Char)) : Prop :=
  ∀ cs x rest, p cs = some (x, rest) → rest.length < cs.length

variable {fuel : Nat}

theorem value?_progresses (helements : Progresses (elements? fuel)) (hmembers : Progresses (members? fuel)) :
    Progresses (value? (fuel + 1)) := by
  intro cs x rest h
  rw [value?.eq_def] at h
  dsimp only at h
  split at h
  · cases h
    simp only [List.length_cons]
    omega
  · cases h
    simp only [List.length_cons]
    omega
  · cases h
    simp only [List.length_cons]
    omega
  · obtain ⟨⟨units, rest'⟩, hscan, hrest⟩ := Option.map_eq_some_iff.1 h
    cases hrest
    exact (scan_length hscan).trans (Nat.lt_succ_self _)
  · split at h
    · rename_i hclose
      cases h
      exact (length_of_skip hclose).trans (Nat.lt_succ_self _)
    · obtain ⟨xs, hxs⟩ := rest_of_map h
      exact (helements _ _ _ hxs).trans_le ((length_skip_le _).trans (Nat.le_succ _))
  · split at h
    · rename_i hclose
      cases h
      exact (length_of_skip hclose).trans (Nat.lt_succ_self _)
    · obtain ⟨fields, hfields⟩ := rest_of_map h
      exact (hmembers _ _ _ hfields).trans_le ((length_skip_le _).trans (Nat.le_succ _))
  · obtain ⟨q, hq⟩ := rest_of_map h
    exact number?_length hq

theorem elements?_progresses (hvalue : Progresses (value? fuel)) (helements : Progresses (elements? fuel)) :
    Progresses (elements? (fuel + 1)) := by
  intro cs xs rest h
  rw [elements?] at h
  obtain ⟨⟨x, cs₁⟩, hx, h⟩ := Option.bind_eq_some_iff.1 h
  have hlt : cs₁.length < cs.length := (hvalue _ _ _ hx).trans_le (length_skip_le cs)
  dsimp only at h
  split at h
  · rename_i cs₂ hcomma
    obtain ⟨xs, hxs⟩ := rest_of_map h
    have hmore := helements _ _ _ hxs
    have hlt₂ := length_of_skip hcomma
    omega
  · rename_i hclose
    cases h
    exact (length_of_skip hclose).trans hlt
  · cases h

theorem members?_progresses (hvalue : Progresses (value? fuel)) (hmembers : Progresses (members? fuel)) :
    Progresses (members? (fuel + 1)) := by
  intro cs fields rest h
  rw [members?.eq_def] at h
  dsimp only at h
  split at h
  · rename_i cs₁ hquote
    obtain ⟨⟨units, cs₂⟩, hscan, h⟩ := Option.bind_eq_some_iff.1 h
    have hlt₂ : cs₂.length < cs.length := (scan_length hscan).trans (length_of_skip hquote)
    dsimp only at h
    split at h
    · rename_i cs₃ hcolon
      obtain ⟨⟨x, cs₄⟩, hx, h⟩ := Option.bind_eq_some_iff.1 h
      have hlt₃ : cs₃.length < cs.length := (length_of_skip hcolon).trans hlt₂
      have hlt₄ : cs₄.length < cs.length := ((hvalue _ _ _ hx).trans_le (length_skip_le cs₃)).trans hlt₃
      dsimp only at h
      split at h
      · rename_i cs₅ hcomma
        obtain ⟨⟨fields', rest'⟩, hfields, hrest⟩ := Option.map_eq_some_iff.1 h
        cases hrest
        have hmore := hmembers _ _ _ hfields
        have hlt₅ := length_of_skip hcomma
        dsimp only
        omega
      · rename_i hclose
        cases h
        exact (length_of_skip hclose).trans hlt₄
      · cases h
    · cases h
  · cases h

theorem progresses (fuel : Nat) :
    Progresses (value? fuel) ∧ Progresses (elements? fuel) ∧ Progresses (members? fuel) := by
  induction fuel with
  | zero => exact ⟨nofun, nofun, nofun⟩
  | succ fuel ih =>
    obtain ⟨hvalue, helements, hmembers⟩ := ih
    exact ⟨value?_progresses helements hmembers, elements?_progresses hvalue helements,
      members?_progresses hvalue hmembers⟩

/-- One more changes nothing where there is fuel for `n` and two for each character. -/
def Saturated {α : Type} (n : Nat) (p : Nat → List Char → Option α) (fuel : Nat) : Prop :=
  ∀ cs : List Char, 2 * cs.length + n ≤ fuel → p (fuel + 1) cs = p fuel cs

theorem value?_saturated (helements : Saturated 2 elements? fuel) (hmembers : Saturated 2 members? fuel) :
    Saturated 1 value? (fuel + 1) := by
  intro cs h
  rw [value?.eq_def, value?.eq_def (fuel + 1)]
  dsimp only
  split
  · rfl
  · rfl
  · rfl
  · rfl
  · rename_i cs
    have hskip := length_skip_le cs
    split
    · rfl
    · rw [helements _ (by simp only [List.length_cons] at h; omega)]
  · rename_i cs
    have hskip := length_skip_le cs
    split
    · rfl
    · rw [hmembers _ (by simp only [List.length_cons] at h; omega)]
  · rfl

theorem elements?_saturated (hvalue : Saturated 1 value? fuel) (helements : Saturated 2 elements? fuel) :
    Saturated 2 elements? (fuel + 1) := by
  intro cs h
  have hskip := length_skip_le cs
  rw [elements?, elements?, hvalue _ (by omega)]
  cases hx : value? fuel (skip cs) with
  | none => rfl
  | some p =>
    have hlt := (progresses fuel).1 _ _ _ hx
    change (match skip p.2 with | ',' :: cs => _ | ']' :: cs => _ | _ => _) =
      (match skip p.2 with | ',' :: cs => _ | ']' :: cs => _ | _ => _)
    split
    · rename_i hcomma
      have hlt₁ := length_of_skip hcomma
      rw [helements _ (by omega)]
    · rfl
    · rfl

theorem members?_saturated (hvalue : Saturated 1 value? fuel) (hmembers : Saturated 2 members? fuel) :
    Saturated 2 members? (fuel + 1) := by
  intro cs h
  rw [members?.eq_def, members?.eq_def (fuel + 1)]
  dsimp only
  split
  · rename_i cs₁ hquote
    have hlt₁ := length_of_skip hquote
    cases hscan : scan cs₁ with
    | none => rfl
    | some p =>
      have hlt₂ := scan_length hscan
      change (match skip p.2 with | ':' :: cs => _ | _ => _) = (match skip p.2 with | ':' :: cs => _ | _ => _)
      split
      · rename_i cs₃ hcolon
        have hlt₃ := length_of_skip hcolon
        have hskip₃ := length_skip_le cs₃
        rw [hvalue _ (by omega)]
        cases hx : value? fuel (skip cs₃) with
        | none => rfl
        | some p' =>
          have hlt₄ := (progresses fuel).1 _ _ _ hx
          change (match skip p'.2 with | ',' :: cs => _ | '}' :: cs => _ | _ => _) =
            (match skip p'.2 with | ',' :: cs => _ | '}' :: cs => _ | _ => _)
          split
          · rename_i hcomma
            have hlt₅ := length_of_skip hcomma
            rw [hmembers _ (by omega)]
          · rfl
          · rfl
      · rfl
  · rfl

theorem saturated (fuel : Nat) : Saturated 1 value? fuel ∧ Saturated 2 elements? fuel ∧ Saturated 2 members? fuel := by
  induction fuel with
  | zero => exact ⟨fun _ h => absurd h (by omega), fun _ h => absurd h (by omega), fun _ h => absurd h (by omega)⟩
  | succ fuel ih =>
    obtain ⟨hvalue, helements, hmembers⟩ := ih
    exact ⟨value?_saturated helements hmembers, elements?_saturated hvalue helements,
      members?_saturated hvalue hmembers⟩

/-- **There is enough fuel**: with more, a text is read as it is with what `parse` gives. -/
theorem value?_enough (h : 2 * cs.length + 1 ≤ fuel) :
    value? fuel cs = value? (2 * cs.length + 1) cs := by
  induction fuel with
  | zero => exact absurd h (by omega)
  | succ fuel ih =>
    by_cases hfuel : 2 * cs.length + 1 ≤ fuel
    · rw [(saturated fuel).1 cs hfuel, ih hfuel]
    · rw [show fuel + 1 = 2 * cs.length + 1 by omega]

end

/-! ## Writing -/

/-- What `JSON.stringify` escapes. -/
def escapeChar (c : Char) : List Char :=
  if c = '"' then ['\\', '"']
  else if c = '\\' then ['\\', '\\']
  else if c.toNat = 0x8 then ['\\', 'b']
  else if c.toNat = 0xc then ['\\', 'f']
  else if c.toNat = 0xa then ['\\', 'n']
  else if c.toNat = 0xd then ['\\', 'r']
  else if c.toNat = 0x9 then ['\\', 't']
  else if c.toNat < 0x20 then ['\\', 'u', '0', '0', Nat.digitChar (c.toNat / 16), Nat.digitChar (c.toNat % 16)]
  else [c]

def quote (s : String) : List Char := '"' :: s.toList.flatMap escapeChar ++ ['"']

/-- A value of a flat object. -/
inductive Scalar where
  | str (s : String)
  | int (n : Int)

def Scalar.value : Scalar → Value
  | str s => .str s
  | int n => .num n

def Scalar.text : Scalar → List Char
  | str s => quote s
  | int n => (toString n).toList

def member (field : String × Scalar) : List Char := quote field.1 ++ ':' :: field.2.text

def stringify (fields : List (String × Scalar)) : List Char :=
  '{' :: [','].intercalate (fields.map member) ++ ['}']

/-! ## What is written is read back -/

section
variable {c : Char} {cs rest : List Char}

theorem hex?_control {n : Nat} (h : n < 0x20) :
    hex? ['0', '0', Nat.digitChar (n / 16), Nat.digitChar (n % 16)] = some n := by
  have hall : ∀ n < 0x20, hex? ['0', '0', Nat.digitChar (n / 16), Nat.digitChar (n % 16)] = some n := by
    decide
  exact hall n h

/-- A character escaped with a letter. -/
theorem scan_letter (e : Char) (hu : e ≠ 'u') (cs : List Char) : scan ('\\' :: e :: cs) =
    (escape? e).bind fun unit => (scan cs).map fun (units, rest) => (unit :: units, rest) :=
  scan_escape fun _ _ _ _ _ h => absurd h hu

theorem scan_escapeChar (c : Char) (cs : List Char) :
    scan (escapeChar c ++ cs) = (scan cs).map fun (units, rest) => (c.toNat :: units, rest) := by
  unfold escapeChar
  split_ifs with hquote hslash hb hf hn hr ht hcontrol
  · rw [hquote]
    exact scan_letter '"' (by decide) cs
  · rw [hslash]
    exact scan_letter '\\' (by decide) cs
  · rw [hb]
    exact scan_letter 'b' (by decide) cs
  · rw [hf]
    exact scan_letter 'f' (by decide) cs
  · rw [hn]
    exact scan_letter 'n' (by decide) cs
  · rw [hr]
    exact scan_letter 'r' (by decide) cs
  · rw [ht]
    exact scan_letter 't' (by decide) cs
  · simp only [List.cons_append, List.nil_append]
    rw [scan_unicode, hex?_control hcontrol]
    rfl
  · exact scan_char hquote hslash hcontrol

theorem scan_quoted (cs rest : List Char) :
    scan (cs.flatMap escapeChar ++ '"' :: rest) = some (cs.map Char.toNat, rest) := by
  induction cs with
  | nil => exact scan_end rest
  | cons c cs ih =>
    rw [List.flatMap_cons, List.append_assoc, scan_escapeChar, ih]
    rfl

theorem isHigh_toNat (c : Char) : isHigh c.toNat = false := by
  have hrange := Utf8.toNat_range c
  unfold isHigh
  simp only [Bool.and_eq_false_iff, decide_eq_false_iff_not]
  omega

theorem ofUnit_toNat (c : Char) : ofUnit c.toNat = c := by
  have hrange := Utf8.toNat_range c
  have hlow : isLow c.toNat = false := by
    unfold isLow
    simp only [Bool.and_eq_false_iff, decide_eq_false_iff_not]
    omega
  rw [ofUnit, isHigh_toNat, hlow]
  exact Char.ofNat_toNat c

theorem ofUnits_toNat (cs : List Char) : ofUnits (cs.map Char.toNat) = cs := by
  induction cs with
  | nil => rfl
  | cons c cs ih =>
    cases cs with
    | nil => exact congrArg (fun c => [c]) (ofUnit_toNat c)
    | cons c' cs =>
      simp only [List.map_cons] at ih ⊢
      rw [ofUnits, isHigh_toNat, Bool.false_and, if_neg Bool.false_ne_true, ofUnit_toNat, ih]

/-! ### Numbers -/

/-- What cannot go on with a number. -/
def Stops (rest : List Char) : Prop :=
  ∀ c ∈ rest.head?, c.isDigit = false ∧ c ≠ '.' ∧ c ≠ 'e' ∧ c ≠ 'E'

theorem digits?_append {ds : List Char} (hne : ds ≠ []) (hds : ∀ c ∈ ds, c.isDigit) (hrest : Stops rest) :
    digits? (ds ++ rest) = some (ds, rest) := by
  have htake : rest.takeWhile Char.isDigit = [] := by
    cases rest with
    | nil => rfl
    | cons c rest => rw [List.takeWhile_cons_of_neg (by simp [(hrest c rfl).1])]
  have hdrop : rest.dropWhile Char.isDigit = rest := by
    cases rest with
    | nil => rfl
    | cons c rest => rw [List.dropWhile_cons_of_neg (by simp [(hrest c rfl).1])]
  unfold digits?
  rw [List.takeWhile_append_of_pos hds, List.dropWhile_append_of_pos hds, htake, hdrop, List.append_nil]
  exact if_neg hne

/-- No number is written with a leading zero. -/
theorem toDigits_head (n : Nat) : (Nat.toDigits 10 n).head? = some '0' → Nat.toDigits 10 n = ['0'] := by
  induction n using Nat.strongRecOn with
  | _ n ih =>
    intro hhead
    by_cases hlt : n < 10
    · rw [Nat.toDigits_of_lt_base hlt] at hhead ⊢
      rw [Option.some.inj hhead]
    · have hsplit := Nat.toDigits_of_base_le (b := 10) (n := n) (by decide) (by omega)
      rw [hsplit, List.head?_append_of_ne_nil _ Nat.toDigits_ne_nil] at hhead
      have hzero := ih (n / 10) (by omega) hhead
      have hvalue := Nat.ofDigitChars_ten_toDigits (n := n / 10)
      rw [hzero] at hvalue
      have hten : n / 10 = 0 := hvalue.symm
      omega

theorem unsigned?_toDigits (n : Nat) (hrest : Stops rest) :
    unsigned? (Nat.toDigits 10 n ++ rest) = some ((n : ℚ), rest) := by
  have hdigits : digits? (Nat.toDigits 10 n ++ rest) = some (Nat.toDigits 10 n, rest) :=
    digits?_append Nat.toDigits_ne_nil (fun c hc => Nat.isDigit_of_mem_toDigits (by decide) (by decide) hc) hrest
  have hinteger : integer? (Nat.toDigits 10 n ++ rest) = some (Nat.toDigits 10 n, rest) := by
    unfold integer?
    rw [hdigits]
    exact if_neg fun h => h.2 (toDigits_head n h.1)
  have hfraction : fraction? rest = some ([], rest) := by
    unfold fraction?
    split
    · exact absurd rfl (hrest '.' rfl).2.1
    · rfl
  have hexponent : exponent? rest = some (0, rest) := by
    unfold exponent?
    split
    · rename_i c cs
      obtain ⟨-, -, he, hE⟩ := hrest c rfl
      exact if_neg (not_or.2 ⟨he, hE⟩)
    · rfl
  unfold unsigned?
  rw [hinteger]
  simp only [Option.bind_eq_bind, Option.bind_some, hfraction, hexponent]
  rw [List.append_nil, Nat.ofDigitChars_ten_toDigits]
  simp

/-- An integer is written with its digits, after a sign if it is negative. -/
theorem toList_toString (n : Int) : (toString n).toList = Nat.toDigits 10 n.natAbs ∧ n = n.natAbs ∨
    (toString n).toList = '-' :: Nat.toDigits 10 n.natAbs ∧ n = -n.natAbs := by
  rw [Int.toString_eq_repr, Int.repr_eq_if]
  split
  · rename_i h
    refine .inl ⟨?_, by omega⟩
    rw [Nat.toList_repr]
    congr 1
    omega
  · rename_i h
    refine .inr ⟨?_, by omega⟩
    rw [String.toList_append, Nat.toList_repr]
    have habs : (-n).toNat = n.natAbs := by omega
    rw [habs]
    rfl

theorem number?_int (n : Int) (hrest : Stops rest) : number? ((toString n).toList ++ rest) = some ((n : ℚ), rest) := by
  rcases toList_toString n with ⟨htext, hn⟩ | ⟨htext, hn⟩
  · rw [htext]
    have hunsigned := unsigned?_toDigits n.natAbs hrest
    unfold number?
    split
    · rename_i cs hcs
      have hdigit : '-'.isDigit := by
        cases hds : Nat.toDigits 10 n.natAbs with
        | nil => exact absurd hds Nat.toDigits_ne_nil
        | cons d ds =>
          rw [hds] at hcs
          have hmem : d ∈ Nat.toDigits 10 n.natAbs := by
            rw [hds]
            exact List.mem_cons_self
          have hd := Nat.isDigit_of_mem_toDigits (by decide) (by decide) hmem
          injection hcs with hd'
          rwa [hd'] at hd
      exact absurd hdigit (by decide)
    · rw [hunsigned, ← Int.cast_natCast, ← hn]
  · rw [htext]
    change (unsigned? (Nat.toDigits 10 n.natAbs ++ rest)).map _ = _
    rw [unsigned?_toDigits n.natAbs hrest, Option.map_some]
    dsimp only
    rw [← Int.cast_natCast, ← Int.cast_neg, ← hn]

/-! ### Values and members -/

theorem skip_cons (hc : isSpace c = false) (cs : List Char) : skip (c :: cs) = c :: cs := by
  rw [skip, List.dropWhile_cons_of_neg (by simp [hc])]

/-- A number is not taken for another value. -/
theorem value?_number (hc : c.isDigit ∨ c = '-') (fuel : Nat) (cs : List Char) :
    value? (fuel + 1) (c :: cs) = (number? (c :: cs)).map fun (q, rest) => (.num q, rest) := by
  have hne (d : Char) (hd : d.isDigit = false) (hminus : d ≠ '-') : c ≠ d := by
    rintro rfl
    rcases hc with hc | hc
    · rw [hd] at hc
      cases hc
    · exact hminus hc
  rw [value?.eq_def]
  dsimp only
  split
  · rename_i h
    exact absurd (List.cons.inj h).1 (hne 'n' (by decide) (by decide))
  · rename_i h
    exact absurd (List.cons.inj h).1 (hne 't' (by decide) (by decide))
  · rename_i h
    exact absurd (List.cons.inj h).1 (hne 'f' (by decide) (by decide))
  · rename_i h
    exact absurd (List.cons.inj h).1 (hne '"' (by decide) (by decide))
  · rename_i h
    exact absurd (List.cons.inj h).1 (hne '[' (by decide) (by decide))
  · rename_i h
    exact absurd (List.cons.inj h).1 (hne '{' (by decide) (by decide))
  · rfl

/-- A scalar starts with a character of its own. -/
theorem text_head (x : Scalar) : ∃ c cs, x.text = c :: cs ∧ (c = '"' ∨ c.isDigit ∨ c = '-') := by
  cases x with
  | str s => exact ⟨_, _, rfl, .inl rfl⟩
  | int n =>
    rcases toList_toString n with ⟨htext, -⟩ | ⟨htext, -⟩
    · cases hds : Nat.toDigits 10 n.natAbs with
      | nil => exact absurd hds Nat.toDigits_ne_nil
      | cons d ds =>
        refine ⟨d, ds, htext.trans hds, .inr (.inl ?_)⟩
        exact Nat.isDigit_of_mem_toDigits (by decide) (by decide) (hds ▸ List.mem_cons_self)
    · exact ⟨_, _, htext, .inr (.inr rfl)⟩

theorem skip_text (x : Scalar) (rest : List Char) : skip (x.text ++ rest) = x.text ++ rest := by
  obtain ⟨c, cs, htext, hc⟩ := text_head x
  rw [htext]
  refine skip_cons ?_ _
  have hne (d : Char) (hd : d.isDigit = false) (hminus : d ≠ '-') (hquote : d ≠ '"') : c ≠ d := by
    rintro rfl
    rcases hc with hc | hc | hc
    · exact hquote hc
    · rw [hd] at hc
      cases hc
    · exact hminus hc
  simp [isSpace, hne ' ' (by decide) (by decide) (by decide), hne '\t' (by decide) (by decide) (by decide),
    hne '\n' (by decide) (by decide) (by decide), hne '\r' (by decide) (by decide) (by decide)]

theorem value?_text (x : Scalar) (hrest : Stops rest) (fuel : Nat) :
    value? (fuel + 1) (x.text ++ rest) = some (x.value, rest) := by
  obtain ⟨c, cs, htext, hc⟩ := text_head x
  cases x with
  | str s =>
    change value? (fuel + 1) ('"' :: s.toList.flatMap escapeChar ++ ['"'] ++ rest) = _
    rw [List.append_assoc, List.cons_append, List.singleton_append]
    change (scan (s.toList.flatMap escapeChar ++ '"' :: rest)).map _ = _
    rw [scan_quoted, Option.map_some]
    dsimp only
    rw [ofUnits_toNat, String.ofList_toList]
    rfl
  | int n =>
    have hnumber := number?_int n hrest
    change (toString n).toList = c :: cs at htext
    change value? (fuel + 1) ((toString n).toList ++ rest) = _
    rw [htext] at hnumber ⊢
    have hstart : c.isDigit ∨ c = '-' := by
      rcases toList_toString n with ⟨hdigits, -⟩ | ⟨hminus, -⟩
      · have hmem : c ∈ Nat.toDigits 10 n.natAbs := by
          rw [← hdigits, htext]
          exact List.mem_cons_self
        exact .inl (Nat.isDigit_of_mem_toDigits (by decide) (by decide) hmem)
      · rw [hminus] at htext
        exact .inr (List.cons.inj htext).1.symm
    rw [List.cons_append, value?_number hstart, ← List.cons_append, hnumber]
    rfl

theorem members?_member (field : String × Scalar) (hrest : Stops rest) (fuel : Nat) :
    members? (fuel + 2) (member field ++ rest) =
      match skip rest with
      | ',' :: cs => (members? (fuel + 1) cs).map fun (fields, rest) => ((field.1, field.2.value) :: fields, rest)
      | '}' :: cs => some ([(field.1, field.2.value)], cs)
      | _ => none := by
  have hmember : member field ++ rest =
      '"' :: (field.1.toList.flatMap escapeChar ++ '"' :: ':' :: (field.2.text ++ rest)) := by
    simp [member, quote]
  rw [hmember, members?.eq_def]
  dsimp only
  rw [skip_cons (by decide)]
  simp only [scan_quoted]
  simp only [Option.bind_eq_bind, Option.bind_some]
  rw [skip_cons (by decide)]
  simp only []
  rw [skip_text, value?_text _ hrest, ofUnits_toNat, String.ofList_toList]
  rfl

theorem members?_text {fields : List (String × Scalar)} (hne : fields ≠ []) (rest : List Char) {fuel : Nat}
    (hfuel : fields.length < fuel) :
    members? fuel ([','].intercalate (fields.map member) ++ '}' :: rest) =
      some (fields.map fun field => (field.1, field.2.value), rest) := by
  induction fields generalizing fuel with
  | nil => exact absurd rfl hne
  | cons field fields ih =>
    obtain ⟨fuel, rfl⟩ : ∃ k, fuel = k + 2 := ⟨fuel - 2, by simp only [List.length_cons] at hfuel; omega⟩
    have hstops (c : Char) (cs : List Char) (hc : c = ',' ∨ c = '}') : Stops (c :: cs) := by
      rintro d hd
      obtain rfl := Option.some.inj hd
      rcases hc with rfl | rfl
      · decide
      · decide
    cases fields with
    | nil =>
      have hone : [','].intercalate ([field].map member) = member field := by simp [List.intercalate]
      rw [hone, members?_member field (hstops _ _ (.inr rfl)), skip_cons (by decide)]
      rfl
    | cons field' fields =>
      have hsplit : [','].intercalate ((field :: field' :: fields).map member) ++ '}' :: rest =
          member field ++ ',' :: ([','].intercalate ((field' :: fields).map member) ++ '}' :: rest) := by
        simp [List.intercalate]
      have hmore := @ih (List.cons_ne_nil _ _) (fuel + 1) (by simp only [List.length_cons] at hfuel ⊢; omega)
      rw [hsplit, members?_member field (hstops _ _ (.inl rfl)), skip_cons (by decide)]
      change (members? (fuel + 1) _).map _ = _
      rw [hmore]
      rfl

/-- **What was written is read back.** -/
theorem parse_stringify (fields : List (String × Scalar)) :
    parse (stringify fields) = some (.obj (fields.map fun field => (field.1, field.2.value))) := by
  cases fields with
  | nil => rfl
  | cons field fields =>
    have hopen : skip (stringify (field :: fields)) = stringify (field :: fields) := skip_cons (by decide) _
    obtain ⟨fuel, hfuel⟩ : ∃ fuel, 2 * (stringify (field :: fields)).length + 1 ≤ fuel + 1 ∧
        (field :: fields).length < fuel :=
      ⟨2 * (stringify (field :: fields)).length + (field :: fields).length + 1, by omega, by omega⟩
    unfold parse
    rw [hopen, ← value?_enough hfuel.1]
    have hquote : ∃ cs, [','].intercalate ((field :: fields).map member) ++ ['}'] = '"' :: cs := by
      cases fields <;> simp [List.intercalate, member, quote]
    obtain ⟨cs, hcs⟩ := hquote
    have hmembers := members?_text (List.cons_ne_nil field fields) [] hfuel.2
    rw [hcs] at hmembers
    have hvalue : value? (fuel + 1) (stringify (field :: fields)) =
        some (.obj ((field :: fields).map fun field => (field.1, field.2.value)), []) := by
      change value? (fuel + 1) ('{' :: ([','].intercalate ((field :: fields).map member) ++ ['}'])) = _
      rw [hcs, value?.eq_def]
      simp only []
      rw [skip_cons (by decide)]
      change (members? fuel ('"' :: cs)).map _ = _
      rw [hmembers]
      rfl
    rw [hvalue]
    rfl

end

end Text.Json
