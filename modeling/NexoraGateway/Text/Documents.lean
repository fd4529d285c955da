import NexoraGateway.Text.Json

/-!
# JSON documents and their compact texts

A document keeps the members of an object in an order, and a number as it is written. `compact` writes it without
blanks.

* `compact_append_inj` — a text is that of one document, whatever follows it. The kind of a document is known from its
  first character, and a literal goes on as long as its characters do.
-/
namespace Text

/-- What stands in a number. -/
def isLiteral (c : Char) : Bool := c.isDigit || c ∈ ['-', '+', '.', 'e', 'E']

/-- A number as it is written. -/
def Literal : Type := { cs : List Char // cs ≠ [] ∧ ∀ c ∈ cs, isLiteral c = true }

inductive Doc where
  | null
  | bool (b : Bool)
  | num (literal : Literal)
  | str (s : String)
  | arr (xs : List Doc)
  | obj (members : List (String × Doc))

namespace Doc

/-- A member of an object. -/
def get? (name : String) : Doc → Option Doc
  | obj members => members.lookup name
  | _ => none

mutual

/-- A property of all documents, which holds of an array or an object when it does of the parts. -/
theorem induct {P : Doc → Prop} (hnull : P null) (hbool : ∀ b, P (bool b)) (hnum : ∀ literal, P (num literal))
    (hstr : ∀ s, P (str s)) (harr : ∀ xs, (∀ x ∈ xs, P x) → P (arr xs))
    (hobj : ∀ members, (∀ m ∈ members, P m.2) → P (obj members)) : ∀ d, P d
  | null => hnull
  | bool b => hbool b
  | num literal => hnum literal
  | str s => hstr s
  | arr xs => harr xs (inductElements hnull hbool hnum hstr harr hobj xs)
  | obj members => hobj members (inductMembers hnull hbool hnum hstr harr hobj members)

theorem inductElements {P : Doc → Prop} (hnull : P null) (hbool : ∀ b, P (bool b)) (hnum : ∀ literal, P (num literal))
    (hstr : ∀ s, P (str s)) (harr : ∀ xs, (∀ x ∈ xs, P x) → P (arr xs))
    (hobj : ∀ members, (∀ m ∈ members, P m.2) → P (obj members)) : ∀ xs : List Doc, ∀ x ∈ xs, P x
  | [] => fun _ h => absurd h List.not_mem_nil
  | x :: xs => List.forall_mem_cons.2
    ⟨induct hnull hbool hnum hstr harr hobj x, inductElements hnull hbool hnum hstr harr hobj xs⟩

theorem inductMembers {P : Doc → Prop} (hnull : P null) (hbool : ∀ b, P (bool b)) (hnum : ∀ literal, P (num literal))
    (hstr : ∀ s, P (str s)) (harr : ∀ xs, (∀ x ∈ xs, P x) → P (arr xs))
    (hobj : ∀ members, (∀ m ∈ members, P m.2) → P (obj members)) :
    ∀ members : List (String × Doc), ∀ m ∈ members, P m.2
  | [] => fun _ h => absurd h List.not_mem_nil
  | (_, x) :: members => List.forall_mem_cons.2
    ⟨induct hnull hbool hnum hstr harr hobj x, inductMembers hnull hbool hnum hstr harr hobj members⟩

end

/-! ## Texts -/

mutual

/-- `JSON.stringify`, of members that stand in their order. -/
def compact : Doc → List Char
  | null => ['n', 'u', 'l', 'l']
  | bool true => ['t', 'r', 'u', 'e']
  | bool false => ['f', 'a', 'l', 's', 'e']
  | num literal => literal.1
  | str s => Json.quote s
  | arr [] => ['[', ']']
  | arr (x :: xs) => '[' :: (compact x ++ moreElements xs)
  | obj [] => ['{', '}']
  | obj ((name, x) :: members) => '{' :: (Json.quote name ++ ':' :: (compact x ++ moreMembers members))

/-- The rest of an array. -/
def moreElements : List Doc → List Char
  | [] => [']']
  | x :: xs => ',' :: (compact x ++ moreElements xs)

/-- The rest of an object. -/
def moreMembers : List (String × Doc) → List Char
  | [] => ['}']
  | (name, x) :: members => ',' :: (Json.quote name ++ ':' :: (compact x ++ moreMembers members))

end

/-- What a document is known by. -/
def kind : Doc → Nat
  | null => 0
  | bool true => 1
  | bool false => 2
  | str _ => 3
  | arr _ => 4
  | obj _ => 5
  | num _ => 6

def kindOf (c : Char) : Nat :=
  if c = 'n' then 0 else if c = 't' then 1 else if c = 'f' then 2 else if c = '"' then 3 else if c = '[' then 4
  else if c = '{' then 5 else if isLiteral c then 6 else 7

/-- What cannot go on with a number. -/
def Ends (rest : List Char) : Prop := ∀ c ∈ rest.head?, isLiteral c = false

variable {d d' : Doc} {rest rest' : List Char}

theorem not_literal : ∀ c ∈ ['n', 't', 'f', '"', '[', '{', ',', ']', '}'], isLiteral c = false := by
  simp [isLiteral]

theorem compact_head (d : Doc) : ∃ c cs, d.compact = c :: cs ∧ kindOf c = d.kind := by
  match d with
  | null | bool true | bool false | str _ | arr [] | arr (_ :: _) | obj [] | obj ((_, _) :: _) =>
    exact ⟨_, _, rfl, rfl⟩
  | num ⟨[], hne, _⟩ => exact absurd rfl hne
  | num ⟨c :: cs, _, hcs⟩ =>
    have hout (c' : Char) (hc' : isLiteral c' = false) : c ≠ c' := by
      rintro rfl
      rw [hcs c List.mem_cons_self] at hc'
      cases hc'
    refine ⟨c, cs, rfl, ?_⟩
    simp [kindOf, kind, hout, not_literal, hcs c List.mem_cons_self]

/-- No document begins with what closes an array or an object. -/
theorem compact_ne_close {c : Char} (hc : kindOf c = 7) : d.compact ++ rest ≠ c :: rest' := by
  intro h
  obtain ⟨c', cs, hhead, hkind⟩ := compact_head d
  rw [hhead] at h
  rw [(List.cons.inj h).1, hc] at hkind
  match d with
  | bool true | bool false => cases hkind

/-- A quoted string is read to its end. -/
theorem quote_append_inj {s s' : String} (h : Json.quote s ++ rest = Json.quote s' ++ rest') :
    s = s' ∧ rest = rest' := by
  simp only [Json.quote, List.cons_append, List.append_assoc, List.cons.injEq, true_and, List.nil_append] at h
  have hscan := congrArg Json.scan h
  rw [Json.scan_quoted, Json.scan_quoted, Option.some.injEq, Prod.mk.injEq] at hscan
  refine ⟨String.toList_inj.1 ?_, hscan.2⟩
  rw [← Json.ofUnits_toNat s.toList, hscan.1, Json.ofUnits_toNat]

/-- A literal is read as far as its characters go. -/
theorem literal_append_inj {l l' : Literal} (hrest : Ends rest) (hrest' : Ends rest')
    (h : l.1 ++ rest = l'.1 ++ rest') : l = l' ∧ rest = rest' := by
  have htake (l : Literal) {rest : List Char} (hrest : Ends rest) : (l.1 ++ rest).takeWhile isLiteral = l.1 := by
    rw [List.takeWhile_append_of_pos l.2.2]
    cases rest with
    | nil => rw [List.takeWhile_nil, List.append_nil]
    | cons c rest =>
      rw [List.takeWhile_cons_of_neg (Bool.eq_false_iff.1 (hrest c rfl)), List.append_nil]
  have hl : l.1 = l'.1 := by rw [← htake l hrest, h, htake l' hrest']
  rw [hl] at h
  exact ⟨Subtype.ext hl, List.append_cancel_left h⟩

theorem ends_moreElements (xs : List Doc) (rest : List Char) : Ends (moreElements xs ++ rest) := by
  rintro c hc
  cases xs <;> cases hc <;> exact not_literal _ (by decide)

theorem ends_moreMembers (members : List (String × Doc)) (rest : List Char) : Ends (moreMembers members ++ rest) := by
  rintro c hc
  cases members <;> cases hc <;> exact not_literal _ (by decide)

/-- A document is told from others by its text. -/
def Told (d : Doc) : Prop :=
  ∀ d' rest rest', Ends rest → Ends rest' → d.compact ++ rest = d'.compact ++ rest' → d = d' ∧ rest = rest'

theorem moreElements_append_inj {xs : List Doc} (hxs : ∀ x ∈ xs, Told x) {xs' : List Doc}
    (h : moreElements xs ++ rest = moreElements xs' ++ rest') : xs = xs' ∧ rest = rest' := by
  induction xs generalizing xs' with
  | nil =>
    cases xs' with
    | nil => exact ⟨rfl, (List.cons.inj h).2⟩
    | cons x' xs' => exact absurd (List.cons.inj h).1 (by decide)
  | cons x xs ih =>
    cases xs' with
    | nil => exact absurd (List.cons.inj h).1 (by decide)
    | cons x' xs' =>
      simp only [moreElements, List.cons_append, List.append_assoc, List.cons.injEq, true_and] at h
      obtain ⟨rfl, hmore⟩ := hxs x List.mem_cons_self x' _ _ (ends_moreElements _ _) (ends_moreElements _ _) h
      obtain ⟨rfl, hrest⟩ := ih (fun y hy => hxs y (List.mem_cons_of_mem x hy)) hmore
      exact ⟨rfl, hrest⟩

theorem moreMembers_append_inj {members : List (String × Doc)} (hmembers : ∀ m ∈ members, Told m.2)
    {members' : List (String × Doc)} (h : moreMembers members ++ rest = moreMembers members' ++ rest') :
    members = members' ∧ rest = rest' := by
  induction members generalizing members' with
  | nil =>
    cases members' with
    | nil => exact ⟨rfl, (List.cons.inj h).2⟩
    | cons m' members' => exact absurd (List.cons.inj h).1 (by decide)
  | cons m members ih =>
    cases members' with
    | nil => exact absurd (List.cons.inj h).1 (by decide)
    | cons m' members' =>
      obtain ⟨name, x⟩ := m
      obtain ⟨name', x'⟩ := m'
      simp only [moreMembers, List.cons_append, List.append_assoc, List.cons.injEq, true_and] at h
      obtain ⟨rfl, hvalue⟩ := quote_append_inj h
      obtain ⟨rfl, hmore⟩ := hmembers _ List.mem_cons_self x' _ _ (ends_moreMembers _ _) (ends_moreMembers _ _)
        (List.cons.inj hvalue).2
      obtain ⟨rfl, hrest⟩ := ih (fun m hm => hmembers m (List.mem_cons_of_mem _ hm)) hmore
      exact ⟨rfl, hrest⟩

/-- **A text is that of one document**, if what follows cannot go on with a number. -/
theorem compact_append_inj (d : Doc) : Told d := by
  have hkinds (d d' : Doc) (rest rest' : List Char) (h : d.compact ++ rest = d'.compact ++ rest') :
      d.kind = d'.kind := by
    obtain ⟨c, cs, hc, hkind⟩ := compact_head d
    obtain ⟨c', cs', hc', hkind'⟩ := compact_head d'
    rw [hc, hc'] at h
    rw [← hkind, ← hkind', (List.cons.inj h).1]
  induction d using induct with
  | hnull =>
    intro d' rest rest' _ _ h
    have hkind := hkinds null d' rest rest' h
    match d' with
    | null => exact ⟨rfl, List.append_cancel_left h⟩
  | hbool b =>
    intro d' rest rest' _ _ h
    have hkind := hkinds (bool b) d' rest rest' h
    match b, d' with
    | true, bool true | false, bool false => exact ⟨rfl, List.append_cancel_left h⟩
  | hnum literal =>
    intro d' rest rest' hrest hrest' h
    have hkind := hkinds _ d' rest rest' h
    match d' with
    | num literal' =>
      obtain ⟨rfl, hrest⟩ := literal_append_inj hrest hrest' h
      exact ⟨rfl, hrest⟩
  | hstr s =>
    intro d' rest rest' _ _ h
    have hkind := hkinds _ d' rest rest' h
    match d' with
    | str s' =>
      obtain ⟨rfl, hrest⟩ := quote_append_inj h
      exact ⟨rfl, hrest⟩
  | harr xs ih =>
    intro d' rest rest' _ _ h
    have hkind := hkinds _ d' rest rest' h
    match xs, d' with
    | [], arr [] => exact ⟨rfl, List.append_cancel_left h⟩
    | [], arr (_ :: _) =>
      simp only [compact, List.cons_append, List.append_assoc, List.cons.injEq, true_and] at h
      exact absurd h.symm (compact_ne_close (by decide))
    | _ :: _, arr [] =>
      simp only [compact, List.cons_append, List.append_assoc, List.cons.injEq, true_and] at h
      exact absurd h (compact_ne_close (by decide))
    | x :: xs, arr (x' :: xs') =>
      simp only [compact, List.cons_append, List.append_assoc, List.cons.injEq, true_and] at h
      obtain ⟨rfl, hmore⟩ := ih x List.mem_cons_self x' _ _ (ends_moreElements _ _) (ends_moreElements _ _) h
      obtain ⟨rfl, hrest⟩ := moreElements_append_inj (fun y hy => ih y (List.mem_cons_of_mem x hy)) hmore
      exact ⟨rfl, hrest⟩
  | hobj members ih =>
    intro d' rest rest' _ _ h
    have hkind := hkinds _ d' rest rest' h
    match members, d' with
    | [], obj [] => exact ⟨rfl, List.append_cancel_left h⟩
    | [], obj ((_, _) :: _) => exact absurd (List.cons.inj (List.cons.inj h).2).1 (by decide)
    | (_, _) :: _, obj [] => exact absurd (List.cons.inj (List.cons.inj h).2).1 (by decide)
    | (name, x) :: members, obj ((name', x') :: members') =>
      simp only [compact, List.cons_append, List.append_assoc, List.cons.injEq, true_and] at h
      obtain ⟨rfl, hvalue⟩ := quote_append_inj h
      obtain ⟨rfl, hmore⟩ := ih _ List.mem_cons_self x' _ _ (ends_moreMembers _ _) (ends_moreMembers _ _)
        (List.cons.inj hvalue).2
      obtain ⟨rfl, hrest⟩ := moreMembers_append_inj (fun m hm => ih m (List.mem_cons_of_mem _ hm)) hmore
      exact ⟨rfl, hrest⟩

theorem compact_injective (h : d.compact = d'.compact) : d = d' :=
  (compact_append_inj d d' [] [] nofun nofun (by rw [h])).1

end Doc

end Text
