import Mathlib.Data.List.Lex
import Mathlib.Data.Prod.Lex
import Mathlib.Order.WithBot
import NexoraGateway.Store.Stable
import NexoraGateway.Text.Documents

/-!
# The order of the names in an object

* `enumerate` — how JavaScript goes through an object: array indices first, by number, then the other names as they were
  added. `stringify` writes a document so.
* `jsonb?` — what PostgreSQL makes of a document in a `JSONB` column: the names of each object by length, then by
  octets. It takes no document with a zero character.
* `enumerate_jsonb_iff` — when a document that was stored is enumerated as it was before.
-/
namespace Text

open Store

namespace Doc

mutual

/-- The members of every object, sorted by a key of their names. -/
def sortNames {β : Type} [LinearOrder β] (key : String → β) : Doc → Doc
  | null => null
  | bool b => bool b
  | num literal => num literal
  | str s => str s
  | arr xs => arr (sortElements key xs)
  | obj members => obj (sortBy (fun m => key m.1) (sortMembers key members))

def sortElements {β : Type} [LinearOrder β] (key : String → β) : List Doc → List Doc
  | [] => []
  | x :: xs => sortNames key x :: sortElements key xs

def sortMembers {β : Type} [LinearOrder β] (key : String → β) : List (String × Doc) → List (String × Doc)
  | [] => []
  | (name, x) :: members => (name, sortNames key x) :: sortMembers key members

end

mutual

/-- Whether the names of every object pass a test. -/
def everyObject (p : List String → Bool) : Doc → Bool
  | arr xs => everyElement p xs
  | obj members => p (members.map Prod.fst) && everyMember p members
  | null | bool _ | num _ | str _ => true

def everyElement (p : List String → Bool) : List Doc → Bool
  | [] => true
  | x :: xs => everyObject p x && everyElement p xs

def everyMember (p : List String → Bool) : List (String × Doc) → Bool
  | [] => true
  | (_, x) :: members => everyObject p x && everyMember p members

end

mutual

/-- Whether every string passes a test, the names among them. -/
def everyString (p : String → Bool) : Doc → Bool
  | str s => p s
  | arr xs => everyStringIn p xs
  | obj members => everyStringOf p members
  | null | bool _ | num _ => true

def everyStringIn (p : String → Bool) : List Doc → Bool
  | [] => true
  | x :: xs => everyString p x && everyStringIn p xs

def everyStringOf (p : String → Bool) : List (String × Doc) → Bool
  | [] => true
  | (name, x) :: members => p name && everyString p x && everyStringOf p members

end

def mapValues (f : Doc → Doc) (members : List (String × Doc)) : List (String × Doc) :=
  members.map fun m => (m.1, f m.2)

/-- No object has two members of one name. -/
def Distinct (d : Doc) : Prop := d.everyObject (fun names => decide names.Nodup) = true

section
variable {β γ : Type} [LinearOrder β] [LinearOrder γ] {key : String → β} {other : String → γ}
  {p : List String → Bool} {q : String → Bool} {xs : List Doc} {members : List (String × Doc)} {f g : Doc → Doc}

theorem mapValues_mapValues : mapValues g (mapValues f members) = mapValues (fun x => g (f x)) members := List.map_map

theorem map_fst_mapValues : (mapValues f members).map Prod.fst = members.map Prod.fst := List.map_map

theorem sortBy_mapValues : sortBy (fun m => key m.1) (mapValues f members) =
    mapValues f (sortBy (fun m => key m.1) members) := (map_sortBy fun _ => rfl).symm

theorem sortNames_arr : (arr xs).sortNames key = arr (xs.map (sortNames key)) := by
  have helements (xs : List Doc) : sortElements key xs = xs.map (sortNames key) := by
    induction xs with
    | nil => rfl
    | cons x xs ih => rw [sortElements, ih, List.map_cons]
  rw [sortNames, helements]

/-- The values are put in order where they stand. -/
theorem sortNames_obj : (obj members).sortNames key =
    obj (mapValues (sortNames key) (sortBy (fun m => key m.1) members)) := by
  have hmembers (members : List (String × Doc)) : sortMembers key members = mapValues (sortNames key) members := by
    induction members with
    | nil => rfl
    | cons m members ih =>
      rw [sortMembers, ih]
      rfl
  rw [sortNames, hmembers, sortBy_mapValues]

theorem everyObject_arr : (arr xs).everyObject p = xs.all (everyObject p) := by
  have helements (xs : List Doc) : everyElement p xs = xs.all (everyObject p) := by
    induction xs with
    | nil => rfl
    | cons x xs ih => rw [everyElement, ih, List.all_cons]
  rw [everyObject, helements]

theorem everyObject_obj :
    (obj members).everyObject p = (p (members.map Prod.fst) && members.all fun m => m.2.everyObject p) := by
  have hmembers (members : List (String × Doc)) : everyMember p members = members.all fun m => m.2.everyObject p := by
    induction members with
    | nil => rfl
    | cons m members ih => rw [everyMember, ih, List.all_cons]
  rw [everyObject, hmembers]

theorem everyString_arr : (arr xs).everyString q = xs.all (everyString q) := by
  have helements (xs : List Doc) : everyStringIn q xs = xs.all (everyString q) := by
    induction xs with
    | nil => rfl
    | cons x xs ih => rw [everyStringIn, ih, List.all_cons]
  rw [everyString, helements]

theorem everyString_obj : (obj members).everyString q = members.all fun m => q m.1 && m.2.everyString q := by
  have hmembers (members : List (String × Doc)) :
      everyStringOf q members = members.all fun m => q m.1 && m.2.everyString q := by
    induction members with
    | nil => rfl
    | cons m members ih => rw [everyStringOf, ih, List.all_cons]
  rw [everyString, hmembers]

/-- Sorting changes no string. -/
theorem everyString_sortNames (d : Doc) : (d.sortNames key).everyString q = d.everyString q := by
  induction d using induct with
  | hnull | hbool | hnum | hstr => rfl
  | harr xs ih =>
    rw [sortNames_arr, everyString_arr, everyString_arr, List.all_map, Bool.eq_iff_iff, List.all_eq_true,
      List.all_eq_true]
    exact forall₂_congr fun x hx => by rw [Function.comp_apply, ih x hx]
  | hobj members ih =>
    rw [sortNames_obj, everyString_obj, everyString_obj, mapValues, List.all_map, sortBy_perm.all_eq,
      Bool.eq_iff_iff, List.all_eq_true, List.all_eq_true]
    exact forall₂_congr fun m hm => by rw [Function.comp_apply, ih m hm]

/-- What is found by name does not depend on the order. -/
theorem get?_mapValues {members' : List (String × Doc)} (hnodup : (members.map Prod.fst).Nodup)
    (hperm : members'.Perm members) (name : String) :
    (obj (mapValues f members')).get? name = ((obj members).get? name).map f := by
  have hmapped : ((mapValues f members').map Prod.fst).Nodup := by
    rw [map_fst_mapValues]
    exact (hperm.map Prod.fst).nodup_iff.2 hnodup
  ext x
  rw [get?, get?, lookup_eq_some_iff hmapped, Option.map_eq_some_iff]
  simp only [lookup_eq_some_iff hnodup, mapValues, List.mem_map, hperm.mem_iff, Prod.mk.injEq]
  constructor
  · rintro ⟨m, hm, rfl, rfl⟩
    exact ⟨m.2, hm, rfl⟩
  · rintro ⟨y, hy, rfl⟩
    exact ⟨(name, y), hy, rfl, rfl⟩

theorem sortNames_resorted : (((obj members).sortNames key).sortNames other).sortNames key =
    obj (mapValues (fun x => ((x.sortNames key).sortNames other).sortNames key)
      (sortBy (fun m => key m.1) (sortBy (fun m => other m.1) (sortBy (fun m => key m.1) members)))) := by
  rw [sortNames_obj, sortNames_obj, sortBy_mapValues, mapValues_mapValues, sortNames_obj, sortBy_mapValues,
    mapValues_mapValues]

/-- **A document that is sorted by another order, and back,** is as it was just when the names of each object that the
one order does not tell apart were sorted by the other. -/
theorem sortNames_resort_iff (hother : Function.Injective other) (d : Doc) (hd : d.Distinct) :
    ((d.sortNames key).sortNames other).sortNames key = d.sortNames key ↔
      d.everyObject (fun names => decide (names.Pairwise fun a b => key a = key b → other a ≤ other b)) = true := by
  induction d using induct with
  | hnull | hbool | hnum | hstr => exact iff_of_true rfl rfl
  | harr xs ih =>
    simp only [sortNames_arr, List.map_map, arr.injEq, List.map_inj_left, everyObject_arr, List.all_eq_true]
    rw [Distinct, everyObject_arr, List.all_eq_true] at hd
    exact forall₂_congr fun x hx => ih x hx (hd x hx)
  | hobj members ih =>
    rw [Distinct, everyObject_obj, Bool.and_eq_true, List.all_eq_true, decide_eq_true_iff] at hd
    obtain ⟨hnodup, hvalues⟩ := hd
    have hsame (m : String × Doc) (hm : m ∈ members) (m' : String × Doc) (hm' : m' ∈ members) (h : m.1 = m'.1) :
        m = m' := List.inj_on_of_nodup_map hnodup hm hm' h
    rw [sortNames_resorted, sortNames_obj, obj.injEq, everyObject_obj, Bool.and_eq_true, List.all_eq_true,
      decide_eq_true_iff]
    constructor
    · intro h
      refine ⟨?_, fun m hm => (ih m hm (hvalues m hm)).1 ?_⟩
      · have hnames := congrArg (List.map Prod.fst) h
        rw [map_fst_mapValues, map_fst_mapValues] at hnames
        refine (resort_eq_iff fun a _ b _ hab => hother hab).1 ?_
        have hfst {δ : Type} [LinearOrder δ] (k : String → δ) (l : List (String × Doc)) :
            (sortBy (fun m => k m.1) l).map Prod.fst = sortBy k (l.map Prod.fst) := map_sortBy fun _ => rfl
        simpa only [hfst] using hnames
      · have hmem : (m.1, ((m.2.sortNames key).sortNames other).sortNames key) ∈
            mapValues (sortNames key) (sortBy (fun m => key m.1) members) := by
          rw [← h]
          exact List.mem_map.2 ⟨m, by simpa using hm, rfl⟩
        obtain ⟨m', hm', heq⟩ := List.mem_map.1 hmem
        obtain ⟨hname, hvalue⟩ := Prod.mk.inj heq
        rw [hsame m' (mem_sortBy.1 hm') m hm hname] at hvalue
        exact hvalue.symm
    · rintro ⟨hnames, hvalues'⟩
      rw [List.pairwise_map] at hnames
      rw [(resort_eq_iff fun a ha b hb hab => hsame a ha b hb (hother hab)).2 hnames]
      refine List.map_congr_left fun m hm => ?_
      rw [mem_sortBy] at hm
      exact congrArg (Prod.mk m.1) ((ih m hm (hvalues m hm)).2 (hvalues' m hm))

end

/-! ## The two orders -/

/-- The number of a name that is an array index. -/
def index? (name : String) : Option Nat :=
  let i := Nat.ofDigitChars 10 name.toList 0
  if i < 2 ^ 32 - 1 ∧ Nat.toDigits 10 i = name.toList then some i else none

/-- Indices by number, before the other names. -/
def indexKey (name : String) : WithTop Nat := (index? name).elim ⊤ fun i => WithTop.some i

/-- The length of a name in octets, and the octets. -/
def jsonbKey (name : String) : Nat ×ₗ List Nat := toLex ((Utf8.encode name.toList).length, Utf8.encode name.toList)

def enumerate (d : Doc) : Doc := d.sortNames indexKey

/-- `JSON.stringify`. -/
def stringify (d : Doc) : List Char := d.enumerate.compact

/-- The members of an object are known from its text. -/
theorem mem_of_stringify_eq {members members' : List (String × Doc)} {name : String} {x : Doc}
    (h : (obj members).stringify = (obj members').stringify) (hx : (name, x) ∈ members) :
    ∃ y, (name, y) ∈ members' ∧ y.enumerate = x.enumerate := by
  have hmembers := compact_injective h
  rw [enumerate, enumerate, sortNames_obj, sortNames_obj, obj.injEq] at hmembers
  have hmem : (name, x.enumerate) ∈ mapValues (sortNames indexKey) (sortBy (fun m => indexKey m.1) members') := by
    rw [← hmembers]
    exact List.mem_map.2 ⟨(name, x), mem_sortBy.2 hx, rfl⟩
  obtain ⟨⟨name', y⟩, hy, heq⟩ := List.mem_map.1 hmem
  obtain ⟨rfl, hvalue⟩ := Prod.mk.inj heq
  exact ⟨y, mem_sortBy.1 hy, hvalue⟩

def noZero (s : String) : Bool := s.toList.all fun c => c.toNat ≠ 0

theorem noZero_append (s t : String) : noZero (s ++ t) = (noZero s && noZero t) := by
  rw [noZero, String.toList_append, List.all_append]
  rfl

/-- A `JSONB` column takes no zero character. -/
def storable (d : Doc) : Bool := d.everyString noZero

def jsonb? (d : Doc) : Option Doc := if d.storable then some (d.sortNames jsonbKey) else none

/-- In every object the names that are no indices are sorted as PostgreSQL sorts them. -/
def InOrder (d : Doc) : Prop :=
  d.everyObject (fun names => decide (names.Pairwise fun a b =>
    index? a = none → index? b = none → jsonbKey a ≤ jsonbKey b)) = true

instance (d : Doc) : Decidable d.Distinct := inferInstanceAs (Decidable (_ = true))
instance (d : Doc) : Decidable d.InOrder := inferInstanceAs (Decidable (_ = true))

theorem jsonbKey_injective : Function.Injective jsonbKey := by
  intro a b h
  have hoctets : Utf8.encode a.toList = Utf8.encode b.toList := congrArg (fun k => (ofLex k).2) h
  rw [← String.toList_inj, ← Utf8.decode_encode a.toList, hoctets, Utf8.decode_encode]

/-- An index is written in one way. -/
theorem toDigits_of_index? {a : String} {i : Nat} (h : index? a = some i) : Nat.toDigits 10 i = a.toList := by
  unfold index? at h
  dsimp only at h
  split at h
  · rename_i hdigits
    cases h
    exact hdigits.2
  · cases h

theorem indexKey_eq_iff {a b : String} : indexKey a = indexKey b ↔ a = b ∨ index? a = none ∧ index? b = none := by
  constructor
  · intro h
    unfold indexKey at h
    cases ha : index? a with
    | none =>
      cases hb : index? b with
      | none => exact .inr ⟨rfl, rfl⟩
      | some j =>
        rw [ha, hb] at h
        exact absurd h (WithTop.top_ne_coe)
    | some i =>
      cases hb : index? b with
      | none =>
        rw [ha, hb] at h
        exact absurd h (WithTop.coe_ne_top)
      | some j =>
        rw [ha, hb] at h
        obtain rfl : i = j := WithTop.coe_injective h
        exact .inl (String.toList_inj.1 ((toDigits_of_index? ha).symm.trans (toDigits_of_index? hb)))
  · rintro (rfl | ⟨ha, hb⟩)
    · rfl
    · rw [indexKey, indexKey, ha, hb]

/-- **What comes back from the column is enumerated as it was** just when the names of its objects were in order. -/
theorem enumerate_jsonb_iff {d : Doc} (hd : d.Distinct) :
    (d.enumerate.sortNames jsonbKey).enumerate = d.enumerate ↔ d.InOrder := by
  rw [enumerate, enumerate, sortNames_resort_iff jsonbKey_injective d hd, InOrder]
  have hnames (names : List String) :
      (names.Pairwise fun a b => indexKey a = indexKey b → jsonbKey a ≤ jsonbKey b) ↔
        names.Pairwise fun a b => index? a = none → index? b = none → jsonbKey a ≤ jsonbKey b := by
    refine List.Pairwise.iff fun a b => ?_
    rw [indexKey_eq_iff]
    constructor
    · exact fun h ha hb => h (.inr ⟨ha, hb⟩)
    · rintro h (rfl | ⟨ha, hb⟩)
      · exact le_rfl
      · exact h ha hb
  simp only [hnames]

end Doc

end Text
