import Mathlib.Data.List.Basic

/-!
# Trees of arrays and objects

What a value of JavaScript is when its leaves are left open. `fold` computes over all of one; `at?` goes down a path.
-/
namespace Text

inductive Tree (α : Type) where
  | leaf (a : α)
  | arr (xs : List (Tree α))
  | obj (members : List (String × Tree α))

/-- A step down a tree. -/
inductive Key where
  | index (i : Nat)
  | name (s : String)

namespace Tree
variable {α β : Type} (leafOf : α → β) (arrOf : List β → β) (objOf : List (String × β) → β)

mutual

def fold : Tree α → β
  | leaf a => leafOf a
  | arr xs => arrOf (foldElements xs)
  | obj members => objOf (foldMembers members)

def foldElements : List (Tree α) → List β
  | [] => []
  | x :: xs => fold x :: foldElements xs

def foldMembers : List (String × Tree α) → List (String × β)
  | [] => []
  | (name, x) :: members => (name, fold x) :: foldMembers members

end

@[simp] theorem fold_leaf (a : α) : (leaf a).fold leafOf arrOf objOf = leafOf a := by rw [fold]

@[simp] theorem fold_arr (xs : List (Tree α)) :
    (arr xs).fold leafOf arrOf objOf = arrOf (xs.map (fold leafOf arrOf objOf)) := by
  have helements (xs : List (Tree α)) : foldElements leafOf arrOf objOf xs = xs.map (fold leafOf arrOf objOf) := by
    induction xs with
    | nil => rw [foldElements, List.map_nil]
    | cons x xs ih => rw [foldElements, ih, List.map_cons]
  rw [fold, helements]

@[simp] theorem fold_obj (members : List (String × Tree α)) : (obj members).fold leafOf arrOf objOf =
    objOf (members.map fun m => (m.1, m.2.fold leafOf arrOf objOf)) := by
  have hmembers (members : List (String × Tree α)) : foldMembers leafOf arrOf objOf members =
      members.map fun m => (m.1, m.2.fold leafOf arrOf objOf) := by
    induction members with
    | nil => rw [foldMembers, List.map_nil]
    | cons m members ih => rw [foldMembers, ih, List.map_cons]
  rw [fold, hmembers]

/-- What stands at the end of a path. -/
def at? : List Key → Tree α → Option (Tree α)
  | [], t => some t
  | .index i :: path, arr xs => xs[i]?.bind (at? path)
  | .name s :: path, obj members => (members.lookup s).bind (at? path)
  | _ :: _, _ => none

end Tree

end Text
