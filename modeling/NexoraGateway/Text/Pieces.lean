import Mathlib.Data.List.Infix

/-!
# The pieces of a text between the occurrences of a pattern

`breakOn pattern` cuts at the first occurrence. A piece that the pattern does not begin in is cut off whole:
`breakOn_append`.
-/
namespace Text.Pieces

variable {α : Type} [DecidableEq α]

/-- What comes before the first `pattern`, and what comes after it if there is one. -/
def breakOn (pattern : List α) : List α → List α × Option (List α)
  | [] => ([], if pattern = [] then some [] else none)
  | c :: text =>
    if pattern <+: c :: text then ([], some ((c :: text).drop pattern.length))
    else (c :: (breakOn pattern text).1, (breakOn pattern text).2)

/-- What `text.replace(pattern, '')` makes of it. -/
def removeFirst (pattern text : List α) : List α := (breakOn pattern text).1 ++ ((breakOn pattern text).2).getD []

/-- The pattern does not begin in `before`, which it follows. -/
def Free (pattern before : List α) : Prop := ∀ a b, before = a ++ b → b ≠ [] → ¬ pattern <+: b ++ pattern

variable {pattern before : List α}

omit [DecidableEq α] in
theorem Free.tail {c : α} (h : Free pattern (c :: before)) : Free pattern before :=
  fun a b hsplit => h (c :: a) b (by rw [hsplit, List.cons_append])

theorem breakOn_append (h : Free pattern before) (after : List α) :
    breakOn pattern (before ++ pattern ++ after) = (before, some after) := by
  induction before with
  | nil =>
    cases pattern with
    | nil => cases after <;> simp [breakOn]
    | cons c pattern => simp [breakOn]
  | cons c before ih =>
    have hno : ¬ pattern <+: c :: (before ++ pattern ++ after) := by
      intro hprefix
      refine h [] (c :: before) rfl (List.cons_ne_nil _ _) ?_
      have hlonger : c :: before ++ pattern <+: c :: (before ++ pattern ++ after) :=
        ⟨after, by simp only [List.cons_append, List.append_assoc]⟩
      refine List.prefix_of_prefix_length_le hprefix hlonger ?_
      rw [List.length_append]
      omega
    simp only [List.cons_append, breakOn, if_neg hno, ih h.tail]

theorem removeFirst_append (h : Free pattern before) (after : List α) :
    removeFirst pattern (before ++ pattern ++ after) = before ++ after := by
  rw [removeFirst, breakOn_append h, Option.getD_some]

end Text.Pieces
