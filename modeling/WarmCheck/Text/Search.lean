/-!
# Search

Words inside a text, and texts cut at a separator.

* `occursIn`: whether a word stands anywhere in the text.
* `isPrefixOf?_append`: what follows a word that the text begins with.
* `length_splitOn`, `splitOn_append`: how many pieces a text has, and how it can be cut anywhere.
-/

namespace WarmCheck.Text

variable {α : Type} [BEq α]

/-- Whether `w` stands somewhere in the text. -/
def occursIn (w : List α) : List α → Bool
  | [] => w.isPrefixOf []
  | c :: cs => w.isPrefixOf (c :: cs) || occursIn w cs

/-- A word occurs in a text iff it is an infix of it. -/
theorem occursIn_iff [LawfulBEq α] {w cs : List α} : occursIn w cs = true ↔ w <:+: cs := by
  induction cs with
  | nil => rw [occursIn, List.isPrefixOf_iff_prefix, List.prefix_nil, List.infix_nil]
  | cons c cs ih =>
    rw [occursIn, Bool.or_eq_true, ih, List.isPrefixOf_iff_prefix, List.infix_cons_iff]

theorem isPrefixOf?_append [LawfulBEq α] (w cs : List α) : w.isPrefixOf? (w ++ cs) = some cs := by
  induction w with
  | nil => rfl
  | cons a w ih =>
    show (if a == a then w.isPrefixOf? (w ++ cs) else none) = some cs
    rw [if_pos (beq_self_eq_true a), ih]

/-! ## Pieces -/

/-- There is one piece more than there are separators. -/
theorem length_splitOn (sep : α) (cs : List α) :
    (cs.splitOn sep).length = cs.count sep + 1 := by
  induction cs with
  | nil => rfl
  | cons c cs ih =>
    rw [List.splitOn_cons_eq_if_modifyHead, List.count_cons]
    split
    · rw [List.length_cons, ih]
    · rw [List.length_modifyHead, ih, Nat.add_zero]

/-- A text can be cut anywhere: the last piece before the cut goes on after it. -/
theorem splitOn_append (sep : α) (a b : List α) :
    (a ++ b).splitOn sep =
      (a.splitOn sep).dropLast ++ ((a.splitOn sep).getLast?.getD [] ++ b).splitOn sep := by
  induction a with
  | nil => rfl
  | cons c a ih =>
    obtain ⟨p, ps, hp⟩ := List.exists_cons_of_ne_nil (List.splitOn_ne_nil sep a)
    rw [hp] at ih
    rw [List.cons_append, List.splitOn_cons_eq_if_modifyHead, ih,
      List.splitOn_cons_eq_if_modifyHead, hp]
    by_cases hc : c == sep
    · rw [if_pos hc, if_pos hc]
      rfl
    · rw [if_neg hc, if_neg hc]
      cases ps with
      | nil => simp [List.splitOn_cons_eq_if_modifyHead, hc]
      | cons q qs => rfl

end WarmCheck.Text
