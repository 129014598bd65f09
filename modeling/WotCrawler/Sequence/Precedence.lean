import Mathlib

/-! Which of two members of a list without duplicates comes first. -/

namespace WotCrawler.Sequence

variable {α : Type} {first second : α} {items : List α}

theorem not_pair_swap (nodup : items.Nodup) (order : [first, second].Sublist items) :
    ¬ [second, first].Sublist items := by
  induction items with
  | nil => cases order
  | cons head rest ih =>
    obtain ⟨fresh, nodup⟩ := List.nodup_cons.mp nodup
    intro swapped
    cases order with
    | cons _ order =>
      cases swapped with
      | cons _ swapped => exact ih nodup order swapped
      | cons_cons _ swapped => exact fresh (order.mem (by simp))
    | cons_cons _ order =>
      cases swapped with
      | cons _ swapped => exact fresh (swapped.mem (by simp))
      | cons_cons _ swapped => exact fresh (order.mem (by simp))

theorem pair_total (apart : first ≠ second) (left : first ∈ items) (right : second ∈ items) :
    [first, second].Sublist items ∨ [second, first].Sublist items := by
  induction items with
  | nil => cases left
  | cons head rest ih =>
    cases List.mem_cons.mp left with
    | inl same =>
      subst same
      have later : second ∈ rest := (List.mem_cons.mp right).resolve_left apart.symm
      exact .inl ((List.singleton_sublist.mpr later).cons_cons first)
    | inr present =>
      cases List.mem_cons.mp right with
      | inl same =>
        subst same
        exact .inr ((List.singleton_sublist.mpr present).cons_cons second)
      | inr also => exact (ih present also).imp (.cons head) (.cons head)

/-- A prefix with the second member has the first. -/
theorem mem_take_of_pair (nodup : items.Nodup) (order : [first, second].Sublist items)
    (taken : second ∈ items.take count) : first ∈ items.take count := by
  by_contra left
  have dropped : first ∈ items.drop count := by
    have member : first ∈ items := order.mem (by simp)
    rw [← List.take_append_drop count items] at member
    exact (List.mem_append.mp member).resolve_left left
  have swapped : [second, first].Sublist (items.take count ++ items.drop count) :=
    (List.singleton_sublist.mpr taken).append (List.singleton_sublist.mpr dropped)
  rw [List.take_append_drop] at swapped
  exact not_pair_swap nodup order swapped

end WotCrawler.Sequence
