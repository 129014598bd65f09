import Mathlib

/-! The last maximum of a sequence under a comparator, the rule of `Iterator::max_by`:
of several elements that no other exceeds, the one met last is returned. -/

namespace WotCrawler.Sequence

/-- One comparison of the fold: the incumbent stays only when it is strictly greater. -/
def maxStep (compare : α → α → Ordering) (best next : α) : α :=
  if compare best next = .gt then best else next

/-- The last element that no other element exceeds, or `none` on an empty sequence. -/
def maxBy (compare : α → α → Ordering) : List α → Option α
  | [] => none
  | head :: rest => some (rest.foldl (maxStep compare) head)

variable {compare : α → α → Ordering}

@[simp] theorem maxBy_nil : maxBy compare [] = none := rfl

theorem maxBy_eq_none_iff : maxBy compare items = none ↔ items = [] := by
  cases items with
  | nil => simp
  | cons head rest => simp [maxBy]

private theorem foldl_maxStep_mem (compare : α → α → Ordering) (rest : List α) (head : α) :
    rest.foldl (maxStep compare) head = head ∨ rest.foldl (maxStep compare) head ∈ rest := by
  induction rest generalizing head with
  | nil => exact Or.inl rfl
  | cons next rest ih =>
    rw [List.foldl_cons]
    rcases ih (maxStep compare head next) with kept | later
    · rw [kept]
      unfold maxStep
      split
      · exact Or.inl rfl
      · exact Or.inr List.mem_cons_self
    · exact Or.inr (List.mem_cons_of_mem _ later)

/-- The maximum is one of the elements. -/
theorem maxBy_mem (found : maxBy compare items = some best) : best ∈ items := by
  cases items with
  | nil => simp at found
  | cons head rest =>
    obtain rfl := Option.some.inj found
    rcases foldl_maxStep_mem compare rest head with same | later
    · rw [same]
      exact List.mem_cons_self
    · exact List.mem_cons_of_mem _ later

section Keyed

variable {β : Type*} [LinearOrder β] {key : α → β}

private theorem le_foldl_maxStep (keyed : ∀ a b, compare a b = .gt ↔ key b < key a)
    (rest : List α) (head : α) :
    key head ≤ key (rest.foldl (maxStep compare) head) ∧
      ∀ item ∈ rest, key item ≤ key (rest.foldl (maxStep compare) head) := by
  induction rest generalizing head with
  | nil => exact ⟨le_refl _, by simp⟩
  | cons next rest ih =>
    have both : key head ≤ key (maxStep compare head next) ∧
        key next ≤ key (maxStep compare head next) := by
      unfold maxStep
      split
      · rename_i greater
        exact ⟨le_refl _, le_of_lt ((keyed _ _).mp greater)⟩
      · rename_i notGreater
        exact ⟨not_lt.mp (fun less => notGreater ((keyed _ _).mpr less)), le_refl _⟩
    obtain ⟨incumbent, others⟩ := ih (maxStep compare head next)
    rw [List.foldl_cons]
    refine ⟨both.1.trans incumbent, ?_⟩
    intro item member
    rcases List.mem_cons.mp member with rfl | later
    · exact both.2.trans incumbent
    · exact others item later

/-- When the comparator orders by a key, no element has a greater key than the maximum. -/
theorem le_maxBy (keyed : ∀ a b, compare a b = .gt ↔ key b < key a)
    (found : maxBy compare items = some best) (member : item ∈ items) : key item ≤ key best := by
  cases items with
  | nil => simp at found
  | cons head rest =>
    obtain rfl := Option.some.inj found
    obtain ⟨first, others⟩ := le_foldl_maxStep keyed rest head
    rcases List.mem_cons.mp member with rfl | later
    · exact first
    · exact others item later

end Keyed

end WotCrawler.Sequence
