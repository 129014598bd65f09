import Mathlib

/-! Taking from the front of a queue in order: what a taking that passes an item by takes, and how long a
list can be whose items are counted. -/

namespace WotCrawler.Sequence

variable {α : Type} {items : List α} {item : α}

/-- A taking that leaves an item behind is a full one, and takes what precedes it. -/
theorem take_passes {precedes : α → α → Prop} {limit : Nat} (ordered : items.Pairwise precedes) (member : item ∈ items)
    (left : item ∉ items.take limit) :
    (items.take limit).length = limit ∧ ∀ other ∈ items.take limit, precedes other item := by
  rw [← List.take_append_drop limit items] at ordered member
  have behind : item ∈ items.drop limit := (List.mem_append.mp member).resolve_left left
  refine ⟨?_, fun other taken => (List.pairwise_append.mp ordered).2.2 other taken item behind⟩
  rw [List.length_take]
  apply Nat.min_eq_left
  by_contra short
  rw [List.drop_eq_nil_of_le (by omega)] at behind
  cases behind

/-- A list is at most as long as its items are counted. -/
theorem length_le_sum_of_count [DecidableEq α] {among : Finset α} {bound : α → Nat} (inside : ∀ item ∈ items, item ∈ among)
    (counted : ∀ item ∈ among, items.count item ≤ bound item) : items.length ≤ ∑ item ∈ among, bound item := by
  have covered : items.toFinset ⊆ among := fun item member => inside item (List.mem_toFinset.mp member)
  calc items.length = ∑ item ∈ items.toFinset, items.count item := (List.sum_toFinset_count_eq_length items).symm
    _ ≤ ∑ item ∈ items.toFinset, bound item := Finset.sum_le_sum fun item member => counted item (covered member)
    _ ≤ ∑ item ∈ among, bound item := Finset.sum_le_sum_of_subset covered

/-- The items of lists of one length. -/
theorem length_flatten_of_uniform {lists : List (List α)} {size : Nat} (uniform : ∀ list ∈ lists, list.length = size) :
    lists.flatten.length = lists.length * size := by
  have each (length : Nat) (member : length ∈ lists.map List.length) : length = size := by
    obtain ⟨list, listed, rfl⟩ := List.mem_map.mp member
    exact uniform list listed
  rw [List.length_flatten, List.sum_eq_card_nsmul _ size each, List.length_map, smul_eq_mul]

end WotCrawler.Sequence
