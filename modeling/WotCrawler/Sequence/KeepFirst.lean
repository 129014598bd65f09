import Mathlib

/-! Filtering a stream through a seen-set: an element passes when its key has not been seen,
and its key is seen from then on. -/

namespace WotCrawler.Sequence

variable {α κ : Type*} [DecidableEq κ] {key : α → κ}

/-- The elements whose key is new, each key entering the seen-set when it first passes. -/
def keepFirst (key : α → κ) : Finset κ → List α → List α
  | _, [] => []
  | seen, item :: rest =>
    if key item ∈ seen then keepFirst key seen rest
    else item :: keepFirst key (insert (key item) seen) rest

@[simp] theorem keepFirst_nil (seen : Finset κ) : keepFirst key seen ([] : List α) = [] := rfl

theorem keepFirst_sublist (key : α → κ) (seen : Finset κ) (items : List α) :
    (keepFirst key seen items).Sublist items := by
  induction items generalizing seen with
  | nil => exact List.Sublist.refl _
  | cons item rest ih =>
    rw [keepFirst]
    split
    · exact (ih seen).cons item
    · exact (ih _).cons_cons item

theorem not_mem_seen_of_mem_keepFirst (member : item ∈ keepFirst key seen items) :
    key item ∉ seen := by
  induction items generalizing seen with
  | nil => simp at member
  | cons head rest ih =>
    rw [keepFirst] at member
    split at member
    · exact ih member
    · rename_i fresh
      rcases List.mem_cons.mp member with rfl | later
      · exact fresh
      · exact fun old => ih later (Finset.mem_insert_of_mem old)

/-- No two elements that pass share a key. -/
theorem keepFirst_nodup (key : α → κ) (seen : Finset κ) (items : List α) :
    ((keepFirst key seen items).map key).Nodup := by
  induction items generalizing seen with
  | nil => simp
  | cons head rest ih =>
    rw [keepFirst]
    split
    · exact ih seen
    · refine List.nodup_cons.mpr ⟨?_, ih _⟩
      intro repeated
      obtain ⟨item, member, same⟩ := List.mem_map.mp repeated
      apply not_mem_seen_of_mem_keepFirst member
      rw [same]
      exact Finset.mem_insert_self _ _

/-- A stream of distinct new keys passes whole. -/
theorem keepFirst_eq_self (fresh : ∀ item ∈ items, key item ∉ seen) (nodup : (items.map key).Nodup) :
    keepFirst key seen items = items := by
  induction items generalizing seen with
  | nil => rfl
  | cons head rest ih =>
    obtain ⟨once, distinct⟩ := List.nodup_cons.mp nodup
    rw [keepFirst, if_neg (fresh head (List.mem_cons_self ..))]
    congr 1
    apply ih _ distinct
    intro item member
    rw [Finset.mem_insert, not_or]
    refine ⟨?_, fresh item (List.mem_cons_of_mem _ member)⟩
    exact fun same => once (same ▸ List.mem_map_of_mem member)

/-- Every key of the stream is seen before or passes once. -/
theorem exists_mem_keepFirst (key : α → κ) (seen : Finset κ) (member : item ∈ items) :
    key item ∈ seen ∨ ∃ kept ∈ keepFirst key seen items, key kept = key item := by
  induction items generalizing seen with
  | nil => simp at member
  | cons head rest ih =>
    rw [keepFirst]
    split
    · rename_i old
      rcases List.mem_cons.mp member with rfl | later
      · exact Or.inl old
      · exact ih seen later
    · rcases List.mem_cons.mp member with rfl | later
      · exact Or.inr ⟨item, List.mem_cons_self, rfl⟩
      · rcases ih (insert (key head) seen) later with old | ⟨kept, found, same⟩
        · rcases Finset.mem_insert.mp old with same | old
          · exact Or.inr ⟨head, List.mem_cons_self, same.symm⟩
          · exact Or.inl old
        · exact Or.inr ⟨kept, List.mem_cons_of_mem _ found, same⟩

/-- Filtering a concatenation is filtering its parts, the second with the keys of the first. -/
theorem keepFirst_append (seen : Finset κ) (front back : List α) :
    keepFirst key seen (front ++ back) =
      keepFirst key seen front ++ keepFirst key (seen ∪ (front.map key).toFinset) back := by
  induction front generalizing seen with
  | nil => simp
  | cons head rest ih =>
    rw [List.cons_append, keepFirst, keepFirst]
    split
    · rename_i old
      rw [ih, List.map_cons, List.toFinset_cons, Finset.union_insert, ← Finset.insert_union,
        Finset.insert_eq_of_mem old]
    · rw [ih, List.cons_append, List.map_cons, List.toFinset_cons, Finset.union_insert,
        ← Finset.insert_union]

/-- What passes is exactly the first occurrence of a key that was not seen before. -/
theorem mem_keepFirst_iff : item ∈ keepFirst key seen items ↔
    key item ∉ seen ∧ ∃ front back, items = front ++ item :: back ∧ key item ∉ front.map key := by
  induction items generalizing seen with
  | nil => simp
  | cons head rest ih =>
    rw [keepFirst]
    constructor
    · intro member
      refine ⟨?_, ?_⟩
      · split at member
        · exact not_mem_seen_of_mem_keepFirst member
        · rename_i fresh
          rcases List.mem_cons.mp member with rfl | later
          · exact fresh
          · exact fun old => not_mem_seen_of_mem_keepFirst later (Finset.mem_insert_of_mem old)
      · split at member
        · rename_i old
          obtain ⟨fresh, front, back, rfl, first⟩ := ih.mp member
          refine ⟨head :: front, back, rfl, ?_⟩
          rw [List.map_cons, List.mem_cons, not_or]
          exact ⟨fun same => fresh (same ▸ old), first⟩
        · rcases List.mem_cons.mp member with rfl | later
          · exact ⟨[], rest, rfl, by simp⟩
          · obtain ⟨fresh, front, back, rfl, first⟩ := ih.mp later
            refine ⟨head :: front, back, rfl, ?_⟩
            rw [List.map_cons, List.mem_cons, not_or]
            exact ⟨fun same => fresh (same ▸ Finset.mem_insert_self _ _), first⟩
    · rintro ⟨fresh, front, back, same, first⟩
      cases front with
      | nil =>
        obtain ⟨rfl, rfl⟩ := List.cons.inj same
        simp [fresh]
      | cons other front =>
        obtain ⟨rfl, rfl⟩ := List.cons.inj same
        rw [List.map_cons, List.mem_cons, not_or] at first
        split
        · exact ih.mpr ⟨fresh, front, back, rfl, first.2⟩
        · refine List.mem_cons_of_mem _ (ih.mpr ⟨?_, front, back, rfl, first.2⟩)
          rw [Finset.mem_insert, not_or]
          exact ⟨first.1, fresh⟩

/-- An element passes an empty seen-set exactly if it is the first with its key. -/
theorem mem_keepFirst_iff_find? : item ∈ keepFirst key ∅ items ↔
    items.find? (fun other => key other = key item) = some item := by
  rw [mem_keepFirst_iff, List.find?_eq_some_iff_append]
  simp

end WotCrawler.Sequence
