import Mathlib

/-! Differences between sets, and what becomes of one that is applied to a set it was not
computed from. -/

namespace WotCrawler.Sequence

variable {α : Type} [DecidableEq α]

/-- The elements to take out of a set and those to put in. -/
structure Patch (α : Type) [DecidableEq α] where
  removed : Finset α
  added : Finset α

namespace Patch

def between (old new : Finset α) : Patch α where
  removed := old \ new
  added := new \ old

def apply (patch : Patch α) (items : Finset α) : Finset α := (items \ patch.removed) ∪ patch.added

theorem mem_apply_between {old new items : Finset α} {item : α} :
    item ∈ (between old new).apply items ↔ (item ∈ items ∧ (item ∈ old → item ∈ new)) ∨
      (item ∈ new ∧ item ∉ old) := by
  simp only [apply, between, Finset.mem_union, Finset.mem_sdiff]
  tauto

/-- A patch leads to its target exactly from the sets whose changes since it was computed agree
with the target: what appeared is in it, and what disappeared is not. -/
theorem apply_between_eq_iff {old new items : Finset α} :
    (between old new).apply items = new ↔
      (∀ item ∈ items, item ∉ old → item ∈ new) ∧ ∀ item ∈ old, item ∉ items → item ∉ new := by
  rw [Finset.ext_iff]
  simp only [mem_apply_between]
  constructor
  · intro reached
    refine ⟨?_, ?_⟩
    · intro item present appeared
      exact (reached item).mp (.inl ⟨present, fun old => absurd old appeared⟩)
    · intro item before missing wanted
      cases (reached item).mpr wanted with
      | inl kept => exact missing kept.1
      | inr added => exact added.2 before
  · rintro ⟨appeared, disappeared⟩ item
    constructor
    · rintro (⟨present, kept⟩ | added)
      · by_cases before : item ∈ old
        · exact kept before
        · exact appeared item present before
      · exact added.1
    · intro wanted
      by_cases before : item ∈ old
      · by_cases present : item ∈ items
        · exact .inl ⟨present, fun _ => wanted⟩
        · exact absurd wanted (disappeared item before present)
      · exact .inr ⟨wanted, before⟩

end Patch

end WotCrawler.Sequence
