import Mathlib

/-! The exponentially weighted moving average of a sequence of samples. -/

namespace WotCrawler.Sequence

variable {α : Type*} [CommRing α]

def blend (weight prev sample : α) : α := weight * sample + (1 - weight) * prev

def movingAverage (weight start : α) (samples : List α) : α := samples.foldl (blend weight) start

/-- A sample that equals the average leaves it as it is. -/
theorem blend_self (weight value : α) : blend weight value value = value := by
  unfold blend
  ring

section Order

variable [LinearOrder α] [IsStrictOrderedRing α] {weight lower upper : α}

theorem blend_mono (nonneg : 0 ≤ weight) (most : weight ≤ 1) (start : lower ≤ upper) (sample : less ≤ more) :
    blend weight lower less ≤ blend weight upper more := by
  have new := mul_le_mul_of_nonneg_left sample nonneg
  have old := mul_le_mul_of_nonneg_left start (sub_nonneg.mpr most)
  exact add_le_add new old

/-- The average is monotone in where it starts and in every sample. -/
theorem movingAverage_mono (nonneg : 0 ≤ weight) (most : weight ≤ 1) (start : lower ≤ upper)
    (samples : List.Forall₂ (· ≤ ·) less more) : movingAverage weight lower less ≤ movingAverage weight upper more := by
  induction samples generalizing lower upper with
  | nil => exact start
  | cons sample rest ih => exact ih (blend_mono nonneg most start sample)

/-- Bounds of the start and of every sample bound the average. -/
theorem movingAverage_mem_Icc (nonneg : 0 ≤ weight) (most : weight ≤ 1) (start : value ∈ Set.Icc lower upper)
    (samples : ∀ sample ∈ list, sample ∈ Set.Icc lower upper) :
    movingAverage weight value list ∈ Set.Icc lower upper := by
  induction list generalizing value with
  | nil => exact start
  | cons head rest ih =>
    have within := samples head (List.mem_cons_self ..)
    refine ih ⟨?_, ?_⟩ fun sample member => samples sample (List.mem_cons_of_mem _ member)
    · calc lower = blend weight lower lower := (blend_self weight lower).symm
        _ ≤ blend weight value head := blend_mono nonneg most start.1 within.1
    · calc blend weight value head ≤ blend weight upper upper := blend_mono nonneg most start.2 within.2
        _ = upper := blend_self weight upper

end Order

end WotCrawler.Sequence
