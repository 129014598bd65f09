import WotCrawler.Relay.RateLimit

/-! The backoff schedule against capped doubling: where the shift and the narrowing of the
nanoseconds agree with exact arithmetic. -/

namespace WotCrawler.Relay

/-- The delay that the schedule is meant to have. -/
def cappedDoubling (failures : Nat) (base cap : Duration) : Duration := min (base * 2 ^ failures) cap

/-- From the 64th failure on the doubling has passed the cap. Before, the delay is a `u64` of
nanoseconds, and the shift keeps every bit or leaves at least the cap. -/
def Representable (failures : Nat) (base cap : Duration) : Prop :=
  if failures ≥ 64 then cap ≤ base * 2 ^ failures
  else cappedDoubling failures base cap < 2 ^ 64 ∧
    (base * 2 ^ failures < 2 ^ 128 ∨ cap ≤ base * 2 ^ failures % 2 ^ 128)

variable {failures more : Nat} {base cap : Duration}

theorem cappedDoubling_mono (later : failures ≤ more) (base cap : Duration) :
    cappedDoubling failures base cap ≤ cappedDoubling more base cap := by
  have doubled : base * 2 ^ failures ≤ base * 2 ^ more :=
    Nat.mul_le_mul_left base (Nat.pow_le_pow_right (by decide) later)
  exact min_le_min_right cap doubled

theorem cappedDoubling_ne_zero (first : base ≠ 0) (some : cap ≠ 0) : cappedDoubling failures base cap ≠ 0 := by
  have doubled : 0 < base * 2 ^ failures := Nat.mul_pos (Nat.pos_of_ne_zero first) (Nat.two_pow_pos failures)
  exact (lt_min doubled (Nat.pos_of_ne_zero some)).ne'

/-- A product is kept by the shift and the narrowing, up to a cap, exactly if they change nothing
below it. -/
private theorem narrowed_eq_iff (doubled cap : Nat) :
    min (min (min (doubled % 2 ^ 128) cap) (2 ^ 64 - 1)) cap = min doubled cap ↔
      min doubled cap < 2 ^ 64 ∧ (doubled < 2 ^ 128 ∨ cap ≤ doubled % 2 ^ 128) := by
  by_cases fits : doubled < 2 ^ 128
  · rw [Nat.mod_eq_of_lt fits, and_iff_left (.inl fits)]
    omega
  · -- The shift has dropped a bit, and what is left is less than the exact product.
    have left : doubled % 2 ^ 128 < 2 ^ 128 := Nat.mod_lt _ (Nat.two_pow_pos 128)
    omega

theorem backoffDelayUnjittered_eq_iff_representable :
    backoffDelayUnjittered failures base cap = cappedDoubling failures base cap ↔ Representable failures base cap := by
  unfold backoffDelayUnjittered Representable cappedDoubling
  by_cases many : failures ≥ 64
  · rw [if_pos many, if_pos many]
    exact eq_comm.trans min_eq_right_iff
  · rw [if_neg many, if_neg many]
    exact narrowed_eq_iff (base * 2 ^ failures) cap

/-- There is no delay at all exactly if the shift drops every bit of the product. -/
theorem backoffDelayUnjittered_eq_zero_iff (some : cap ≠ 0) :
    backoffDelayUnjittered failures base cap = 0 ↔ failures < 64 ∧ 2 ^ 128 ∣ base * 2 ^ failures := by
  unfold backoffDelayUnjittered
  by_cases many : failures ≥ 64
  · rw [if_pos many]
    exact iff_of_false some (fun both => absurd both.1 (not_lt.mpr many))
  · rw [if_neg many, and_iff_right (not_le.mp many), Nat.dvd_iff_mod_eq_zero]
    simp [some]

/-- A base below `2 ^ 65` nanoseconds and a cap below `2 ^ 64` are in range at every count. -/
theorem representable_of_small (first : base ≠ 0) (short : base < 2 ^ 65) (within : cap < 2 ^ 64) (failures : Nat) :
    Representable failures base cap := by
  have positive : 1 ≤ base := Nat.one_le_iff_ne_zero.mpr first
  unfold Representable
  by_cases many : failures ≥ 64
  · rw [if_pos many]
    calc cap ≤ 2 ^ 64 := within.le
      _ ≤ 2 ^ failures := Nat.pow_le_pow_right (by decide) many
      _ ≤ base * 2 ^ failures := Nat.le_mul_of_pos_left _ positive
  · rw [if_neg many]
    refine ⟨(min_le_right _ _).trans_lt within, .inl ?_⟩
    have few : failures ≤ 63 := by omega
    calc base * 2 ^ failures ≤ base * 2 ^ 63 := Nat.mul_le_mul_left base (Nat.pow_le_pow_right (by decide) few)
      _ < 2 ^ 65 * 2 ^ 63 := Nat.mul_lt_mul_of_pos_right short (Nat.two_pow_pos 63)
      _ = 2 ^ 128 := by norm_num

/-- The defaults double exactly, at every count of failures. -/
theorem defaultBackoff_doubles (failures : Nat) :
    backoffDelayUnjittered failures defaultBackoffBase defaultBackoffCap =
      cappedDoubling failures defaultBackoffBase defaultBackoffCap :=
  backoffDelayUnjittered_eq_iff_representable.mpr (representable_of_small (by decide) (by decide) (by decide) failures)

/-- The schedule is capped doubling exactly where the exact delay is representable. There it is
monotone and not zero. It is zero below a cap exactly where the shift drops every bit; it never
exceeds the cap, and the jitter keeps to its upper half. -/
theorem backoffDelayUnjittered_eq_iff (failures : Nat) (base cap : Duration) :
    (backoffDelayUnjittered failures base cap = min (base * 2 ^ failures) cap ↔ Representable failures base cap) ∧
    (Representable failures base cap → ∀ more, failures ≤ more → Representable more base cap →
      backoffDelayUnjittered failures base cap ≤ backoffDelayUnjittered more base cap) ∧
    (Representable failures base cap → base ≠ 0 → cap ≠ 0 → backoffDelayUnjittered failures base cap ≠ 0) ∧
    (cap ≠ 0 → (backoffDelayUnjittered failures base cap = 0 ↔ failures < 64 ∧ 2 ^ 128 ∣ base * 2 ^ failures)) ∧
    backoffDelayUnjittered failures base cap ≤ cap ∧
    ∀ draw, Draws draw → backoffDelayUnjittered failures base cap / 2 ≤ backoffDelay draw failures base cap ∧
      backoffDelay draw failures base cap ≤ backoffDelayUnjittered failures base cap := by
  have exact {count : Nat} (fits : Representable count base cap) :
      backoffDelayUnjittered count base cap = cappedDoubling count base cap :=
    backoffDelayUnjittered_eq_iff_representable.mpr fits
  refine ⟨backoffDelayUnjittered_eq_iff_representable, ?_, ?_, backoffDelayUnjittered_eq_zero_iff,
    backoffDelayUnjittered_le_cap failures base cap, ?_⟩
  · intro fits more later alsoFits
    rw [exact fits, exact alsoFits]
    exact cappedDoubling_mono later base cap
  · intro fits first some
    rw [exact fits]
    exact cappedDoubling_ne_zero first some
  · exact fun draw draws => backoffDelay_within draws failures base cap

/-- At a base of `2 ^ 70` nanoseconds the 58th doubling leaves nothing, and there is no delay at
all; a base of zero waits for the whole cap; and a delay past the `u64` is cut short. -/
theorem backoffDelayUnjittered_fails :
    (backoffDelayUnjittered 58 (2 ^ 70) (secs 300) = 0 ∧ min (2 ^ 70 * 2 ^ 58) (secs 300) = secs 300) ∧
    (backoffDelayUnjittered 64 0 (secs 300) = secs 300 ∧ min (0 * 2 ^ 64) (secs 300) = 0) ∧
    backoffDelayUnjittered 63 (secs 1) (secs (2 ^ 63)) ≠ min (secs 1 * 2 ^ 63) (secs (2 ^ 63)) := by
  decide

end WotCrawler.Relay
